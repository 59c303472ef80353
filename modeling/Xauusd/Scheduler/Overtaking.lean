/-
  Overtaking in the job queue (`claim_job` in `news/scheduler/state.py`).

  * `Queue`: the database, and the time of the last call;
  * `Queue.Ordinary`: enqueueing, claiming, completing and backing off, where
    time does not run backwards, no job becomes available in the past and no
    lease expires;
  * `ClaimRequest.Peers`: two jobs that the first four terms of the order do
    not tell apart;
  * `Queue.overtaker`: the peer that a call claims before a job that waits;
  * `Queue.ahead`: the other jobs that wait and became available no later;
  * `overtaking_bounded`: **a job older than the head start is overtaken by no
    more peers than there are jobs ahead of it**, and contract backfill waits
    for live work.
-/
import Xauusd.Scheduler.IdleCapacity
import Xauusd.Scheduler.Machine

namespace Xauusd.Scheduler

variable (P : Platform) {r : ClaimRequest} {tasks : List TaskType} {lanes : List WorkLane} {db db' : Db}
  {j k : Job} {o o' : Option RetryOverride} {id : String} {since : ℤ}

/-! ## The queue -/

/-- The database, and the time of the last call. -/
structure Queue where
  db : Db
  clock : ℤ

/-- The time a call reads, if it is one of the four. -/
def JobCall.instant (clock : ℤ) : JobCall → ℤ
  | enqueue r => r.now
  | claim r => r.now
  | complete _ _ _ now => now
  | backoff _ _ _ _ _ now => now
  | _ => clock

def Queue.step (s : Queue) (call : JobCall) : Outcome Reply × Queue :=
  ((call.exec P s.db).1, ⟨(call.exec P s.db).2, call.instant s.clock⟩)

/-- One of the four calls, not before the last one, which makes no job
    available before it, and finds no lease expired. -/
def Queue.Ordinary (s : Queue) : JobCall → Prop
  | .enqueue r => s.clock ≤ r.now
  | .claim r => s.clock ≤ r.now ∧ ∀ j ∈ s.db.jobs, j.leaseExpired r.now = false
  | .complete _ _ completed now => s.clock ≤ completed ∧ s.clock ≤ now
  | .backoff _ _ availableAt _ _ now => s.clock ≤ availableAt ∧ s.clock ≤ now
  | _ => False

/-- The first four terms agree. -/
def ClaimRequest.Peers (r : ClaimRequest) (db : Db) (j k : Job) : Prop :=
  j.workLane = k.workLane ∧ j.fast = k.fast ∧
    r.young (db.activeOverride j.jobId) = r.young (db.activeOverride k.jobId) ∧
    r.overdue (db.activeOverride j.jobId) = r.overdue (db.activeOverride k.jobId)

instance ClaimRequest.decidablePeers : Decidable (r.Peers db j k) :=
  inferInstanceAs (Decidable (_ ∧ _ ∧ _ ∧ _))

/-- The peer that a call claims while it could claim the job `id`, which waits
    since `since`. -/
def Queue.overtaker (id : String) (since : ℤ) (s : Queue) : JobCall → Option Job
  | .claim r =>
    match r.scope, (claimJob r s.db).1, s.db.jobs.find? id with
    | .ok (tasks, lanes), .ok (some job), some j =>
      (s.db.jobs.find? job.jobId).filter fun k =>
        k.jobId ≠ id && j.availableAt = since && r.claimable tasks lanes j && r.Peers s.db j k
    | _, _, _ => none
  | _ => none

/-- Another job that waits and became available no later. -/
def Job.ahead (id : String) (since : ℤ) (k : Job) : Bool := k.waiting && k.jobId ≠ id && k.availableAt ≤ since

/-- The other jobs that wait and became available no later. -/
def Queue.ahead (id : String) (since : ℤ) (s : Queue) : ℕ := s.db.jobs.hits (Job.ahead id since)

/-- The peers among them, for the claim `r`. -/
def Queue.peers (id : String) (since : ℤ) (s : Queue) (r : ClaimRequest) : ℕ :=
  match r.scope, s.db.jobs.find? id with
  | .ok (tasks, lanes), some j =>
    s.db.jobs.hits fun k => k.ahead id since && r.claimable tasks lanes k && r.Peers s.db j k
  | _, _ => 0

/-- A contract backfill whose override is not overdue is claimed only where no
    live job can be. -/
def Queue.LiveFirst (s : Queue) : JobCall → Prop
  | .claim r => ∀ job db' tasks lanes, claimJob r s.db = (.ok (some job), db') → r.scope = .ok (tasks, lanes) →
      job.workLane = .contractBackfill → r.overdue (s.db.activeOverride job.jobId) = false →
      ∀ k ∈ s.db.jobs, r.claimable tasks lanes k = true → k.workLane ≠ .live
  | _ => True

/-! ## Claims -/

/-- Among peers, an aged job is behind no other that became available later. -/
theorem availableAt_le (h : r.rank k o ≤ r.rank j o') (hlane : j.workLane = k.workLane)
    (hfast : j.fast = k.fast) (hyoung : r.young o' = r.young o) (hoverdue : r.overdue o' = r.overdue o)
    (haged : r.aged j = true) : k.availableAt ≤ j.availableAt := by
  rw [rank_eq, rank_eq, cons_le_cons, cons_le_cons, cons_le_cons, cons_le_cons, cons_le_cons, cons_le_cons] at h
  simp only [hlane, hfast, hyoung, hoverdue, haged, lt_irrefl, false_or, true_and, if_true] at h
  by_cases hk : r.aged k = true
  · simp only [hk, if_true, lt_irrefl, false_or, true_and] at h
    rcases h with hlt | ⟨heq, -⟩
    · exact hlt.le
    · exact heq.le
  · simp [hk] at h

theorem repairExpiredLeases_eq {now : ℤ} (h : ∀ j ∈ db.jobs, j.leaseExpired now = false) :
    db.repairExpiredLeases now = db := by
  have hhits : db.jobs.hits (Job.leaseExpired now) = 0 := Table.hits_eq_zero_iff.2 h
  have hchanges : db.inputChanges (Job.leaseExpired now) (Job.repaired now) = 0 := by
    refine Table.hits_eq_zero_iff.2 fun j hj => ?_
    rw [h j hj]
    rfl
  unfold Db.repairExpiredLeases Db.updateJobs
  rw [Table.update_of_hits_eq_zero (f := Job.repaired now) (fun _ => rfl) hhits, hchanges, Metadata.bump_zero]

/-- Where no lease expired, a claim leases a job that is behind no other. -/
theorem claimJob_first {job : ScheduledJob} (hsingle : db.SingleOverride)
    (hexpired : ∀ j ∈ db.jobs, j.leaseExpired r.now = false) (hscope : r.scope = .ok (tasks, lanes))
    (h : claimJob r db = (.ok (some job), db')) :
    ∃ k ∈ db.jobs, r.claimable tasks lanes k = true ∧ job = jobFromRow (r.lease k) ∧ db' = r.leaseJob k.jobId db ∧
      ∀ j ∈ db.jobs, r.claimable tasks lanes j = true →
        r.rank k (db.activeOverride k.jobId) ≤ r.rank j (db.activeOverride j.jobId) := by
  obtain ⟨tasks', lanes', k, hscope', htasks, hselect, hjob⟩ := claimJob_some h
  rw [hscope, Except.ok.injEq, Prod.mk.injEq] at hscope'
  obtain ⟨rfl, rfl⟩ := hscope'
  have hfirst := select_override hsingle hselect
  rw [claimJob_select hscope htasks hselect] at h
  rw [repairExpiredLeases_eq hexpired] at h hselect hfirst
  obtain ⟨hk, hclaimable⟩ := ClaimRequest.select_mem hselect
  exact ⟨k, hk, hclaimable, hjob, (congrArg Prod.snd h).symm, hfirst⟩

/-! ## Steps -/

theorem EnqueueRequest.job_availableAt {r : EnqueueRequest} {job : Job} (h : r.job P = .ok job) :
    job.availableAt = r.now := by
  simp only [EnqueueRequest.job, bind, Except.bind, pure, Except.pure, throw, throwThe, MonadExceptOf.throw] at h
  repeat' split at h
  all_goals first
    | contradiction
    | (obtain rfl := Except.ok.inj h; rfl)

theorem Job.availableAt_of_ahead (h : k.ahead id since = true) : k.availableAt ≤ since := by
  simp only [ahead, Bool.and_eq_true, decide_eq_true_eq] at h
  exact h.2

theorem hits_updateJobs_le {p : Job → Bool} {f : Job → Job} {hf : ∀ j, (f j).jobId = j.jobId} {q : Job → Bool}
    (h : ∀ j ∈ db.jobs, p j = true → q (f j) = true → q j = true) :
    (db.updateJobs p f hf).jobs.hits q ≤ db.jobs.hits q := Table.hits_update_le hf h

/-- What is enqueued now is ahead of nothing older. -/
theorem ahead_enqueueJob {r : EnqueueRequest} (hnow : since < r.now) :
    (enqueueJob P r db).2.jobs.hits (Job.ahead id since) ≤ db.jobs.hits (Job.ahead id since) := by
  unfold enqueueJob
  cases hjob : r.job P with
  | error e => exact le_rfl
  | ok job =>
    have hinserted : (db.insertJobIgnore job).jobs.hits (Job.ahead id since) = db.jobs.hits (Job.ahead id since) := by
      refine Table.hits_insertIgnore ?_
      simp [Job.ahead, r.job_availableAt P hjob, hnow]
    have hupdated : ((db.insertJobIgnore job).updateJobs (fun j => j.jobId = job.jobId && j.waiting)
        (·.reclassified job) fun _ => rfl).jobs.hits (Job.ahead id since) ≤ db.jobs.hits (Job.ahead id since) := by
      rw [← hinserted]
      exact hits_updateJobs_le fun j _ _ hahead => hahead
    dsimp only
    split
    · refine le_trans (hits_updateJobs_le fun j _ _ hahead => ?_) hupdated
      exact absurd (Job.availableAt_of_ahead hahead) (not_le.2 hnow)
    · exact hupdated

/-- What is given back now is ahead of nothing older. -/
theorem ahead_transitionLeasedJob {jobId workerId : String} {state : JobState} {availableAt now : ℤ}
    {error : Option String} {completedAt : Option ℤ} (h : state = .completed ∨ since < availableAt) :
    (transitionLeasedJob jobId workerId state availableAt error completedAt now db).2.jobs.hits (Job.ahead id since) ≤
      db.jobs.hits (Job.ahead id since) := by
  unfold transitionLeasedJob
  split
  · refine hits_updateJobs_le fun j _ _ hahead => ?_
    rcases h with rfl | h
    · simp [Job.ahead, Job.settled, Job.waiting] at hahead
    · exact absurd (Job.availableAt_of_ahead hahead) (not_le.2 h)
  · exact le_rfl

/-- A claim leases a waiting job, and the jobs ahead become fewer if it is one
    of them. -/
theorem ahead_leaseJob (id : String) (since : ℤ) (hk : k ∈ db.jobs) (hwaiting : k.waiting = true) :
    (if k.ahead id since then 1 else 0) + (r.leaseJob k.jobId db).jobs.hits (Job.ahead id since) ≤
      db.jobs.hits (Job.ahead id since) := by
  have hle (j : Job) : (r.lease j).ahead id since = true → j.ahead id since = true := by
    simp [Job.ahead, ClaimRequest.lease, Job.waiting]
  split
  · next hahead =>
    have hlt : (r.leaseJob k.jobId db).jobs.hits (Job.ahead id since) < db.jobs.hits (Job.ahead id since) := by
      refine Table.hits_update_lt (f := r.lease) (fun _ => rfl) (fun j _ _ => hle j) hk ?_ hahead ?_
      · simp [hwaiting]
      · simp [Job.ahead, ClaimRequest.lease, Job.waiting]
    omega
  · rw [zero_add]
    exact Table.hits_update_le (f := r.lease) (fun _ => rfl) fun j _ _ => hle j

theorem ahead_repairExpiredLeases {now : ℤ} (h : ∀ j ∈ db.jobs, j.leaseExpired now = false) :
    (db.repairExpiredLeases now).jobs.hits (Job.ahead id since) = db.jobs.hits (Job.ahead id since) := by
  rw [repairExpiredLeases_eq h]

/-- The overtaker became available no later, and was ahead. -/
theorem overtaker_ahead {s : Queue} {call : JobCall} (hsingle : s.db.SingleOverride)
    (hsince : since ≤ s.clock - PRIORITY_HEAD_START) (hcall : s.Ordinary call)
    (h : s.overtaker id since call = some k) : ∃ r job, call = .claim r ∧
      (claimJob r s.db).1 = .ok (some job) ∧ k ∈ s.db.jobs ∧ k.jobId = job.jobId ∧ k.ahead id since = true := by
  cases call with
  | claim r =>
    obtain ⟨hclock, hexpired⟩ := hcall
    simp only [Queue.overtaker] at h
    split at h
    · next tasks lanes job j hscope hclaim hj =>
      obtain ⟨hfind, hp⟩ := Option.filter_eq_some_iff.1 h
      simp only [Bool.and_eq_true, decide_eq_true_eq] at hp
      obtain ⟨⟨⟨hne, hjsince⟩, hclaimable⟩, hlane, hfast, hyoung, hoverdue⟩ := hp
      obtain ⟨hk, hkid⟩ := Table.find?_eq_some_iff.1 hfind
      have hpair : claimJob r s.db = (.ok (some job), (claimJob r s.db).2) := by rw [← hclaim]
      obtain ⟨k', hk', hk'claimable, rfl, -, hfirst⟩ := claimJob_first hsingle hexpired hscope hpair
      obtain rfl : k = k' := s.db.jobs.eq_of_key_eq hk hk' hkid
      have haged : r.aged j = true := by
        rw [ClaimRequest.aged, decide_eq_true_eq, hjsince]
        omega
      have hle := availableAt_le (hfirst j (Table.find?_eq_some_iff.1 hj).1 hclaimable) hlane hfast hyoung hoverdue haged
      refine ⟨r, _, rfl, hclaim, hk, rfl, ?_⟩
      simp only [Job.ahead, Bool.and_eq_true, decide_eq_true_eq]
      exact ⟨⟨ClaimRequest.claimable_waiting hk'claimable, hne⟩, by omega⟩
    · cases h
  | _ => cases h

/-- What every ordinary call keeps. -/
def Queue.Kept (since : ℤ) (s : Queue) : Prop := s.db.SingleOverride ∧ since ≤ s.clock - PRIORITY_HEAD_START

theorem mem_of_mem_closeOverrides {p : RetryOverride → Bool} {o : RetryOverride}
    (ho : o ∈ (db.closeOverrides p).overrides) (hactive : o.active = true) : o ∈ db.overrides := by
  obtain ⟨x, hx, rfl⟩ := List.mem_map.1 ho
  by_cases hp : p x = true
  · simp [hp] at hactive
  · rw [if_neg hp]
    exact hx

theorem SingleOverride.closeOverrides {p : RetryOverride → Bool} (h : db.SingleOverride) :
    (db.closeOverrides p).SingleOverride :=
  fun o ho o' ho' hactive hactive' hid =>
    h o (mem_of_mem_closeOverrides ho hactive) o' (mem_of_mem_closeOverrides ho' hactive') hactive hactive' hid

theorem SingleOverride.of_overrides_eq (heq : db'.overrides = db.overrides) (h : db.SingleOverride) :
    db'.SingleOverride := by
  intro o ho o' ho'
  rw [heq] at ho ho'
  exact h o ho o' ho'

theorem enqueueJob_overrides {r : EnqueueRequest} : (enqueueJob P r db).2.overrides = db.overrides := by
  unfold enqueueJob
  split
  · rfl
  · dsimp only
    split <;> rfl

theorem transitionLeasedJob_overrides {jobId workerId : String} {state : JobState} {availableAt now : ℤ}
    {error : Option String} {completedAt : Option ℤ} :
    (transitionLeasedJob jobId workerId state availableAt error completedAt now db).2.overrides = db.overrides := by
  unfold transitionLeasedJob
  split <;> rfl

theorem SingleOverride.claimJob (h : db.SingleOverride) : (claimJob r db).2.SingleOverride := by
  obtain ⟨heq, -⟩ | heq | ⟨tasks, lanes, row, -, heq⟩ := claimJob_cases r db
  · rw [heq]
    exact h
  · rw [heq]
    exact of_overrides_eq rfl h
  · rw [heq]
    exact closeOverrides (of_overrides_eq rfl h)

/-- A claim takes its overtaker from the jobs ahead. -/
theorem ahead_claimJob {s : Queue} (hsingle : s.db.SingleOverride) (hsince : since ≤ s.clock - PRIORITY_HEAD_START)
    (hcall : s.Ordinary (.claim r)) :
    (if (s.overtaker id since (.claim r)).isSome then 1 else 0) + (claimJob r s.db).2.jobs.hits (Job.ahead id since) ≤
      s.ahead id since := by
  have hexpired := hcall.2
  cases h : s.overtaker id since (.claim r) with
  | none =>
    rw [Option.isSome_none, if_neg (by simp), zero_add]
    obtain ⟨heq, -⟩ | heq | ⟨tasks, lanes, row, hrow, heq⟩ := claimJob_cases r s.db
    · rw [heq]
      exact le_rfl
    · rw [heq]
      exact (ahead_repairExpiredLeases hexpired).le
    · rw [repairExpiredLeases_eq hexpired] at heq hrow
      obtain ⟨hmem, hclaimable⟩ := ClaimRequest.select_mem hrow
      rw [heq]
      exact le_trans (Nat.le_add_left _ _) (ahead_leaseJob id since hmem (ClaimRequest.claimable_waiting hclaimable))
  | some k =>
    rw [Option.isSome_some, if_pos rfl]
    obtain ⟨r', job, heq, hclaim, hk, hid, hahead⟩ := overtaker_ahead hsingle hsince hcall h
    cases heq
    have hpair : claimJob r s.db = (.ok (some job), (claimJob r s.db).2) := by rw [← hclaim]
    obtain ⟨tasks, lanes, -, hscope, -⟩ := claimJob_some hpair
    obtain ⟨k', hk', hclaimable, rfl, hdb, -⟩ := claimJob_first hsingle hexpired hscope hpair
    obtain rfl : k = k' := s.db.jobs.eq_of_key_eq hk hk' hid
    have hle := ahead_leaseJob (r := r) id since hk (ClaimRequest.claimable_waiting hclaimable)
    rw [if_pos hahead, ← hdb] at hle
    exact hle

/-- **The step.** An ordinary call keeps what it finds, and takes its
    overtaker from the jobs ahead. -/
theorem ordinary_step (id : String) {s : Queue} {call : JobCall} (hcall : s.Ordinary call) (hs : s.Kept since) :
    (s.step P call).2.Kept since ∧
      (if (s.overtaker id since call).isSome then 1 else 0) + (s.step P call).2.ahead id since ≤ s.ahead id since := by
  obtain ⟨hsingle, hsince⟩ := hs
  have hhead : since < s.clock := by
    unfold PRIORITY_HEAD_START at hsince
    have hminute : 0 < IsoTime.minute := by decide
    omega
  cases call with
  | enqueue r =>
    have hnow : s.clock ≤ r.now := hcall
    have hnone : s.overtaker id since (.enqueue r) = none := rfl
    refine ⟨⟨SingleOverride.of_overrides_eq (enqueueJob_overrides P) hsingle, ?_⟩, ?_⟩
    · show since ≤ r.now - PRIORITY_HEAD_START
      omega
    · rw [hnone, Option.isSome_none, if_neg (by simp), zero_add]
      exact ahead_enqueueJob P (by omega)
  | claim r =>
    have hnow : s.clock ≤ r.now := hcall.1
    refine ⟨⟨SingleOverride.claimJob hsingle, ?_⟩, ahead_claimJob hsingle hsince hcall⟩
    show since ≤ r.now - PRIORITY_HEAD_START
    omega
  | complete jobId workerId completed now =>
    obtain ⟨-, hnow⟩ := hcall
    have hnone : s.overtaker id since (.complete jobId workerId completed now) = none := rfl
    refine ⟨⟨SingleOverride.of_overrides_eq transitionLeasedJob_overrides hsingle, ?_⟩, ?_⟩
    · show since ≤ now - PRIORITY_HEAD_START
      omega
    · rw [hnone, Option.isSome_none, if_neg (by simp), zero_add]
      exact ahead_transitionLeasedJob (.inl rfl)
  | backoff jobId workerId availableAt error terminal now =>
    obtain ⟨havailable, hnow⟩ := hcall
    have hnone : s.overtaker id since (.backoff jobId workerId availableAt error terminal now) = none := rfl
    refine ⟨⟨SingleOverride.of_overrides_eq transitionLeasedJob_overrides hsingle, ?_⟩, ?_⟩
    · show since ≤ now - PRIORITY_HEAD_START
      omega
    · rw [hnone, Option.isSome_none, if_neg (by simp), zero_add]
      exact ahead_transitionLeasedJob (.inr (by omega))
  | _ => exact hcall.elim

theorem liveFirst {s : Queue} {call : JobCall} (hsingle : s.db.SingleOverride) (hcall : s.Ordinary call) :
    s.LiveFirst call := by
  cases call with
  | claim r =>
    intro job db' tasks lanes hclaim hscope hlane hoverdue j hj hclaimable hlive
    obtain ⟨k, -, -, rfl, -, hfirst⟩ := claimJob_first hsingle hcall.2 hscope hclaim
    have hk := (class_le (hfirst j hj hclaimable) hoverdue).2.1 hlive
    rw [show k.workLane = _ from hlane] at hk
    cases hk
  | _ => trivial

/-! ## Runs -/

/-- **A job older than the head start is overtaken by no more peers than there
    are jobs ahead of it**, none of which became available later; and contract
    backfill waits for live work. -/
theorem overtaking_bounded (id : String) (since : ℤ) (s : Queue) (calls : List JobCall)
    (hsingle : s.db.SingleOverride) (hsince : since ≤ s.clock - PRIORITY_HEAD_START)
    (hrun : Machine.Along (Queue.step P) Queue.Ordinary s calls) :
    Machine.Along (Queue.step P)
        (fun s call => (∀ k, s.overtaker id since call = some k → k.availableAt ≤ since) ∧ s.LiveFirst call) s calls ∧
      Machine.total (Queue.step P) (fun s call => if (s.overtaker id since call).isSome then 1 else 0) s calls ≤
        s.ahead id since := by
  have hkept (s : Queue) (call : JobCall) (hcall : s.Ordinary call) (hs : s.Kept since) :
      (s.step P call).2.Kept since := (ordinary_step P id hcall hs).1
  constructor
  · refine Machine.Along.of_invariant hkept (fun s call hcall hs => ⟨fun k hk => ?_, ?_⟩) hrun ⟨hsingle, hsince⟩
    · obtain ⟨-, -, -, -, -, -, hahead⟩ := overtaker_ahead hs.1 hs.2 hcall hk
      exact Job.availableAt_of_ahead hahead
    · exact liveFirst hs.1 hcall
  · have hspent := Machine.run_descent hkept (fun s call hcall hs => (ordinary_step P id hcall hs).2) hrun
      ⟨hsingle, hsince⟩
    exact le_trans (Nat.le_add_right _ _) hspent

/-! ## A job that becomes a peer -/

def sampleArrival (sourceItemId priority : String) (now : ℤ) : EnqueueRequest where
  taskType := "ACTIVE_ANNOTATION"
  source := "source"
  sourceItemId := sourceItemId
  revisionNumber := 1
  promptVersion := "prompt"
  priority := priority
  now := now

/-- A normal annotation and an urgent one, which are no peers, a minute later. -/
def sampleQueue : Queue where
  db := Machine.run (fun db (call : JobCall) => call.exec Platform.winter db) Db.empty
    [.enqueue (sampleArrival "a" "NORMAL" 0), .enqueue (sampleArrival "b" "FAST" 0)]
  clock := IsoTime.minute

/-- The normal one is enqueued again, as urgent, and claimed. -/
def sampleCalls : List JobCall := [.enqueue (sampleArrival "a" "FAST" IsoTime.minute), .claim idleClaim]

def sampleId : String := "ACTIVE_ANNOTATION|source|b|1||prompt"

theorem sampleQueue_single : sampleQueue.db.SingleOverride := by
  have hnone : sampleQueue.db.overrides.rows = [] := by decide
  intro o ho
  rw [← Table.mem_rows, hnone] at ho
  cases ho

theorem sampleQueue_ordinary : Machine.Along (Queue.step Platform.winter) Queue.Ordinary sampleQueue sampleCalls := by
  refine ⟨le_rfl, ⟨le_rfl, fun j hj => ?_⟩, trivial⟩
  have hnone : (sampleQueue.step Platform.winter (.enqueue (sampleArrival "a" "FAST" IsoTime.minute))).2.db.jobs.rows.all
      (fun j => !j.leaseExpired idleClaim.now) = true := by
    decide
  simpa using List.all_eq_true.1 hnone j hj

theorem overtaking_bounded_sample :
    Machine.Along (Queue.step Platform.winter)
        (fun s call => (∀ k, s.overtaker sampleId 0 call = some k → k.availableAt ≤ 0) ∧ s.LiveFirst call)
        sampleQueue sampleCalls ∧
      Machine.total (Queue.step Platform.winter)
        (fun s call => if (s.overtaker sampleId 0 call).isSome then 1 else 0) sampleQueue sampleCalls ≤
          sampleQueue.ahead sampleId 0 :=
  overtaking_bounded Platform.winter sampleId 0 sampleQueue sampleCalls sampleQueue_single (by decide)
    sampleQueue_ordinary

/-- **The peers at the start do not bound the overtaking.** -/
theorem overtaken_by_later_peer : sampleQueue.db.SingleOverride ∧ 0 ≤ sampleQueue.clock - PRIORITY_HEAD_START ∧
    Machine.Along (Queue.step Platform.winter) Queue.Ordinary sampleQueue sampleCalls ∧
    ¬ Machine.total (Queue.step Platform.winter)
      (fun s call => if (s.overtaker sampleId 0 call).isSome then 1 else 0) sampleQueue sampleCalls ≤
        sampleQueue.peers sampleId 0 idleClaim := by
  refine ⟨sampleQueue_single, by decide, sampleQueue_ordinary, ?_⟩
  have hpeers : sampleQueue.peers sampleId 0 idleClaim = 0 := by decide
  have htotal : Machine.total (Queue.step Platform.winter)
      (fun s call => if (s.overtaker sampleId 0 call).isSome then 1 else 0) sampleQueue sampleCalls = 1 := by
    decide
  omega

end Xauusd.Scheduler
