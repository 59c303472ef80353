/-
  Lease safety of the job queue.

  * `Db.Lawful A`: the jobs stay well-formed, and every slot moves by moves in
    `A`; so does every call for the moves it `Allows` (`exec_lawful`);
  * `lease_safety`: in every state that calls reach, the columns agree, a claim
    returns no job under a live lease, and a transition succeeds exactly for
    the owner of the lease, so that a worker that lost a job has no effect on
    it until it claims it again.
-/
import Xauusd.Scheduler.Writes

namespace Xauusd.Scheduler

variable {A B : Label → Prop} {j j' : Job} {db db' db'' : Db}

/-! ## Lawful calls -/

/-- Every job is well-formed. -/
def Db.WF (db : Db) : Prop := ∀ j ∈ db.jobs, j.WF

/-- The slot of a job id; there is none before the job. -/
def Db.slot (db : Db) (jobId : String) : Slot := ((db.jobs.find? jobId).map Job.slot).getD .free

/-- From `db` to `db'`, the jobs stay well-formed and every slot moves within
    `A`. -/
def Db.Lawful (A : Label → Prop) (db db' : Db) : Prop :=
  db.WF → db'.WF ∧ ∀ id, ∃ ls, (∀ l ∈ ls, A l) ∧ Lease.Moves ls (db.slot id) (db'.slot id)

theorem Db.slot_eq {id : String} (hj : j ∈ db.jobs) (hid : j.jobId = id) : db.slot id = j.slot := by
  simp [slot, Table.find?_eq_some_iff.2 ⟨hj, hid⟩]

theorem Db.lawful_of_jobs_eq (h : db'.jobs = db.jobs) : db.Lawful A db' := by
  intro hdb
  refine ⟨by rw [WF, h]; exact hdb, fun id => ⟨[], by simp, ?_⟩⟩
  rw [show db'.slot id = db.slot id by rw [slot, h, slot]]
  exact .nil

theorem Db.Lawful.refl (db : Db) : db.Lawful A db := lawful_of_jobs_eq rfl

theorem Db.Lawful.trans (h : db.Lawful A db') (h' : db'.Lawful A db'') : db.Lawful A db'' := by
  intro hdb
  obtain ⟨hdb', hm⟩ := h hdb
  obtain ⟨hdb'', hm'⟩ := h' hdb'
  refine ⟨hdb'', fun id => ?_⟩
  obtain ⟨ls, hls, hm⟩ := hm id
  obtain ⟨ls', hls', hm'⟩ := hm' id
  refine ⟨ls ++ ls', fun l hl => ?_, hm.append hm'⟩
  rcases List.mem_append.1 hl with hl | hl
  · exact hls l hl
  · exact hls' l hl

theorem Db.Lawful.mono (h : db.Lawful A db') (hAB : ∀ l, A l → B l) : db.Lawful B db' := by
  intro hdb
  obtain ⟨hdb', hm⟩ := h hdb
  refine ⟨hdb', fun id => ?_⟩
  obtain ⟨ls, hls, hm⟩ := hm id
  exact ⟨ls, fun l hl => hAB l (hls l hl), hm⟩

/-- A statement is lawful. -/
theorem Db.Write.lawful (h : db.Write A db') : db.Lawful A db' := by
  cases h with
  | update p f hf h =>
    intro hdb
    refine ⟨Table.forall_update hf hdb fun j hj hp hw => (h j hj hp hw).1, fun id => ?_⟩
    simp only [slot, updateJobs_jobs, Table.find?_update]
    cases hid : db.jobs.find? id with
    | none => exact ⟨[], by simp, .nil⟩
    | some j =>
      have hj := (Table.find?_eq_some_iff.1 hid).1
      by_cases hp : p j = true
      · simpa [hp] using (h j hj hp (hdb j hj)).2
      · exact ⟨[], by simp, by simp only [Option.map_some, hp]; exact .nil⟩
  | insert j hj hs =>
    intro hdb
    refine ⟨Table.forall_insertIgnore hdb hj, fun id => ?_⟩
    simp only [slot, insertJobIgnore_jobs]
    obtain e | ⟨-, hn, e⟩ := db.jobs.find?_insertIgnore j (fun j' => j'.identity = j.identity) id
    · rw [e]; exact ⟨[], by simp, .nil⟩
    · rw [e, hn, Option.map_some, Option.map_none, Option.getD_some, Option.getD_none]
      rcases hs with hs | ⟨hs, hA⟩ <;> rw [hs]
      · exact ⟨[], by simp, .nil⟩
      · exact ⟨[.shut], by simpa using hA, .single .shut⟩
  | other _ h => exact lawful_of_jobs_eq (congrArg Prod.fst h)

theorem Db.Writes.lawful (h : db.Writes A db') : db.Lawful A db' := by
  induction h with
  | refl => exact .refl _
  | tail _ h ih => exact ih.trans h.lawful

section
variable (P : Platform)

theorem applyRetryScheduleOverride_lawful (r : OverrideRequest) (db : Db) :
    db.Lawful A (applyRetryScheduleOverride r db).2 := by
  obtain h | ⟨c, row, -, -, -, -, h⟩ := applyRetryScheduleOverride_cases r db
  · rw [h]; exact .refl _
  · rw [(Db.insertOverride_ok h).2]
    exact (r.moved_writes _ db).lawful.trans (Db.lawful_of_jobs_eq rfl)

theorem reconcileCompletedJobs_lawful (r : ReconcileRequest) (db : Db) :
    db.Lawful administers (reconcileCompletedJobs P r db).2 := by
  obtain h | ⟨epoch, -, h | h⟩ := reconcileCompletedJobs_cases P r db
  · rw [h]; exact .refl _
  · rw [h]; exact (Db.fullPass_writes P _ _ _ db).lawful
  · obtain ⟨cache, hcache⟩ := Db.publishReconciliation_eq P epoch r.protectedDays r.now
      r.cacheWritable (db.fullPass P epoch r.protectedDays r.now).2
    rw [h, hcache]
    exact (Db.fullPass_writes P _ _ _ db).lawful.trans (Db.lawful_of_jobs_eq rfl)

theorem JobCall.exec_lawful (c : JobCall) (db : Db) : db.Lawful c.Allows (c.exec P db).2 := by
  cases c with
  | overrideRetry r => exact applyRetryScheduleOverride_lawful r db
  | reconcile r => exact reconcileCompletedJobs_lawful P r db
  | _ => exact (exec_writes P ⟨by simp, by simp⟩ db).lawful

theorem RecordCall.exec_jobs (c : RecordCall) (db : Db) : (c.exec db).2.jobs = db.jobs := by
  cases c with
  | append row => simp only [exec]; split <;> rfl
  | startForward | displaceHooks | installHooks => rfl

/-- The moves of a call: only those on the job queue make any. -/
def Call.Allows : Call → Label → Prop
  | .job c => c.Allows
  | _ => fun _ => False

/-- **Every call keeps the jobs well-formed and makes only its own moves.** -/
theorem exec_lawful (c : Call) (db : Db) : db.Lawful c.Allows (exec P db c).2 := by
  cases c with
  | job c => exact c.exec_lawful P db
  | capacity c => exact Db.lawful_of_jobs_eq rfl
  | record c => exact Db.lawful_of_jobs_eq (c.exec_jobs db)

theorem Db.empty_wf : Db.empty.WF := fun _ hj => absurd hj (Table.not_mem_empty _)

theorem wf_run {db : Db} (hdb : db.WF) (calls : List Call) : (Machine.run (exec P) db calls).WF :=
  Machine.run_invariant (I := Db.WF) (fun db c _ hdb => (exec_lawful P c db hdb).1)
    (Machine.along_of_forall (C := fun _ _ => True) (fun _ _ => trivial) db calls) hdb

/-! ## Claims -/

theorem Db.mem_withActiveOverride {x : Job × Option RetryOverride}
    (h : x ∈ db.withActiveOverride j) : x.1 = j := by
  unfold withActiveOverride at h
  split at h
  · rw [List.mem_singleton.1 h]
  · obtain ⟨o, -, rfl⟩ := List.mem_map.1 h
    rfl

/-- A claim selects a waiting job. -/
theorem ClaimRequest.select_mem {r : ClaimRequest} {tasks : List TaskType} {lanes : List WorkLane}
    {row : Job} (h : r.select tasks lanes db = some row) :
    row ∈ db.jobs ∧ r.claimable tasks lanes row = true := by
  obtain ⟨x, hx, rfl⟩ := Option.map_eq_some_iff.1 h
  obtain ⟨j, hj, hxj⟩ := List.mem_flatMap.1 (Table.mem_of_firstBy hx)
  rw [Db.mem_withActiveOverride hxj]
  exact List.mem_filter.1 hj

theorem ClaimRequest.claimable_waiting {r : ClaimRequest} {tasks : List TaskType}
    {lanes : List WorkLane} (h : r.claimable tasks lanes j = true) : j.waiting = true := by
  simp only [claimable, Bool.and_eq_true] at h
  exact h.1.1.1.1.1.1.1

/-- A worker holds the lease of a job. -/
def Db.LeasedTo (db : Db) (id w : String) : Prop :=
  ∃ j ∈ db.jobs, j.jobId = id ∧ j.state = .leased ∧ j.leaseOwner = some w

/-- A row that waits after the repair has no lease that is alive. -/
theorem Db.repaired_waiting (hdb : db.WF) {now : ℤ} {row : Job}
    (hrow : row ∈ (db.repairExpiredLeases now).jobs) (hw : row.waiting = true) :
    ∃ j ∈ db.jobs, j.jobId = row.jobId ∧ ∀ e, j.leaseExpiresAt = some e → e ≤ now := by
  obtain ⟨j, hj, e⟩ := (Table.mem_update (f := Job.repaired now) fun _ => rfl).1 hrow
  refine ⟨j, hj, by rw [e]; split <;> rfl, fun t ht => ?_⟩
  by_cases hexp : j.leaseExpired now = true
  · simp only [Job.leaseExpired, ht, Bool.and_eq_true, decide_eq_true_eq, Option.any_some] at hexp
    exact hexp.2
  · rw [if_neg hexp] at e
    have hleased := (hdb j hj).expires.1 (by simp [ht])
    simp [e, Job.waiting, hleased] at hw

theorem ClaimRequest.leaseJob_find? (r : ClaimRequest) (id id' : String) :
    (r.leaseJob id db).jobs.find? id' =
      (db.jobs.find? id').map fun j => if j.jobId = id && j.waiting then r.lease j else j :=
  Table.find?_update (f := r.lease) (fun _ => rfl) id'

theorem claimJob_returns (hdb : db.WF) {r : ClaimRequest} {job : ScheduledJob}
    (h : claimJob r db = (.ok (some job), db')) :
    (∃ j ∈ db.jobs, j.jobId = job.jobId ∧ ∀ e, j.leaseExpiresAt = some e → e ≤ r.now) ∧
      db'.LeasedTo job.jobId r.workerId := by
  obtain ⟨-, hnone⟩ | h' | ⟨tasks, lanes, row, hrow, h'⟩ := claimJob_cases r db
  · exact absurd (congrArg Prod.fst h) (hnone job)
  · rw [h] at h'; simp at h'
  · obtain ⟨hmem, hclaimable⟩ := ClaimRequest.select_mem hrow
    have hwaiting := ClaimRequest.claimable_waiting hclaimable
    have hleased : (r.leaseJob row.jobId (db.repairExpiredLeases r.now)).jobs.find? row.jobId =
        some (r.lease row) := by
      rw [r.leaseJob_find?, Table.find?_eq_some_iff.2 ⟨hmem, rfl⟩]
      simp [hwaiting]
    rw [h, hleased, Option.map_some] at h'
    obtain ⟨hjob, rfl⟩ : jobFromRow (r.lease row) = job ∧
        r.leaseJob row.jobId (db.repairExpiredLeases r.now) = db' := by
      simpa [eq_comm] using h'
    subst hjob
    have hbefore := Db.repaired_waiting hdb hmem hwaiting
    exact ⟨hbefore, r.lease row, (Table.find?_eq_some_iff.1 hleased).1, rfl, rfl, rfl⟩

/-! ## Transitions -/

/-- The job and the worker of a transition of a leased job. -/
def JobCall.transitionOf : JobCall → Option (String × String)
  | .complete id w _ _ | .release id w _ _ _ | .backoff id w _ _ _ _
  | .deferForMaintenance id w _ _ _ => some (id, w)
  | _ => none

theorem Db.leasedTo_iff_hits {id w : String} :
    db.LeasedTo id w ↔ db.jobs.hits (Job.leasedTo id w) = 1 := by
  rw [Table.hits_eq_one_iff (k := id) fun j hj => by
    simp only [Job.leasedTo, Bool.and_eq_true, decide_eq_true_eq] at hj; exact hj.1.1]
  simp [LeasedTo, Job.leasedTo, and_assoc]

theorem Db.leasedTo_iff_deferrable_hits (hdb : db.WF) {id w : String} :
    db.LeasedTo id w ↔ db.jobs.hits (Job.deferrable id w) = 1 := by
  rw [Table.hits_eq_one_iff (k := id) fun j hj => by
    simp only [Job.deferrable, Job.leasedTo, Bool.and_eq_true, decide_eq_true_eq] at hj
    exact hj.1.1.1]
  refine exists_congr fun j => and_congr_right fun hj => ?_
  have hattempts := (hdb j hj).leasedAttempts
  simp only [Job.deferrable, Job.leasedTo, Bool.and_eq_true, decide_eq_true_eq]
  tauto

/-- A transition succeeds for the owner of the lease, and does nothing for
    anyone else. -/
theorem transition_spec (hdb : db.WF) {c : JobCall} {id w : String}
    (hc : c.transitionOf = some (id, w)) :
    (db.LeasedTo id w → (c.exec P db).1 = .ok .done) ∧
      (¬ db.LeasedTo id w → c.exec P db = (.error leaseNotOwned, db)) := by
  cases c <;> simp only [JobCall.transitionOf, Option.some.injEq, Prod.mk.injEq, reduceCtorEq] at hc
  case deferForMaintenance =>
    obtain ⟨rfl, rfl⟩ := hc
    rw [Db.leasedTo_iff_deferrable_hits hdb]
    constructor <;> intro h <;> simp [JobCall.exec, deferJobForMaintenance, h, replyWith, Except.map]
  all_goals
    obtain ⟨rfl, rfl⟩ := hc
    rw [Db.leasedTo_iff_hits]
    constructor <;> intro h <;>
      simp [JobCall.exec, completeJob, releaseJob, backoffJob, transitionLeasedJob, h, replyWith,
        Except.map]

theorem Db.leasedTo_iff_owner (hdb : db.WF) {id w : String} :
    db.LeasedTo id w ↔ (db.slot id).owner? = some w := by
  constructor
  · rintro ⟨j, hj, hid, hs, hw⟩
    rw [slot_eq hj hid]
    exact (hdb j hj).owner_leased hs hw
  · intro h
    cases hfind : db.jobs.find? id with
    | none => simp [slot, hfind] at h
    | some j =>
      obtain ⟨hj, hid⟩ := Table.find?_eq_some_iff.1 hfind
      rw [slot_eq hj hid] at h
      obtain ⟨hs, hw⟩ := Job.slot_owner h
      exact ⟨j, hj, hid, hs, hw⟩

/-- Only a claim by `w` takes for `w`. -/
theorem Call.not_allows_take {c : Call} {w : String}
    (hc : ∀ r, c = .job (.claim r) → r.workerId ≠ w) (e : ℤ) : ¬ c.Allows (.take w e) := by
  rcases c with c | c | c
  · cases c <;> simp [Allows, JobCall.Allows, settles, administers, ClaimRequest.claims]
    case claim r => exact fun h => hc r rfl h.symm
  all_goals simp [Allows]

/-- **Fencing.** Who does not hold a lease does not hold it after calls among
    which it claims nothing. -/
theorem not_leasedTo_run (hdb : db.WF) {id w : String} (hw : ¬ db.LeasedTo id w) {calls : List Call}
    (hcalls : ∀ r, .job (.claim r) ∈ calls → r.workerId ≠ w) :
    ¬ (Machine.run (exec P) db calls).LeasedTo id w := by
  induction calls generalizing db with
  | nil => exact hw
  | cons c calls ih =>
    obtain ⟨hdb', hmoves⟩ := exec_lawful P c db hdb
    refine ih hdb' ?_ fun r hr => hcalls r (List.mem_cons_of_mem _ hr)
    obtain ⟨ls, hls, hm⟩ := hmoves id
    rw [Db.leasedTo_iff_owner hdb'] at *
    rw [Db.leasedTo_iff_owner hdb] at hw
    refine hm.owner_of_no_take (fun e he => ?_) hw
    refine c.not_allows_take (fun r hr => hcalls r ?_) e (hls _ he)
    rw [hr]; exact List.mem_cons_self

/-! ## Lease safety -/

/-- What the leases guarantee in a state of the database. -/
structure LeaseSafe (db : Db) : Prop where
  /-- the columns agree with the state of the job -/
  columns : ∀ j ∈ db.jobs, (j.leaseOwner.isSome = true ↔ j.state = .leased) ∧
    (j.leaseExpiresAt.isSome = true ↔ j.state = .leased) ∧
    (j.completedAt.isSome = true ↔ j.state = .completed ∨ j.state = .deadLetter)
  /-- a claim returns a job whose lease, if it has one, has expired, and leases
      it to its worker -/
  claims : ∀ r job db', claimJob r db = (.ok (some job), db') →
    (∃ j ∈ db.jobs, j.jobId = job.jobId ∧ ∀ e, j.leaseExpiresAt = some e → e ≤ r.now) ∧
      db'.LeasedTo job.jobId r.workerId
  /-- a transition succeeds iff its worker holds the lease, and otherwise raises
      and changes nothing -/
  transitions : ∀ (c : JobCall) id w, c.transitionOf = some (id, w) →
    ((c.exec P db).1 = .ok .done ↔ db.LeasedTo id w) ∧
      (¬ db.LeasedTo id w → c.exec P db = (.error leaseNotOwned, db))
  /-- while another worker holds a job, and until it claims again, whatever
      calls are made, a worker cannot change the job -/
  fenced : ∀ id w w', w ≠ w' → db.LeasedTo id w' → ∀ calls : List Call,
    (∀ r, .job (.claim r) ∈ calls → r.workerId ≠ w) →
    ∀ c : JobCall, c.transitionOf = some (id, w) →
      c.exec P (Machine.run (exec P) db calls) =
        (.error leaseNotOwned, Machine.run (exec P) db calls)

theorem leasedTo_unique {id w w' : String} (h : db.LeasedTo id w) (h' : db.LeasedTo id w') :
    w = w' := by
  obtain ⟨j, hj, hid, -, hw⟩ := h
  obtain ⟨j', hj', hid', -, hw'⟩ := h'
  obtain rfl := db.jobs.eq_of_key_eq hj hj' (hid.trans hid'.symm)
  exact Option.some.inj (hw.symm.trans hw')

/-- **Lease safety of the job queue**, in every state that calls reach. -/
theorem lease_safety (calls : List Call) : LeaseSafe P (Machine.run (exec P) Db.empty calls) := by
  have hdb := wf_run P Db.empty_wf calls
  generalize Machine.run (exec P) Db.empty calls = db at hdb
  refine ⟨fun j hj => ⟨(hdb j hj).owner, (hdb j hj).expires, (hdb j hj).completed⟩,
    fun r job db' h => claimJob_returns hdb h, fun c id w hc => ?_, ?_⟩
  · obtain ⟨hown, hother⟩ := transition_spec P hdb hc
    refine ⟨⟨fun hdone => ?_, hown⟩, hother⟩
    by_contra hnot
    rw [hother hnot] at hdone
    cases hdone
  · intro id w w' hne hheld calls hcalls c hc
    have hw : ¬ db.LeasedTo id w := fun h => hne (leasedTo_unique h hheld)
    exact (transition_spec P (wf_run P hdb calls) hc).2 (not_leasedTo_run P hdb hw hcalls)

end

end Xauusd.Scheduler

