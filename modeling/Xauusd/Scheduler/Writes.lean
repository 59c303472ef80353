/-
  The statements of the calls on the job queue.

  A job is a slot (`Job.slot`) in the sense of `Lease`: free while it waits,
  held while it is leased, closed once it is completed or dead.

  * `Job.WF`: the lease columns and the completion time agree with the state;
  * `Job.Lawful A`: a write of a row keeps `WF`, and moves the slot within `A`;
  * `Db.Writes A`: statements that update and insert jobs lawfully, and others
    that leave the jobs, the evidence, the capacity tables and the metadata;
  * one lemma for each call says that it makes such statements.
-/
import Xauusd.Lib.Lease
import Xauusd.Scheduler.Machine

namespace Xauusd.Scheduler

abbrev Slot := Lease.Slot String ℤ
abbrev Label := Lease.Label String ℤ

variable {A : Label → Prop} {j j' : Job} {db db' db'' : Db}

/-! ## Rows -/

/-- The state of a job is one in which it is done. -/
def JobState.closed (s : JobState) : Prop := s = .completed ∨ s = .deadLetter

/-- The lease columns, the completion time and the attempts of a job agree with
    its state. -/
structure Job.WF (j : Job) : Prop where
  owner : j.leaseOwner.isSome = true ↔ j.state = .leased
  expires : j.leaseExpiresAt.isSome = true ↔ j.state = .leased
  completed : j.completedAt.isSome = true ↔ j.state.closed
  attempts : 0 ≤ j.attemptCount
  leasedAttempts : j.state = .leased → 0 < j.attemptCount

/-- The slot of a job. -/
def Job.slot (j : Job) : Slot :=
  match j.state, j.leaseOwner, j.leaseExpiresAt with
  | .leased, some w, some e => .held w e
  | .completed, _, _ | .deadLetter, _, _ => .closed
  | _, _, _ => .free

theorem Job.slot_closed (h : j.state.closed) : j.slot = .closed := by
  rcases h with h | h <;> simp [slot, h]

theorem Job.slot_waiting (h : j.waiting = true) : j.slot = .free := by
  simp only [waiting, Bool.or_eq_true, decide_eq_true_eq] at h
  rcases h with h | h <;> simp [slot, h]

theorem Job.WF.slot_leased (hj : j.WF) (h : j.state = .leased) :
    ∃ w e, j.leaseOwner = some w ∧ j.leaseExpiresAt = some e ∧ j.slot = .held w e := by
  obtain ⟨w, hw⟩ := Option.isSome_iff_exists.1 (hj.owner.2 h)
  obtain ⟨e, he⟩ := Option.isSome_iff_exists.1 (hj.expires.2 h)
  exact ⟨w, e, hw, he, by simp [slot, h, hw, he]⟩

theorem Job.slot_owner {w : String} (h : j.slot.owner? = some w) :
    j.state = .leased ∧ j.leaseOwner = some w := by
  unfold slot at h
  split at h
  · next hs hw _ => exact ⟨hs, by simpa [hw] using h⟩
  all_goals simp at h

theorem Job.WF.owner_leased (hj : j.WF) {w : String} (hs : j.state = .leased)
    (hw : j.leaseOwner = some w) : j.slot.owner? = some w := by
  obtain ⟨w', e, hw', -, h⟩ := hj.slot_leased hs
  rw [h, Lease.Slot.owner?_held, ← hw', hw]

theorem Job.slot_owner_none (h : j.state ≠ .leased) : j.slot.owner? = none := by
  cases ho : j.slot.owner? with
  | none => rfl
  | some w => exact absurd (slot_owner ho).1 h

/-- A job without a lease is well-formed when its completion time says whether
    it is done. -/
theorem Job.wf_unleased (hs : j.state ≠ .leased) (ho : j.leaseOwner = none)
    (he : j.leaseExpiresAt = none) (hc : j.completedAt.isSome = true ↔ j.state.closed)
    (ha : 0 ≤ j.attemptCount) : j.WF where
  owner := by simp [ho, hs]
  expires := by simp [he, hs]
  completed := hc
  attempts := ha
  leasedAttempts h := absurd h hs

/-! ## Lawful writes of a row -/

/-- The write of `j'` over `j` keeps the columns in agreement, and its moves of
    the slot are in `A`. -/
def Job.Lawful (A : Label → Prop) (j j' : Job) : Prop :=
  j.WF → j'.WF ∧ ∃ ls, (∀ l ∈ ls, A l) ∧ Lease.Moves ls j.slot j'.slot

/-- The columns that the lease is read from. -/
def Job.leaseColumns (j : Job) : JobState × Option String × Option ℤ × Option ℤ × ℤ :=
  (j.state, j.leaseOwner, j.leaseExpiresAt, j.completedAt, j.attemptCount)

/-- A write that leaves the lease columns is lawful. -/
theorem Job.lawful_keep (h : j'.leaseColumns = j.leaseColumns) : j.Lawful A j' := by
  simp only [leaseColumns, Prod.mk.injEq] at h
  obtain ⟨hs, ho, he, hc, ha⟩ := h
  intro hj
  have hslot : j'.slot = j.slot := by simp [slot, hs, ho, he]
  refine ⟨⟨?_, ?_, ?_, ?_, ?_⟩, [], by simp, hslot ▸ .nil⟩
  · rw [ho, hs]; exact hj.owner
  · rw [he, hs]; exact hj.expires
  · rw [hc, hs]; exact hj.completed
  · rw [ha]; exact hj.attempts
  · rw [ha, hs]; exact hj.leasedAttempts

/-- A write that moves the slot once and leaves no lease is lawful. -/
theorem Job.lawful_unlease {l : Label} (hA : A l) (hs : j'.state ≠ .leased)
    (ho : j'.leaseOwner = none) (he : j'.leaseExpiresAt = none)
    (hc : j'.completedAt.isSome = true ↔ j'.state.closed)
    (ha : j.WF → 0 ≤ j'.attemptCount) (hm : j.WF → Lease.Move l j.slot j'.slot) :
    j.Lawful A j' :=
  fun hj => ⟨wf_unleased hs ho he hc (ha hj), [l], by simpa using hA, .single (hm hj)⟩

/-- A write that closes a job is lawful. -/
theorem Job.lawful_shut (hA : A .shut) (hs : j'.state.closed) (ho : j'.leaseOwner = none)
    (he : j'.leaseExpiresAt = none) (hc : j'.completedAt.isSome = true)
    (ha : j'.attemptCount = j.attemptCount) : j.Lawful A j' := by
  refine lawful_unlease hA ?_ ho he (by simp [hc, hs]) (fun hj => ha ▸ hj.attempts) fun _ => ?_
  · rcases hs with h | h <;> simp [h]
  · rw [slot_closed hs]; exact .shut

theorem Job.lawful_retired (hA : A .shut) (error : String) (now : ℤ) :
    j.Lawful A (j.retired error now) :=
  lawful_shut hA (.inr rfl) rfl rfl rfl rfl

theorem Job.lawful_reconciled (hA : A .shut) (now : ℤ) : j.Lawful A (j.reconciled now) :=
  lawful_shut hA (.inl rfl) rfl rfl rfl rfl

theorem Job.lawful_completedAs (hA : A .shut) {new : Job} (h : new.completedAt.isSome = true) :
    j.Lawful A (j.completedAs new) :=
  lawful_shut hA (.inl rfl) rfl rfl h rfl

theorem Job.lawful_laned (hA : A .shut) (historical retired : Bool) (now : ℤ) :
    j.Lawful A (j.laned historical retired now) := by
  cases retired with
  | true => exact lawful_shut hA (.inr rfl) rfl rfl rfl rfl
  | false => exact lawful_keep rfl

/-- Requeueing a job that is not leased is lawful. -/
theorem Job.lawful_requeued (hA : A .reopen) (hs : j.state ≠ .leased) (now : ℤ)
    (error : Option String) : j.Lawful A (j.requeued now error) := by
  refine lawful_unlease hA (by simp [requeued]) rfl rfl (by simp [requeued, JobState.closed])
    (fun hj => hj.attempts) fun _ => ?_
  rw [show (j.requeued now error).slot = .free from rfl]
  exact .reopen (slot_owner_none hs)

theorem Job.lawful_repaired {now : ℤ} (hA : A (.lapse now)) (h : j.leaseExpired now = true) :
    j.Lawful A (j.repaired now) := by
  simp only [leaseExpired, Bool.and_eq_true, decide_eq_true_eq] at h
  obtain ⟨hs, hexp⟩ := h
  intro hj
  refine lawful_unlease hA (by simp [repaired]) rfl rfl ?_ (fun hj => hj.attempts) (fun _ => ?_) hj
  · rw [show (j.repaired now).completedAt = j.completedAt from rfl, hj.completed]
    simp [repaired, JobState.closed, hs]
  · obtain ⟨w, e, -, he, hslot⟩ := hj.slot_leased hs
    rw [hslot, show (j.repaired now).slot = .free from rfl]
    exact .lapse (by simpa [he] using hexp)

theorem Job.lawful_lease {r : ClaimRequest} (hA : ∀ e, A (.take r.workerId e))
    (h : j.waiting = true) : j.Lawful A (r.lease j) := by
  intro hj
  have hopen : ¬ j.state.closed := by
    simp only [waiting, Bool.or_eq_true, decide_eq_true_eq] at h
    rcases h with h | h <;> simp [JobState.closed, h]
  have hattempts := hj.attempts
  obtain ⟨e, he⟩ : ∃ e, (r.lease j).slot = .held r.workerId e := ⟨_, rfl⟩
  refine ⟨⟨by simp [ClaimRequest.lease], by simp [ClaimRequest.lease], ?_, ?_, ?_⟩,
    [.take r.workerId e], by simpa using hA e, .single ?_⟩
  · rw [show (r.lease j).completedAt = j.completedAt from rfl, hj.completed]
    simp [ClaimRequest.lease, JobState.closed]
    simpa [JobState.closed] using hopen
  · simp only [ClaimRequest.lease]; omega
  · simp only [ClaimRequest.lease]; omega
  · rw [slot_waiting h, he]; exact .take

/-- The moves of the owner of a lease. -/
def settles (w : String) (l : Label) : Prop := ∃ done, l = .settle w done

theorem Job.lawful_settled {id w : String} {state : JobState} {availableAt clock : ℤ}
    {error : Option String} {completedAt : Option ℤ} (h : j.leasedTo id w = true)
    (hs : state ≠ .leased) (hc : completedAt.isSome = true ↔ state.closed) :
    j.Lawful (settles w) (j.settled state availableAt error completedAt clock) := by
  simp only [leasedTo, Bool.and_eq_true, decide_eq_true_eq] at h
  obtain ⟨⟨-, hl⟩, hw⟩ := h
  intro hj
  obtain ⟨w', e, hw', -, hslot⟩ := hj.slot_leased hl
  obtain rfl : w' = w := by simpa [hw'] using hw
  refine lawful_unlease (l := .settle w' completedAt.isSome) ⟨_, rfl⟩ hs rfl rfl hc
    (fun hj => hj.attempts) (fun _ => ?_) hj
  have hslot' : (j.settled state availableAt error completedAt clock).slot =
      if completedAt.isSome then .closed else .free := by
    by_cases hclosed : state.closed
    · rw [if_pos (hc.2 hclosed)]; exact slot_closed hclosed
    · rw [if_neg fun hsome => hclosed (hc.1 hsome)]
      cases state <;> simp_all [slot, settled, JobState.closed]
  rw [hslot, hslot']
  exact .settle

theorem Job.lawful_deferred {id w reason : String} {availableAt clock : ℤ}
    (h : j.deferrable id w = true) : j.Lawful (settles w) (j.deferred availableAt reason clock) := by
  simp only [deferrable, leasedTo, Bool.and_eq_true, decide_eq_true_eq] at h
  obtain ⟨⟨⟨-, hl⟩, hw⟩, hpos⟩ := h
  intro hj
  obtain ⟨w', e, hw', -, hslot⟩ := hj.slot_leased hl
  obtain rfl : w' = w := by simpa [hw'] using hw
  refine lawful_unlease (l := .settle w' false) ⟨_, rfl⟩ (by simp [deferred]) rfl rfl ?_
    (fun _ => by simp only [deferred]; omega) (fun _ => ?_) hj
  · rw [show (j.deferred availableAt reason clock).completedAt = j.completedAt from rfl,
      hj.completed]
    simp [deferred, JobState.closed, hl]
  · rw [hslot, show (j.deferred availableAt reason clock).slot = .free from rfl]
    exact (Lease.Move.settle : Lease.Move (.settle w' false) (.held w' e) _)

/-! ## Statements of a transaction -/

/-- What a statement other than one on the job table leaves. -/
def Db.core (db : Db) : Table Job.jobId × Evidence × Capacity × Metadata × List String :=
  (db.jobs, db.evidence, db.capacity, db.metadata, db.overrides.rows.map (·.requestId))

/-- One statement of a call on the job queue. -/
inductive Db.Write (A : Label → Prop) (db : Db) : Db → Prop
  | update (p : Job → Bool) (f : Job → Job) (hf : ∀ j, (f j).jobId = j.jobId)
      (h : ∀ j ∈ db.jobs, p j = true → j.Lawful A (f j)) : db.Write A (db.updateJobs p f hf)
  | insert (j : Job) (hj : j.WF) (hs : j.slot = .free ∨ j.slot = .closed ∧ A .shut) :
      db.Write A (db.insertJobIgnore j)
  | other (result : Db) (h : result.core = db.core) : db.Write A result

/-- The statements of a call. -/
def Db.Writes (A : Label → Prop) : Db → Db → Prop := Relation.ReflTransGen (Db.Write A)

theorem Db.Writes.refl (db : Db) : db.Writes A db := Relation.ReflTransGen.refl

theorem Db.Writes.trans (h : db.Writes A db') (h' : db'.Writes A db'') : db.Writes A db'' :=
  Relation.ReflTransGen.trans h h'

theorem Db.writes_of_core_eq (h : db'.core = db.core) : db.Writes A db' := .single (.other _ h)

/-- Statements of calls on the queue leave the evidence and the capacity tables. -/
theorem Db.Writes.frame (h : db.Writes A db') :
    db'.evidence = db.evidence ∧ db'.capacity = db.capacity := by
  induction h with
  | refl => exact ⟨rfl, rfl⟩
  | tail _ h ih =>
    cases h with
    | update | insert => exact ih
    | other _ h =>
      simp only [core, Prod.mk.injEq] at h
      exact ⟨h.2.1.trans ih.1, h.2.2.1.trans ih.2⟩

theorem Db.updateJobs_writes {p : Job → Bool} {f : Job → Job} {hf : ∀ j, (f j).jobId = j.jobId}
    (h : ∀ j ∈ db.jobs, p j = true → j.Lawful A (f j)) : db.Writes A (db.updateJobs p f hf) :=
  .single (.update p f hf h)

theorem Db.insertJobIgnore_writes (hj : j.WF) (hs : j.slot = .free ∨ j.slot = .closed ∧ A .shut) :
    db.Writes A (db.insertJobIgnore j) :=
  .single (.insert j hj hs)

theorem Db.closeOverrides_writes (p : RetryOverride → Bool) (db : Db) :
    db.Writes A (db.closeOverrides p) :=
  writes_of_core_eq (by
    have hids := Table.map_update (g := (·.requestId)) db.overrides p
      (fun o => { o with active := false }) (fun _ => rfl) fun _ => rfl
    simp only [core, closeOverrides, hids])

/-- A fold of writes writes. -/
theorem Db.writes_foldl {ι α : Type} (view : α → Db) (f : α → ι → α)
    (h : ∀ x i, (view x).Writes A (view (f x i))) (is : List ι) (x : α) :
    (view x).Writes A (view (is.foldl f x)) :=
  Machine.foldl_related (R := Db.Writes A) Db.Writes.refl Db.Writes.trans view f is
    (fun x i _ => h x i) x

theorem Db.writes_foldlM {ι α : Type} (view : α → Db) (f : α → ι → Outcome α)
    (h : ∀ x i y, f x i = .ok y → (view x).Writes A (view y)) (is : List ι) (x y : α)
    (hy : is.foldlM f x = .ok y) : (view x).Writes A (view y) :=
  Machine.foldlM_related (R := Db.Writes A) Db.Writes.refl Db.Writes.trans view f is
    (fun x i _ => h x i) x y hy

/-! ## The statements of each call -/

section
variable (P : Platform)

/-- The moves of the system: it closes slots, and reopens those nobody holds. -/
def administers (l : Label) : Prop := l = .shut ∨ l = .reopen

/-- The moves of a claim: it takes for its worker, and finds leases expired. -/
def ClaimRequest.claims (r : ClaimRequest) (l : Label) : Prop :=
  (∃ e, l = .take r.workerId e) ∨ l = .lapse r.now

theorem EnqueueRequest.job_queued {r : EnqueueRequest} {job : Job} (h : r.job P = .ok job) :
    job.leaseColumns = (.queued, none, none, none, 0) := by
  simp only [EnqueueRequest.job, bind, Except.bind, pure, Except.pure, throw, throwThe,
    MonadExceptOf.throw] at h
  repeat' split at h
  all_goals first
    | contradiction
    | (obtain rfl := Except.ok.inj h; rfl)

theorem Job.wf_of_queued (h : j.leaseColumns = (.queued, none, none, none, 0)) :
    j.WF ∧ j.slot = .free := by
  simp only [leaseColumns, Prod.mk.injEq] at h
  obtain ⟨hs, ho, he, hc, ha⟩ := h
  exact ⟨wf_unleased (by simp [hs]) ho he (by simp [hc, hs, JobState.closed]) (by simp [ha]),
    slot_waiting (by simp [waiting, hs])⟩

theorem enqueueJob_writes (r : EnqueueRequest) (db : Db) :
    db.Writes administers (enqueueJob P r db).2 := by
  unfold enqueueJob
  cases hjob : r.job P with
  | error e => exact .refl _
  | ok job =>
    obtain ⟨hwf, hslot⟩ := Job.wf_of_queued (r.job_queued P hjob)
    have hupdated : db.Writes administers ((db.insertJobIgnore job).updateJobs
        (fun j => j.jobId = job.jobId && j.waiting) (·.reclassified job) fun _ => rfl) :=
      (Db.insertJobIgnore_writes hwf (.inl hslot)).trans
        (Db.updateJobs_writes fun j _ _ => Job.lawful_keep rfl)
    cases r.reopenCompleted with
    | false => exact hupdated
    | true =>
      refine hupdated.trans (Db.updateJobs_writes fun j _ hp => ?_)
      have hs : j.jobId = job.jobId ∧ j.state = .completed := by simpa using hp
      exact Job.lawful_requeued (.inr rfl) (by simp [hs.2]) _ _

/-- What a claim can do: nothing, repair expired leases, or lease the job it
    selects among the repaired ones. -/
theorem claimJob_cases (r : ClaimRequest) (db : Db) :
    ((claimJob r db).2 = db ∧ ∀ job, (claimJob r db).1 ≠ .ok (some job)) ∨
      claimJob r db = (.ok none, db.repairExpiredLeases r.now) ∨
      ∃ tasks lanes row, r.select tasks lanes (db.repairExpiredLeases r.now) = some row ∧
        claimJob r db =
          (.ok (((r.leaseJob row.jobId (db.repairExpiredLeases r.now)).jobs.find? row.jobId).map
            jobFromRow), r.leaseJob row.jobId (db.repairExpiredLeases r.now)) := by
  unfold claimJob
  split
  · exact .inl ⟨rfl, by simp⟩
  · exact .inl ⟨rfl, by simp⟩
  · next tasks lanes _ _ =>
    dsimp only
    split
    · exact .inr (.inl rfl)
    · next row hrow =>
      split
      · exact .inl ⟨rfl, by simp⟩
      · exact .inr (.inr ⟨tasks, lanes, row, hrow, rfl⟩)

theorem repairExpiredLeases_writes (r : ClaimRequest) (db : Db) :
    db.Writes r.claims (db.repairExpiredLeases r.now) :=
  Db.updateJobs_writes fun _ _ hp => Job.lawful_repaired (.inr rfl) hp

theorem leaseJob_writes (r : ClaimRequest) (id : String) (db : Db) :
    db.Writes r.claims (r.leaseJob id db) := by
  have hleased : db.Writes r.claims
      (db.updateJobs (fun j => j.jobId = id && j.waiting) r.lease fun _ => rfl) := by
    refine Db.updateJobs_writes fun j _ hp => ?_
    have hp : j.jobId = id ∧ j.waiting = true := by simpa using hp
    exact Job.lawful_lease (fun e => .inl ⟨e, rfl⟩) hp.2
  exact hleased.trans (Db.closeOverrides_writes _ _)

theorem claimJob_writes (r : ClaimRequest) (db : Db) : db.Writes r.claims (claimJob r db).2 := by
  obtain ⟨h, -⟩ | h | ⟨tasks, lanes, row, -, h⟩ := claimJob_cases r db
  · rw [h]; exact .refl _
  · rw [h]; exact repairExpiredLeases_writes r db
  · rw [h]; exact (repairExpiredLeases_writes r db).trans (leaseJob_writes r _ _)

theorem transitionLeasedJob_writes {id w : String} {state : JobState} {availableAt clock : ℤ}
    {error : Option String} {completedAt : Option ℤ} (db : Db) (hs : state ≠ .leased)
    (hc : completedAt.isSome = true ↔ state.closed) :
    db.Writes (settles w)
      (transitionLeasedJob id w state availableAt error completedAt clock db).2 := by
  unfold transitionLeasedJob
  split
  · exact Db.updateJobs_writes fun j _ hp => Job.lawful_settled hp hs hc
  · exact .refl _

theorem deferJobForMaintenance_writes (id w : String) (availableAt : ℤ) (reason : String)
    (clock : ℤ) (db : Db) :
    db.Writes (settles w) (deferJobForMaintenance id w availableAt reason clock db).2 := by
  unfold deferJobForMaintenance
  split
  · exact Db.updateJobs_writes fun j _ hp => Job.lawful_deferred hp
  · exact .refl _

theorem Db.upsertJob_writes {p : Job → Bool} {f : Job → Job} {hf : ∀ j, (f j).jobId = j.jobId}
    (h : db.upsertJob j p f hf = .ok db') (hrow : ∀ j', Job.Lawful A j' (f j')) (hj : j.WF)
    (hs : j.slot = .closed) (hA : A .shut) : db.Writes A db' := by
  obtain ⟨-, e⟩ | e | ⟨-, e⟩ := db.upsertJob_cases j p f hf
  all_goals rw [h] at e
  · rw [Except.ok.inj e]; exact updateJobs_writes fun j' _ _ => hrow j'
  · cases e
  · rw [Except.ok.inj e]; exact insertJobIgnore_writes hj (.inr ⟨hs, hA⟩)

theorem recordAnnotationCompletion_writes (source item : String) (revision : ℤ)
    (promptVersion : String) (completedAt : ℤ) (provenance : Option WorkProvenance) (db : Db) :
    db.Writes administers
      (recordAnnotationCompletion P source item revision promptVersion completedAt provenance db).2 := by
  unfold recordAnnotationCompletion
  dsimp only
  split
  · exact .refl _
  · split
    · exact .refl _
    · split
      · exact .refl _
      · next hdb' =>
        exact Db.upsertJob_writes hdb' (fun j' => Job.lawful_completedAs (.inl rfl) rfl)
          (Job.wf_unleased (by simp [completionJob]) rfl rfl
            (by simp [completionJob, JobState.closed]) le_rfl)
          (Job.slot_closed (Or.inl rfl)) (.inl rfl)

/-- Moving a job's availability leaves its lease. -/
theorem OverrideRequest.moved_writes (r : OverrideRequest) (o : RetryOverride) (db : Db) :
    db.Writes A (r.moved o db) := by
  unfold moved
  split
  · exact (Db.closeOverrides_writes _ _).trans
      (Db.updateJobs_writes fun j _ _ => Job.lawful_keep rfl)
  · exact .refl _

theorem Db.foldl_core {ι : Type} (f : Db → ι → Db) (h : ∀ db i, (f db i).core = db.core)
    (is : List ι) (db : Db) : (is.foldl f db).core = db.core := by
  induction is generalizing db with
  | nil => rfl
  | cons i is ih => exact (ih _).trans (h db i)

/-- The jobs that a recovery requeues are not leased. -/
theorem Db.recoverable_not_leased {taskType : TaskType} {promptVersion : String}
    (h : db.recoverable taskType promptVersion j = true) : j.state ≠ .leased := by
  simp only [recoverable, Job.waiting, Bool.and_eq_true, Bool.or_eq_true, decide_eq_true_eq] at h
  rcases h.1.1.2 with h | h | h <;> simp [h]

theorem Db.requeue_recoverable_writes (taskType : TaskType) (promptVersion : String)
    (pending : Job → Bool) (now : ℤ) (db : Db) :
    db.Writes administers (db.updateJobs
      (fun j => db.recoverable taskType promptVersion j && pending j) (·.requeued now none)
      fun _ => rfl) :=
  updateJobs_writes fun _ _ hp =>
    Job.lawful_requeued (.inr rfl) (recoverable_not_leased (Bool.and_eq_true _ _ ▸ hp).1) _ _

theorem authorizeRepairableAnnotationFailures_writes (task : FailureTask)
    (promptVersion recoveryVersion : String) (now : ℤ) (db : Db) :
    db.Writes administers
      (authorizeRepairableAnnotationFailures task promptVersion recoveryVersion now db).2 :=
  (Db.writes_of_core_eq (Db.foldl_core (Db.insertFailureRecovery recoveryVersion now)
    (fun _ _ => rfl) _ db)).trans (Db.requeue_recoverable_writes _ _ _ _ _)

theorem authorizeRepairableImpactFailures_writes (promptVersion recoveryVersion : String) (now : ℤ)
    (db : Db) : db.Writes administers
      (authorizeRepairableImpactFailures promptVersion recoveryVersion now db).2 :=
  (Db.writes_of_core_eq (Db.foldl_core (Db.insertImpactFailureRecovery recoveryVersion now)
    (fun _ _ => rfl) _ db)).trans (Db.requeue_recoverable_writes _ _ _ _ _)

theorem reopenProtectedAnnotationJobs_writes (records : List (String × String × ℤ))
    (promptVersion : String) (now : ℤ) (db : Db) :
    db.Writes administers (reopenProtectedAnnotationJobs P records promptVersion now db).2 := by
  refine Db.writes_foldl (fun x : ℕ × Db => x.2) _ (fun x id => ?_) _ (0, db)
  refine Db.updateJobs_writes fun j _ hp => ?_
  simp only [Bool.and_eq_true, decide_eq_true_eq] at hp
  exact Job.lawful_requeued (.inr rfl) (by simp [hp.1.2]) _ _

theorem skipProhibitedContent_writes (contentHash : String) (now : ℤ) (db : Db) :
    db.Writes administers (skipProhibitedContent contentHash now db).2 := by
  have hmarked : db.Writes administers (db.markProhibited contentHash) := Db.writes_of_core_eq rfl
  have hretired : (db.markProhibited contentHash).Writes administers
      ((db.markProhibited contentHash).retireProhibited contentHash now) :=
    Db.updateJobs_writes fun j _ _ => Job.lawful_retired (.inl rfl) _ _
  exact (hmarked.trans hretired).trans (Db.closeOverrides_writes _ _)

theorem Db.laneJob_writes {activatedAt now : ℤ} {promptVersion : String} {row : Job}
    (h : db.laneJob activatedAt promptVersion now row = .ok db') : db.Writes administers db' := by
  simp only [laneJob, bind, pure, Except.pure, Outcome.bind_eq_ok, Except.ok.injEq] at h
  obtain ⟨_, _, rfl⟩ := h
  exact updateJobs_writes fun j _ _ => Job.lawful_laned (.inl rfl) _ _ _

theorem Db.lanePage_writes {m : WorkLaneMigration} {activatedAt now : ℤ}
    (h : db.lanePage m activatedAt now = .ok db') : db.Writes administers db' := by
  simp only [lanePage, bind, pure, Except.pure, Outcome.bind_eq_ok, Except.ok.injEq] at h
  obtain ⟨laned, hlaned, rfl⟩ := h
  exact (writes_foldlM id _ (fun _ _ _ h => laneJob_writes h) _ _ _ hlaned).trans
    (writes_of_core_eq rfl)

theorem installAnnotationContractLanes_writes (promptVersion : String) (now : ℤ) (db : Db) :
    db.Writes administers (installAnnotationContractLanes promptVersion now db).2 := by
  have hstarted : db.Writes administers
      (db.startLaneMigration promptVersion (db.laneActivatedAt promptVersion now) now) :=
    Db.writes_of_core_eq rfl
  unfold installAnnotationContractLanes
  dsimp only
  split
  · exact hstarted
  · split
    · exact hstarted
    · split
      · exact hstarted
      · next h => exact hstarted.trans (Db.lanePage_writes h)

theorem Db.resolveJob_writes {currentPromptVersion : String} {parentsComplete : Bool} {now : ℤ}
    {acc acc' : ProvenanceCounts × Db} {row : Job}
    (h : resolveJob currentPromptVersion parentsComplete now acc row = .ok acc') :
    acc.2.Writes administers acc'.2 := by
  obtain ⟨counts, db⟩ := acc
  simp only [resolveJob, bind, pure, Except.pure] at h
  split at h
  · rw [← Except.ok.inj h]; exact .refl _
  · obtain ⟨provenance, -, h⟩ := Outcome.bind_eq_ok.1 h
    cases provenance with
    | none =>
      dsimp only at h
      split at h
      · rw [← Except.ok.inj h]; exact .refl _
      · rw [← Except.ok.inj h]
        exact updateJobs_writes fun j _ _ => Job.lawful_keep rfl
    | some provenance =>
      rw [← Except.ok.inj h]
      exact updateJobs_writes fun j _ _ => Job.lawful_keep rfl

theorem Db.provenancePage_writes {m : ProvenanceMigration} {currentPromptVersion : String} {now : ℤ}
    {counts : ProvenanceCounts}
    (h : db.provenancePage m currentPromptVersion now = .ok (counts, db')) :
    db.Writes administers db' := by
  simp only [provenancePage, bind, pure, Except.pure, Outcome.bind_eq_ok, Except.ok.injEq,
    Prod.mk.injEq] at h
  obtain ⟨acc, hacc, -, rfl⟩ := h
  exact (writes_foldlM (fun acc : ProvenanceCounts × Db => acc.2) _
    (fun _ _ _ h => resolveJob_writes h) _ _ _ hacc).trans (writes_of_core_eq rfl)

theorem installDownstreamWorkProvenance_writes (currentPromptVersion : String) (now : ℤ)
    (db : Db) :
    db.Writes administers (installDownstreamWorkProvenance currentPromptVersion now db).2 := by
  have hstarted : db.Writes administers (db.startProvenanceMigration now) :=
    Db.writes_of_core_eq rfl
  unfold installDownstreamWorkProvenance
  dsimp only
  split
  · exact hstarted
  · split
    · exact hstarted
    · split
      · exact hstarted
      · next h => exact hstarted.trans (Db.provenancePage_writes h)

theorem Db.fullPass_writes (forwardEpoch : ℤ) (protectedDays : List String) (now : ℤ) (db : Db) :
    db.Writes administers (db.fullPass P forwardEpoch protectedDays now).2 :=
  (updateJobs_writes fun _ _ _ => Job.lawful_reconciled (.inl rfl) _).trans
    (updateJobs_writes fun _ _ _ => Job.lawful_retired (.inl rfl) _ _)

/-- A reconciliation does nothing, or the full pass, or the full pass and then
    publishes its key. -/
theorem reconcileCompletedJobs_cases (r : ReconcileRequest) (db : Db) :
    (reconcileCompletedJobs P r db).2 = db ∨ ∃ epoch, db.metadata.forwardEpoch = some epoch ∧
      ((reconcileCompletedJobs P r db).2 = (db.fullPass P epoch r.protectedDays r.now).2 ∨
        (reconcileCompletedJobs P r db).2 =
          (db.fullPass P epoch r.protectedDays r.now).2.publishReconciliation P epoch
            r.protectedDays r.now r.cacheWritable) := by
  unfold reconcileCompletedJobs
  split
  · exact .inl rfl
  · next epoch hepoch =>
    split
    · exact .inl rfl
    · dsimp only
      split
      · exact .inr ⟨epoch, hepoch, .inr rfl⟩
      · exact .inr ⟨epoch, hepoch, .inl rfl⟩

/-- The moves of a call on the job queue. -/
def JobCall.Allows : JobCall → Label → Prop
  | .claim r => r.claims
  | .complete _ w _ _ | .release _ w _ _ _ | .backoff _ w _ _ _ _
  | .deferForMaintenance _ w _ _ _ => settles w
  | _ => administers

/-- A call that records no override and publishes no reconciliation. -/
def JobCall.Plain (c : JobCall) : Prop := (∀ r, c ≠ .overrideRetry r) ∧ ∀ r, c ≠ .reconcile r

theorem JobCall.exec_writes {c : JobCall} (hc : c.Plain) (db : Db) :
    db.Writes c.Allows (c.exec P db).2 := by
  cases c with
  | enqueue r => exact enqueueJob_writes P r db
  | enqueueDerived r provenance => exact enqueueJob_writes P _ db
  | claim r => exact claimJob_writes r db
  | complete id w completed clock =>
    exact transitionLeasedJob_writes db (by simp) (by simp [JobState.closed])
  | release id w availableAt error clock =>
    exact transitionLeasedJob_writes db (by simp) (by simp [JobState.closed])
  | backoff id w availableAt error terminal clock =>
    exact transitionLeasedJob_writes db (by cases terminal <;> simp)
      (by cases terminal <;> simp [JobState.closed])
  | deferForMaintenance id w availableAt reason clock =>
    exact deferJobForMaintenance_writes id w availableAt reason clock db
  | recordCompletion => exact recordAnnotationCompletion_writes P _ _ _ _ _ _ db
  | recordAttempt => exact Db.writes_of_core_eq rfl
  | overrideRetry r => exact absurd rfl (hc.1 r)
  | authorizeAnnotations => exact authorizeRepairableAnnotationFailures_writes _ _ _ _ db
  | authorizeImpacts => exact authorizeRepairableImpactFailures_writes _ _ _ db
  | reopenProtected => exact reopenProtectedAnnotationJobs_writes P _ _ _ db
  | skipProhibited => exact skipProhibitedContent_writes _ _ db
  | installLanes => exact installAnnotationContractLanes_writes _ _ db
  | installProvenance => exact installDownstreamWorkProvenance_writes _ _ db
  | reconcile r => exact absurd rfl (hc.2 r)

theorem Db.publishReconciliation_eq (forwardEpoch : ℤ) (protectedDays : List String) (now : ℤ)
    (writable : Bool) (db : Db) :
    ∃ cache, db.publishReconciliation P forwardEpoch protectedDays now writable =
      { db with metadata := { db.metadata with reconciliationCache := cache } } := by
  unfold publishReconciliation
  split
  · exact ⟨_, rfl⟩
  · split <;> exact ⟨_, rfl⟩

/-- Every call on the queue leaves the evidence and the capacity tables. -/
theorem JobCall.exec_frame (c : JobCall) (db : Db) :
    (c.exec P db).2.evidence = db.evidence ∧ (c.exec P db).2.capacity = db.capacity := by
  cases c with
  | overrideRetry r =>
    simp only [exec, replyWith_snd]
    obtain h | ⟨c, row, -, -, -, -, h⟩ := applyRetryScheduleOverride_cases r db
    · rw [h]; exact ⟨rfl, rfl⟩
    · rw [(Db.insertOverride_ok h).2]
      exact (r.moved_writes (A := fun _ => True) _ db).frame
  | reconcile r =>
    simp only [exec, replyWith_snd]
    obtain h | ⟨epoch, -, h | h⟩ := reconcileCompletedJobs_cases P r db
    · rw [h]; exact ⟨rfl, rfl⟩
    · rw [h]; exact (Db.fullPass_writes P _ _ _ db).frame
    · obtain ⟨cache, hcache⟩ := Db.publishReconciliation_eq P epoch r.protectedDays r.now
        r.cacheWritable (db.fullPass P epoch r.protectedDays r.now).2
      rw [h, hcache]
      exact (Db.fullPass_writes P epoch r.protectedDays r.now db).frame
  | _ => exact (exec_writes P ⟨by simp, by simp⟩ db).frame

end

end Xauusd.Scheduler
