/-
  What a call leaves as it is.

  * `Db.Keeps`: jobs stay, and so do backfills;
  * `Db.Continues`: moreover attempt numbers and recorded attempts stay, and no
    lease is taken;
  * `exec_continues`: every call that only the rest of the program makes;
  * `exec_keeps`: every call.
-/
import Xauusd.Scheduler.Lane
import Xauusd.Scheduler.LeaseSafety

namespace Xauusd.Scheduler

variable {db db' db'' : Db} {j : Job}

/-! ## Two relations -/

/-- Jobs and backfills stay, and a new backfill has not begun. -/
structure Db.Keeps (db db' : Db) : Prop where
  rows : ∀ j ∈ db.jobs, ∃ j' ∈ db'.jobs, j'.jobId = j.jobId ∧ j'.identity = j.identity
  backfills : ∀ b ∈ db.contractBackfills, b ∈ db'.contractBackfills
  started : ∀ b ∈ db'.contractBackfills, b ∈ db.contractBackfills ∨ b.cursor = none ∧ b.state = .active

/-- Attempt numbers and recorded attempts stay as well, and no lease is taken. -/
structure Db.Continues (db db' : Db) : Prop extends Db.Keeps db db' where
  attempts : db'.attempts = db.attempts
  counts : ∀ j ∈ db.jobs, ∃ j' ∈ db'.jobs, j'.jobId = j.jobId ∧ j'.attemptCount = j.attemptCount
  leases : ∀ j' ∈ db'.jobs, j'.state = .leased →
    ∃ j ∈ db.jobs, j.jobId = j'.jobId ∧ j.state = .leased ∧ j.leaseOwner = j'.leaseOwner

theorem Db.keeps_of_eq (hjobs : db'.jobs = db.jobs)
    (hbackfills : db'.contractBackfills = db.contractBackfills) : db.Keeps db' where
  rows j hj := ⟨j, hjobs ▸ hj, rfl, rfl⟩
  backfills _ hb := hbackfills ▸ hb
  started _ hb := .inl (hbackfills ▸ hb)

theorem Db.Keeps.refl (db : Db) : db.Keeps db := keeps_of_eq rfl rfl

theorem Db.Keeps.trans (h : db.Keeps db') (h' : db'.Keeps db'') : db.Keeps db'' where
  rows j hj := by
    obtain ⟨j', hj', hid, hident⟩ := h.rows j hj
    obtain ⟨j'', hj'', hid', hident'⟩ := h'.rows j' hj'
    exact ⟨j'', hj'', hid'.trans hid, hident'.trans hident⟩
  backfills b hb := h'.backfills b (h.backfills b hb)
  started b hb := by
    rcases h'.started b hb with hb | hb
    · exact h.started b hb
    · exact .inr hb

theorem Db.continues_of_eq (hjobs : db'.jobs = db.jobs) (ha : db'.attempts = db.attempts)
    (hbackfills : db'.contractBackfills = db.contractBackfills) : db.Continues db' where
  toKeeps := keeps_of_eq hjobs hbackfills
  attempts := ha
  counts j hj := ⟨j, hjobs ▸ hj, rfl, rfl⟩
  leases j hj hs := ⟨j, hjobs ▸ hj, rfl, hs, rfl⟩

theorem Db.Continues.refl (db : Db) : db.Continues db := continues_of_eq rfl rfl rfl

theorem Db.Continues.trans (h : db.Continues db') (h' : db'.Continues db'') :
    db.Continues db'' where
  toKeeps := h.toKeeps.trans h'.toKeeps
  attempts := h'.attempts.trans h.attempts
  counts j hj := by
    obtain ⟨j', hj', hid, hcount⟩ := h.counts j hj
    obtain ⟨j'', hj'', hid', hcount'⟩ := h'.counts j' hj'
    exact ⟨j'', hj'', hid'.trans hid, hcount'.trans hcount⟩
  leases j'' hj'' hs'' := by
    obtain ⟨j', hj', hid', hs', ho'⟩ := h'.leases j'' hj'' hs''
    obtain ⟨j, hj, hid, hs, ho⟩ := h.leases j' hj' hs'
    exact ⟨j, hj, hid.trans hid', hs, ho.trans ho'⟩

/-! ## Statements -/

/-- A write that takes no lease: the row gives one up, or keeps its own. -/
def Job.TakesNone (j j' : Job) : Prop :=
  j'.identity = j.identity ∧ j'.attemptCount = j.attemptCount ∧
    (j'.state ≠ .leased ∨ j'.state = j.state ∧ j'.leaseOwner = j.leaseOwner)

theorem Job.requeued_takesNone (now : ℤ) (error : Option String) : j.TakesNone (j.requeued now error) :=
  ⟨rfl, rfl, .inl (by simp [requeued])⟩

theorem Job.retired_takesNone (error : String) (now : ℤ) : j.TakesNone (j.retired error now) :=
  ⟨rfl, rfl, .inl (by simp [retired])⟩

theorem Job.reconciled_takesNone (now : ℤ) : j.TakesNone (j.reconciled now) :=
  ⟨rfl, rfl, .inl (by simp [reconciled])⟩

theorem Job.laned_takesNone (historical retired : Bool) (now : ℤ) :
    j.TakesNone (j.laned historical retired now) := by
  cases retired with
  | true => exact ⟨rfl, rfl, .inl (by simp [laned])⟩
  | false => exact ⟨rfl, rfl, .inr ⟨rfl, rfl⟩⟩

theorem Db.updateJobs_keeps {p : Job → Bool} {f : Job → Job} {hf : ∀ j, (f j).jobId = j.jobId}
    (h : ∀ j ∈ db.jobs, p j = true → (f j).identity = j.identity) :
    db.Keeps (db.updateJobs p f hf) where
  rows j hj := by
    refine ⟨_, (Table.mem_update hf).2 ⟨j, hj, rfl⟩, ?_⟩
    by_cases hp : p j
    · rw [if_pos hp]
      exact ⟨hf j, h j hj hp⟩
    · rw [if_neg hp]
      exact ⟨rfl, rfl⟩
  backfills _ hb := hb
  started _ hb := .inl hb

theorem Db.updateJobs_continues {p : Job → Bool} {f : Job → Job}
    {hf : ∀ j, (f j).jobId = j.jobId} (h : ∀ j ∈ db.jobs, p j = true → j.TakesNone (f j)) :
    db.Continues (db.updateJobs p f hf) where
  toKeeps := updateJobs_keeps fun j hj hp => (h j hj hp).1
  attempts := rfl
  counts j hj := by
    refine ⟨_, (Table.mem_update hf).2 ⟨j, hj, rfl⟩, ?_⟩
    by_cases hp : p j
    · rw [if_pos hp]
      exact ⟨hf j, (h j hj hp).2.1⟩
    · rw [if_neg hp]
      exact ⟨rfl, rfl⟩
  leases j' hj' hs := by
    obtain ⟨j, hj, rfl⟩ := (Table.mem_update hf).1 hj'
    by_cases hp : p j
    · rw [if_pos hp] at hs ⊢
      obtain ⟨hstate, howner⟩ := (h j hj hp).2.2.resolve_left (not_not.2 hs)
      exact ⟨j, hj, (hf j).symm, hstate ▸ hs, howner.symm⟩
    · rw [if_neg hp] at hs ⊢
      exact ⟨j, hj, rfl, hs, rfl⟩

theorem Db.insertJobIgnore_continues (hs : j.state ≠ .leased) :
    db.Continues (db.insertJobIgnore j) where
  rows j' hj' := ⟨j', Table.mem_insertIgnore_of_mem hj', rfl, rfl⟩
  backfills _ hb := hb
  started _ hb := .inl hb
  attempts := rfl
  counts j' hj' := ⟨j', Table.mem_insertIgnore_of_mem hj', rfl, rfl⟩
  leases j' hj' hs' := by
    obtain ⟨e, -⟩ | ⟨-, e⟩ := db.jobs.insertIgnore_cases j fun j' => j'.identity = j.identity
    · exact ⟨j', e ▸ hj', rfl, hs', rfl⟩
    · have hj' : j' ∈ db.jobs.rows ++ [j] := e ▸ hj'
      rcases List.mem_append.1 hj' with hj' | hj'
      · exact ⟨j', hj', rfl, hs', rfl⟩
      · rw [List.mem_singleton.1 hj'] at hs'
        exact absurd hs' hs

theorem Db.foldl_continues {ι : Type} (f : Db → ι → Db)
    (h : ∀ db i, (f db i).jobs = db.jobs ∧ (f db i).attempts = db.attempts ∧
      (f db i).contractBackfills = db.contractBackfills) (is : List ι) (db : Db) :
    db.Continues (is.foldl f db) :=
  Machine.foldl_related Db.Continues.refl Db.Continues.trans id f is
    (fun db i _ => continues_of_eq (h db i).1 (h db i).2.1 (h db i).2.2) db

/-! ## Calls -/

variable (P : Platform)

theorem enqueueJob_continues (r : EnqueueRequest) (db : Db) :
    db.Continues (enqueueJob P r db).2 := by
  unfold enqueueJob
  split
  · exact .refl db
  · next job hjob =>
    have hcolumns := EnqueueRequest.job_queued P hjob
    have hinserted : db.Continues (db.insertJobIgnore job) :=
      Db.insertJobIgnore_continues (by
        simp only [Job.leaseColumns, Prod.mk.injEq] at hcolumns
        simp [hcolumns.1])
    have hupdated : db.Continues ((db.insertJobIgnore job).updateJobs
        (fun j => j.jobId = job.jobId && j.waiting) (·.reclassified job) fun _ => rfl) :=
      hinserted.trans (Db.updateJobs_continues fun _ _ _ => ⟨rfl, rfl, .inr ⟨rfl, rfl⟩⟩)
    dsimp only
    split
    · exact hupdated.trans
        (Db.updateJobs_continues fun _ _ _ => Job.requeued_takesNone _ _)
    · exact hupdated

theorem recordAnnotationCompletion_continues (source item : String) (revision : ℤ)
    (promptVersion : String) (completedAt : ℤ) (provenance : Option WorkProvenance) (db : Db) :
    db.Continues (recordAnnotationCompletion P source item revision promptVersion completedAt
      provenance db).2 := by
  unfold recordAnnotationCompletion
  dsimp only
  split
  · exact .refl db
  · split
    · exact .refl db
    · next resolved _ =>
      split
      · exact .refl db
      · next h =>
        obtain ⟨-, hupsert⟩ | hupsert | ⟨-, hupsert⟩ := Db.upsertJob_cases db
          (completionJob source item revision promptVersion completedAt
            (jobIdOf P TaskType.activeAnnotation source item revision "" promptVersion) resolved)
          (fun j => j.state ≠ .leased) (·.completedAs (completionJob source item revision promptVersion
            completedAt (jobIdOf P TaskType.activeAnnotation source item revision "" promptVersion)
              resolved)) fun _ => rfl
        all_goals rw [hupsert] at h
        · rw [← Except.ok.inj h]
          exact Db.updateJobs_continues fun _ _ _ => ⟨rfl, rfl, .inl (by simp [Job.completedAs])⟩
        · cases h
        · rw [← Except.ok.inj h]
          exact Db.insertJobIgnore_continues (by simp [completionJob])

theorem OverrideRequest.moved_continues (r : OverrideRequest) (o : RetryOverride) (db : Db) :
    db.Continues (r.moved o db) := by
  unfold moved
  split
  · have hclosed : db.Continues (db.deactivateOverrides r.jobId) := Db.continues_of_eq rfl rfl rfl
    exact hclosed.trans (Db.updateJobs_continues fun _ _ _ => ⟨rfl, rfl, .inr ⟨rfl, rfl⟩⟩)
  · exact .refl db

theorem applyRetryScheduleOverride_continues (r : OverrideRequest) (db : Db) :
    db.Continues (applyRetryScheduleOverride r db).2 := by
  obtain h | ⟨checked, row, -, -, -, -, h⟩ := applyRetryScheduleOverride_cases r db
  · rw [h]; exact .refl db
  · rw [(Db.insertOverride_ok h).2]
    exact (r.moved_continues _ db).trans (Db.continues_of_eq rfl rfl rfl)

theorem authorizeRepairableAnnotationFailures_continues (task : FailureTask)
    (promptVersion recoveryVersion : String) (now : ℤ) (db : Db) : db.Continues
      (authorizeRepairableAnnotationFailures task promptVersion recoveryVersion now db).2 :=
  (Db.foldl_continues (Db.insertFailureRecovery recoveryVersion now) (fun _ _ => ⟨rfl, rfl, rfl⟩) _
    db).trans (Db.updateJobs_continues fun _ _ _ => Job.requeued_takesNone _ _)

theorem authorizeRepairableImpactFailures_continues (promptVersion recoveryVersion : String)
    (now : ℤ) (db : Db) : db.Continues
      (authorizeRepairableImpactFailures promptVersion recoveryVersion now db).2 :=
  (Db.foldl_continues (Db.insertImpactFailureRecovery recoveryVersion now)
    (fun _ _ => ⟨rfl, rfl, rfl⟩) _ db).trans
    (Db.updateJobs_continues fun _ _ _ => Job.requeued_takesNone _ _)

theorem reopenProtectedAnnotationJobs_continues (records : List (String × String × ℤ))
    (promptVersion : String) (now : ℤ) (db : Db) :
    db.Continues (reopenProtectedAnnotationJobs P records promptVersion now db).2 :=
  Machine.foldl_related Db.Continues.refl Db.Continues.trans (fun x : ℕ × Db => x.2) _ _
    (fun _ _ _ => Db.updateJobs_continues fun _ _ _ => Job.requeued_takesNone _ _)
    (0, db)

theorem skipProhibitedContent_continues (contentHash : String) (now : ℤ) (db : Db) :
    db.Continues (skipProhibitedContent contentHash now db).2 := by
  have hmarked : db.Continues (db.markProhibited contentHash) := Db.continues_of_eq rfl rfl rfl
  have hretired : (db.markProhibited contentHash).Continues
      ((db.markProhibited contentHash).retireProhibited contentHash now) :=
    Db.updateJobs_continues fun _ _ _ => Job.retired_takesNone _ _
  exact (hmarked.trans hretired).trans (Db.continues_of_eq rfl rfl rfl)

theorem Db.laneJob_continues {activatedAt now : ℤ} {promptVersion : String} {row : Job}
    (h : db.laneJob activatedAt promptVersion now row = .ok db') : db.Continues db' := by
  simp only [laneJob, bind, pure, Except.pure, Outcome.bind_eq_ok, Except.ok.injEq] at h
  obtain ⟨_, -, rfl⟩ := h
  exact updateJobs_continues fun _ _ _ => Job.laned_takesNone _ _ _

theorem Db.startLaneMigration_continues (db : Db) (promptVersion : String) (activatedAt now : ℤ) :
    db.Continues (db.startLaneMigration promptVersion activatedAt now) where
  rows j hj := ⟨j, hj, rfl, rfl⟩
  backfills b hb := Table.mem_insertIgnore_of_mem hb
  started b hb := by
    obtain ⟨e, -⟩ | ⟨-, e⟩ := db.contractBackfills.insertIgnore_cases
      ⟨promptVersion, activatedAt, none, .active, now⟩ fun _ => false
    · exact .inl (e ▸ hb)
    · change b ∈ (db.contractBackfills.insertIgnore _ _).rows at hb
      rw [e] at hb
      rcases List.mem_append.1 hb with hb | hb
      · exact .inl hb
      · obtain rfl := List.mem_singleton.1 hb
        exact .inr ⟨rfl, rfl⟩
  attempts := rfl
  counts j hj := ⟨j, hj, rfl, rfl⟩
  leases j hj hs := ⟨j, hj, rfl, hs, rfl⟩

theorem installAnnotationContractLanes_continues (promptVersion : String) (now : ℤ) (db : Db) :
    db.Continues (installAnnotationContractLanes promptVersion now db).2 := by
  have hstarted := db.startLaneMigration_continues promptVersion
    (db.laneActivatedAt promptVersion now) now
  unfold installAnnotationContractLanes
  dsimp only
  split
  · exact hstarted
  · split
    · exact hstarted
    · split
      · exact hstarted
      · next hpage =>
        simp only [Db.lanePage, bind, pure, Except.pure, Outcome.bind_eq_ok, Except.ok.injEq] at hpage
        obtain ⟨laned, hlaned, rfl⟩ := hpage
        have hfold := Machine.foldlM_related Db.Continues.refl Db.Continues.trans id _ _
          (fun _ _ _ _ h => Db.laneJob_continues h) _ _ hlaned
        exact (hstarted.trans hfold).trans (Db.continues_of_eq rfl rfl rfl)

theorem Db.resolveJob_continues {currentPromptVersion : String} {parentsComplete : Bool} {now : ℤ}
    {acc acc' : ProvenanceCounts × Db} {row : Job}
    (h : resolveJob currentPromptVersion parentsComplete now acc row = .ok acc') :
    acc.2.Continues acc'.2 := by
  obtain ⟨counts, db⟩ := acc
  simp only [resolveJob, bind, pure, Except.pure] at h
  split at h
  · rw [← Except.ok.inj h]; exact .refl db
  · obtain ⟨provenance, -, h⟩ := Outcome.bind_eq_ok.1 h
    cases provenance with
    | none =>
      dsimp only at h
      split at h
      · rw [← Except.ok.inj h]; exact .refl db
      · rw [← Except.ok.inj h]
        exact updateJobs_continues fun _ _ _ => ⟨rfl, rfl, .inr ⟨rfl, rfl⟩⟩
    | some provenance =>
      rw [← Except.ok.inj h]
      exact updateJobs_continues fun _ _ _ => ⟨rfl, rfl, .inr ⟨rfl, rfl⟩⟩

theorem installDownstreamWorkProvenance_continues (currentPromptVersion : String) (now : ℤ)
    (db : Db) : db.Continues (installDownstreamWorkProvenance currentPromptVersion now db).2 := by
  have hstarted : db.Continues (db.startProvenanceMigration now) :=
    Db.continues_of_eq rfl rfl rfl
  unfold installDownstreamWorkProvenance
  dsimp only
  split
  · exact hstarted
  · split
    · exact hstarted
    · split
      · exact hstarted
      · next hpage =>
        simp only [Db.provenancePage, bind, pure, Except.pure, Outcome.bind_eq_ok, Except.ok.injEq,
          Prod.mk.injEq] at hpage
        obtain ⟨acc, hacc, -, rfl⟩ := hpage
        have hfold := Machine.foldlM_related Db.Continues.refl Db.Continues.trans
          (fun acc : ProvenanceCounts × Db => acc.2) _ _
          (fun _ _ _ _ h => Db.resolveJob_continues h) _ _ hacc
        exact (hstarted.trans hfold).trans (Db.continues_of_eq rfl rfl rfl)

theorem reconcileCompletedJobs_continues (r : ReconcileRequest) (db : Db) :
    db.Continues (reconcileCompletedJobs P r db).2 := by
  have hpass (epoch : ℤ) : db.Continues (db.fullPass P epoch r.protectedDays r.now).2 :=
    (Db.updateJobs_continues fun _ _ _ => Job.reconciled_takesNone _).trans
      (Db.updateJobs_continues fun _ _ _ => Job.retired_takesNone _ _)
  obtain hr | ⟨epoch, -, hr | hr⟩ := reconcileCompletedJobs_cases P r db
  · rw [hr]; exact .refl db
  · rw [hr]; exact hpass epoch
  · obtain ⟨cache, hcache⟩ := Db.publishReconciliation_eq P epoch r.protectedDays r.now
      r.cacheWritable (db.fullPass P epoch r.protectedDays r.now).2
    rw [hr, hcache]
    exact (hpass epoch).trans (Db.continues_of_eq rfl rfl rfl)

theorem transitionLeasedJob_continues (id w : String) {state : JobState} (hs : state ≠ .leased)
    (availableAt : ℤ) (error : Option String) (completedAt : Option ℤ) (clock : ℤ) (db : Db) :
    db.Continues (transitionLeasedJob id w state availableAt error completedAt clock db).2 := by
  unfold transitionLeasedJob
  split
  · exact Db.updateJobs_continues fun _ _ _ => ⟨rfl, rfl, .inl (by simpa [Job.settled] using hs)⟩
  · exact .refl db

/-- Every call that is not of a lane continues. -/
theorem exec_continues {c : Call} (hc : ¬ c.ofLane) (db : Db) :
    db.Continues (exec P db c).2 := by
  cases c with
  | capacity c => exact Db.continues_of_eq rfl rfl rfl
  | record c =>
    cases c with
    | append row =>
      simp only [exec, RecordCall.exec]
      split <;> exact Db.continues_of_eq rfl rfl rfl
    | startForward | displaceHooks | installHooks => exact Db.continues_of_eq rfl rfl rfl
  | job c =>
    cases c with
    | claim | complete | release | backoff | deferForMaintenance | recordAttempt =>
      exact absurd trivial hc
    | overrideRetry r => exact applyRetryScheduleOverride_continues r db
    | enqueue r => exact enqueueJob_continues P r db
    | enqueueDerived r provenance => exact enqueueJob_continues P _ db
    | recordCompletion source item revision promptVersion completedAt provenance =>
      exact recordAnnotationCompletion_continues P source item revision promptVersion completedAt
        provenance db
    | authorizeAnnotations task promptVersion recoveryVersion now =>
      exact authorizeRepairableAnnotationFailures_continues task promptVersion recoveryVersion now db
    | authorizeImpacts promptVersion recoveryVersion now =>
      exact authorizeRepairableImpactFailures_continues promptVersion recoveryVersion now db
    | reopenProtected records promptVersion now =>
      exact reopenProtectedAnnotationJobs_continues P records promptVersion now db
    | skipProhibited contentHash now => exact skipProhibitedContent_continues contentHash now db
    | installLanes promptVersion now => exact installAnnotationContractLanes_continues _ _ db
    | installProvenance promptVersion now => exact installDownstreamWorkProvenance_continues _ _ db
    | reconcile r => exact reconcileCompletedJobs_continues P r db

theorem claimJob_keeps (r : ClaimRequest) (db : Db) : db.Keeps (claimJob r db).2 := by
  have hrepaired : db.Keeps (db.repairExpiredLeases r.now) := Db.updateJobs_keeps fun _ _ _ => rfl
  obtain ⟨hdb, -⟩ | hclaim | ⟨tasks, lanes, row, -, hclaim⟩ := claimJob_cases r db
  · rw [hdb]; exact .refl db
  · rw [hclaim]; exact hrepaired
  · have hleased : (db.repairExpiredLeases r.now).Keeps
        ((db.repairExpiredLeases r.now).updateJobs
          (fun j => j.jobId = row.jobId && j.waiting) r.lease fun _ => rfl) :=
      Db.updateJobs_keeps fun _ _ _ => rfl
    rw [hclaim]
    exact (hrepaired.trans hleased).trans (Db.keeps_of_eq rfl rfl)

theorem transitionLeasedJob_keeps (id w : String) (state : JobState) (availableAt : ℤ)
    (error : Option String) (completedAt : Option ℤ) (clock : ℤ) (db : Db) :
    db.Keeps (transitionLeasedJob id w state availableAt error completedAt clock db).2 := by
  unfold transitionLeasedJob
  split
  · exact Db.updateJobs_keeps fun _ _ _ => rfl
  · exact .refl db

/-- **Every call keeps the jobs and the backfills.** -/
theorem exec_keeps (c : Call) (db : Db) : db.Keeps (exec P db c).2 := by
  by_cases hc : c.ofLane
  · cases c with
    | capacity c | record c => exact absurd hc id
    | job c =>
      cases c with
      | claim r => exact claimJob_keeps r db
      | complete | release | backoff => exact transitionLeasedJob_keeps _ _ _ _ _ _ _ db
      | deferForMaintenance jobId workerId availableAt reason clock =>
        show db.Keeps (deferJobForMaintenance jobId workerId availableAt reason clock db).2
        unfold deferJobForMaintenance
        split
        · exact Db.updateJobs_keeps fun _ _ _ => rfl
        · exact .refl db
      | recordAttempt => exact Db.keeps_of_eq rfl rfl
      | _ => exact absurd hc id
  · exact (exec_continues P hc db).toKeeps

end Xauusd.Scheduler
