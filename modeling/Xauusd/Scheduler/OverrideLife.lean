/-
  The life of a retry override: from the call that records it until its job is
  claimed, overridden again, or finished.

  Only a claim, a later override and the refusal of content close an override.
  A reconciliation, a recorded completion and the lane migration finish waiting
  jobs without doing so; a call that finishes no overridden job is said to spare
  them (`Call.Spares`).

  * `Db.OverridesSound`: one active override a job, on waiting jobs only;
  * `Db.Respects`: what a call other than an override does to the overrides;
    `exec_respects`: every call that spares the overridden jobs does so;
  * `overrides_end_with_schedule`: along calls that spare them, overrides are
    sound, a finished job is reopened without one, and KEEP_ORIGINAL restores
    the time before the first override of a chain;
  * `reconciled_under_override`: a reconciliation that does not.
-/
import Xauusd.Scheduler.Writes

namespace Xauusd.Scheduler

variable {db db' db'' : Db} {j : Job} {o : RetryOverride}

/-! ## Soundness -/

/-- The job has an active override. -/
def Db.overridden (db : Db) (jobId : String) : Bool :=
  db.overrides.rows.any fun o => o.jobId = jobId && o.active

theorem Db.overridden_iff {jobId : String} :
    db.overridden jobId = true ↔ ∃ o ∈ db.overrides, o.active = true ∧ o.jobId = jobId := by
  simp only [overridden, List.any_eq_true, Bool.and_eq_true, decide_eq_true_eq, Table.mem_rows]
  exact exists_congr fun o => and_congr_right fun _ => and_comm

/-- Active overrides are of waiting jobs, no two of one job. -/
structure Db.OverridesSound (db : Db) : Prop where
  single : ∀ o ∈ db.overrides, ∀ o' ∈ db.overrides, o.active = true → o'.active = true →
    o.jobId = o'.jobId → o = o'
  waiting : ∀ o ∈ db.overrides, o.active = true → ∃ j ∈ db.jobs, j.jobId = o.jobId ∧
    j.waiting = true

theorem Db.OverridesSound.waiting_of_overridden (h : db.OverridesSound) (hj : j ∈ db.jobs)
    (ho : db.overridden j.jobId = true) : j.waiting = true := by
  obtain ⟨o, ho, hactive, hid⟩ := Db.overridden_iff.1 ho
  obtain ⟨j', hj', hid', hwaiting⟩ := h.waiting o ho hactive
  rwa [db.jobs.eq_of_key_eq hj hj' (hid.symm.trans hid'.symm)]

theorem Db.empty_overridesSound : Db.empty.OverridesSound :=
  ⟨fun o ho => absurd ho (Table.not_mem_empty o), fun o ho => absurd ho (Table.not_mem_empty o)⟩

/-! ## Statements -/

/-- Overrides are only closed, and a waiting job whose override stays open
    keeps waiting. -/
structure Db.Respects (db db' : Db) : Prop where
  closes : ∀ o ∈ db'.overrides, o.active = true → o ∈ db.overrides
  waits : ∀ j ∈ db.jobs, j.waiting = true → db'.overridden j.jobId = true →
    ∃ j' ∈ db'.jobs, j'.jobId = j.jobId ∧ j'.waiting = true

theorem Db.Respects.overridden {jobId : String} (h : db.Respects db')
    (ho : db'.overridden jobId = true) : db.overridden jobId = true := by
  obtain ⟨o, ho, hactive, hid⟩ := Db.overridden_iff.1 ho
  exact Db.overridden_iff.2 ⟨o, h.closes o ho hactive, hactive, hid⟩

theorem Db.Respects.sound (h : db.Respects db') (hs : db.OverridesSound) : db'.OverridesSound where
  single o ho o' ho' hactive hactive' hid :=
    hs.single o (h.closes o ho hactive) o' (h.closes o' ho' hactive') hactive hactive' hid
  waiting o ho hactive := by
    obtain ⟨j, hj, hid, hwaiting⟩ := hs.waiting o (h.closes o ho hactive) hactive
    obtain ⟨j', hj', hid', hwaiting'⟩ :=
      h.waits j hj hwaiting (Db.overridden_iff.2 ⟨o, ho, hactive, hid.symm⟩)
    exact ⟨j', hj', hid'.trans hid, hwaiting'⟩

theorem Db.Respects.refl (db : Db) : db.Respects db :=
  ⟨fun _ ho _ => ho, fun j hj hwaiting _ => ⟨j, hj, rfl, hwaiting⟩⟩

theorem Db.Respects.trans (h : db.Respects db') (h' : db'.Respects db'') : db.Respects db'' where
  closes o ho hactive := h.closes o (h'.closes o ho hactive) hactive
  waits j hj hwaiting ho := by
    obtain ⟨j', hj', hid, hwaiting'⟩ := h.waits j hj hwaiting (h'.overridden ho)
    obtain ⟨j'', hj'', hid', hwaiting''⟩ := h'.waits j' hj' hwaiting' (hid ▸ ho)
    exact ⟨j'', hj'', hid'.trans hid, hwaiting''⟩

theorem Db.respects_of_eq (hjobs : db'.jobs = db.jobs) (ho : db'.overrides = db.overrides) :
    db.Respects db' :=
  ⟨fun _ h _ => ho ▸ h, fun j hj hwaiting _ => ⟨j, hjobs ▸ hj, rfl, hwaiting⟩⟩

theorem Db.updateJobs_respects {p : Job → Bool} {f : Job → Job} {hf : ∀ j, (f j).jobId = j.jobId}
    (h : ∀ j ∈ db.jobs, p j = true → j.waiting = true → db.overridden j.jobId = true →
      (f j).waiting = true) : db.Respects (db.updateJobs p f hf) where
  closes _ ho _ := ho
  waits j hj hwaiting ho := by
    refine ⟨_, (Table.mem_update hf).2 ⟨j, hj, rfl⟩, ?_⟩
    by_cases hp : p j
    · rw [if_pos hp]
      exact ⟨hf j, h j hj hp hwaiting ho⟩
    · rw [if_neg hp]
      exact ⟨rfl, hwaiting⟩

theorem Db.insertJobIgnore_respects (j : Job) : db.Respects (db.insertJobIgnore j) where
  closes _ ho _ := ho
  waits j' hj' hwaiting _ := ⟨j', Table.mem_insertIgnore_of_mem hj', rfl, hwaiting⟩

/-- An active override that a closing statement leaves was not hit. -/
theorem Db.active_closeOverrides {p : RetryOverride → Bool}
    (ho : o ∈ (db.closeOverrides p).overrides) (hactive : o.active = true) :
    o ∈ db.overrides ∧ p o = false := by
  obtain ⟨o₀, h₀, rfl⟩ := (Table.mem_update (f := fun o : RetryOverride => { o with active := false }) fun _ => rfl).1 ho
  by_cases hp : p o₀
  · simp [hp] at hactive
  · rw [if_neg hp]
    exact ⟨h₀, by simpa using hp⟩

theorem Db.closeOverrides_respects (p : RetryOverride → Bool) (db : Db) :
    db.Respects (db.closeOverrides p) :=
  ⟨fun _ ho hactive => (active_closeOverrides ho hactive).1,
    fun j hj hwaiting _ => ⟨j, hj, rfl, hwaiting⟩⟩

/-- An update and then the closing of overrides, of all those whose jobs the
    update takes out of waiting. -/
theorem Db.updateJobs_closeOverrides_respects {p : Job → Bool} {f : Job → Job}
    {hf : ∀ j, (f j).jobId = j.jobId} {q : RetryOverride → Bool}
    (h : ∀ j ∈ db.jobs, p j = true → j.waiting = true → ∀ o ∈ db.overrides, o.active = true →
      o.jobId = j.jobId → q o = true ∨ (f j).waiting = true) :
    db.Respects ((db.updateJobs p f hf).closeOverrides q) where
  closes _ ho hactive := (active_closeOverrides ho hactive).1
  waits j hj hwaiting ho := by
    obtain ⟨o, ho, hactive, hid⟩ := overridden_iff.1 ho
    obtain ⟨ho, hq⟩ := active_closeOverrides ho hactive
    refine ⟨_, (Table.mem_update hf).2 ⟨j, hj, rfl⟩, ?_⟩
    by_cases hp : p j
    · rw [if_pos hp]
      exact ⟨hf j, (h j hj hp hwaiting o ho hactive hid).resolve_left (by simp [hq])⟩
    · rw [if_neg hp]
      exact ⟨rfl, hwaiting⟩

/-! ## Calls -/

variable (P : Platform)

/-- The calls that finish waiting jobs without closing overrides spare those
    with an active one. -/
def Call.Spares (db : Db) : Call → Prop
  | .job (.reconcile r) => ∀ epoch, db.metadata.forwardEpoch = some epoch → ∀ j ∈ db.jobs,
      db.overridden j.jobId = true →
        satisfied db.evidence j = false ∧ obsolete P db.evidence epoch r.protectedDays j = false
  | .job (.recordCompletion source item revision promptVersion _ _) =>
    db.overridden (jobIdOf P TaskType.activeAnnotation source item revision "" promptVersion) = false
  | .job (.installLanes promptVersion now) => ∀ j ∈ db.jobs, j.laneClassified = false →
      db.overridden j.jobId = true → ∀ historical retired,
        db.laneOf j (db.laneActivatedAt promptVersion now) promptVersion = .ok (historical, retired) →
          retired = false
  | _ => True

theorem enqueueJob_respects (r : EnqueueRequest) (db : Db) :
    db.Respects (enqueueJob P r db).2 := by
  unfold enqueueJob
  split
  · exact .refl db
  · next job _ =>
    have hinserted := db.insertJobIgnore_respects job
    have hupdated : db.Respects ((db.insertJobIgnore job).updateJobs
        (fun j => j.jobId = job.jobId && j.waiting) (·.reclassified job) fun _ => rfl) :=
      hinserted.trans (Db.updateJobs_respects fun _ _ _ hwaiting _ => hwaiting)
    dsimp only
    split
    · refine hupdated.trans (Db.updateJobs_respects fun j _ _ _ _ => ?_)
      rfl
    · exact hupdated

theorem claimJob_respects (r : ClaimRequest) (db : Db) : db.Respects (claimJob r db).2 := by
  have hrepaired : db.Respects (db.repairExpiredLeases r.now) :=
    Db.updateJobs_respects fun j _ _ _ _ => rfl
  obtain ⟨h, -⟩ | h | ⟨tasks, lanes, row, -, h⟩ := claimJob_cases r db
  · rw [h]; exact .refl db
  · rw [h]; exact hrepaired
  · rw [h]
    refine hrepaired.trans (Db.updateJobs_closeOverrides_respects fun j _ hp _ o _ hactive hid => ?_)
    simp only [Bool.and_eq_true, decide_eq_true_eq] at hp ⊢
    exact .inl ⟨hid.trans hp.1, hactive⟩

/-- A transition is of a job that is not waiting. -/
theorem transitionLeasedJob_respects (id w : String) (state : JobState) (availableAt : ℤ)
    (error : Option String) (completedAt : Option ℤ) (clock : ℤ) (db : Db) :
    db.Respects (transitionLeasedJob id w state availableAt error completedAt clock db).2 := by
  unfold transitionLeasedJob
  split
  · refine Db.updateJobs_respects fun j _ hp hwaiting _ => ?_
    simp only [Job.leasedTo, Bool.and_eq_true, decide_eq_true_eq] at hp
    simp [Job.waiting, hp.1.2] at hwaiting
  · exact .refl db

theorem deferJobForMaintenance_respects (id w : String) (availableAt : ℤ) (reason : String)
    (clock : ℤ) (db : Db) :
    db.Respects (deferJobForMaintenance id w availableAt reason clock db).2 := by
  unfold deferJobForMaintenance
  split
  · exact Db.updateJobs_respects fun j _ _ _ _ => rfl
  · exact .refl db

theorem recordAnnotationCompletion_respects {source item promptVersion : String} {revision : ℤ}
    (completedAt : ℤ) (provenance : Option WorkProvenance)
    (h : db.overridden (jobIdOf P TaskType.activeAnnotation source item revision "" promptVersion) = false) :
    db.Respects (recordAnnotationCompletion P source item revision promptVersion completedAt
      provenance db).2 := by
  unfold recordAnnotationCompletion
  dsimp only
  split
  · exact .refl db
  · split
    · exact .refl db
    · next resolved _ =>
      obtain ⟨-, hupsert⟩ | hupsert | ⟨-, hupsert⟩ := Db.upsertJob_cases db
        (completionJob source item revision promptVersion completedAt
          (jobIdOf P TaskType.activeAnnotation source item revision "" promptVersion) resolved)
        (fun j => j.state ≠ .leased) (·.completedAs (completionJob source item revision promptVersion
          completedAt (jobIdOf P TaskType.activeAnnotation source item revision "" promptVersion) resolved))
        fun _ => rfl
      · rw [hupsert]
        refine Db.updateJobs_respects fun j _ hp _ ho => ?_
        simp only [Bool.and_eq_true, decide_eq_true_eq] at hp
        rw [hp.1] at ho
        exact absurd ho (by simpa [completionJob] using h)
      · rw [hupsert]; exact .refl db
      · rw [hupsert]; exact db.insertJobIgnore_respects _

theorem Db.foldl_tables {ι : Type} (f : Db → ι → Db)
    (h : ∀ db i, (f db i).jobs = db.jobs ∧ (f db i).overrides = db.overrides) (is : List ι) (db : Db) :
    db.Respects (is.foldl f db) :=
  Machine.foldl_related Db.Respects.refl Db.Respects.trans id f is
    (fun db i _ => respects_of_eq (h db i).1 (h db i).2) db

theorem authorizeRepairableAnnotationFailures_respects (task : FailureTask)
    (promptVersion recoveryVersion : String) (now : ℤ) (db : Db) :
    db.Respects (authorizeRepairableAnnotationFailures task promptVersion recoveryVersion now db).2 :=
  (Db.foldl_tables (Db.insertFailureRecovery recoveryVersion now) (fun _ _ => ⟨rfl, rfl⟩) _ db).trans
    (Db.updateJobs_respects fun _ _ _ _ _ => rfl)

theorem authorizeRepairableImpactFailures_respects (promptVersion recoveryVersion : String) (now : ℤ)
    (db : Db) :
    db.Respects (authorizeRepairableImpactFailures promptVersion recoveryVersion now db).2 :=
  (Db.foldl_tables (Db.insertImpactFailureRecovery recoveryVersion now) (fun _ _ => ⟨rfl, rfl⟩) _
    db).trans (Db.updateJobs_respects fun _ _ _ _ _ => rfl)

theorem reopenProtectedAnnotationJobs_respects (records : List (String × String × ℤ))
    (promptVersion : String) (now : ℤ) (db : Db) :
    db.Respects (reopenProtectedAnnotationJobs P records promptVersion now db).2 :=
  Machine.foldl_related Db.Respects.refl Db.Respects.trans (fun x : ℕ × Db => x.2) _ _
    (fun _ _ _ => Db.updateJobs_respects fun _ _ _ _ _ => rfl) (0, db)

/-- Refused content closes the overrides of the jobs it retires. -/
theorem skipProhibitedContent_respects (contentHash : String) (now : ℤ) (db : Db) :
    db.Respects (skipProhibitedContent contentHash now db).2 := by
  have hmarked : db.Respects (db.markProhibited contentHash) := Db.respects_of_eq rfl rfl
  refine hmarked.trans (Db.updateJobs_closeOverrides_respects fun j hj hp _ o _ hactive hid => .inl ?_)
  have hretired : j.retired PROVIDER_PROHIBITED_CONTENT now ∈
      ((db.markProhibited contentHash).retireProhibited contentHash now).jobs :=
    (Table.mem_update (f := (·.retired PROVIDER_PROHIBITED_CONTENT now)) fun _ => rfl).2
      ⟨j, hj, (if_pos hp).symm⟩
  simp only [Bool.and_eq_true, hactive, List.any_eq_true, true_and]
  exact ⟨_, hretired, ⟨decide_eq_true hid.symm, rfl⟩, rfl⟩

/-! ## Migrations -/

theorem Db.mem_jobPage {p : Job → Bool} {cursor : Option (ℤ × String)} {n : ℕ}
    (h : j ∈ db.jobPage p cursor n) : j ∈ db.jobs ∧ p j = true := by
  have := (List.mem_insertionSort _).1 (List.mem_of_mem_take h)
  rw [List.mem_filter, Bool.and_eq_true] at this
  exact ⟨this.1, this.2.1⟩

theorem Db.laneOf_congr (he : db'.evidence = db.evidence)
    (hm : db'.metadata.forwardEpoch = db.metadata.forwardEpoch) (activatedAt : ℤ)
    (promptVersion : String) : db'.laneOf j activatedAt promptVersion =
      db.laneOf j activatedAt promptVersion := by
  simp only [laneOf, contractBackfillHasCurrentValue, he, hm]

/-- What the lane migration reads stays as it is from row to row. -/
structure Db.SameInput (db db' : Db) : Prop where
  evidence : db'.evidence = db.evidence
  forwardEpoch : db'.metadata.forwardEpoch = db.metadata.forwardEpoch
  overrides : db'.overrides = db.overrides

/-- One row, if it is not retired under an override. -/
theorem Db.laneJob_respects {start : Db} {activatedAt now : ℤ} {promptVersion : String} {row : Job}
    (hrow : start.overridden row.jobId = true → ∀ historical retired,
      start.laneOf row activatedAt promptVersion = .ok (historical, retired) → retired = false)
    (hsame : start.SameInput db) (h : db.laneJob activatedAt promptVersion now row = .ok db') :
    db.Respects db' ∧ start.SameInput db' := by
  simp only [laneJob, bind, pure, Except.pure, Outcome.bind_eq_ok, Except.ok.injEq] at h
  obtain ⟨⟨historical, retired⟩, hlane, rfl⟩ := h
  rw [laneOf_congr hsame.evidence hsame.forwardEpoch] at hlane
  refine ⟨updateJobs_respects fun j _ hp hwaiting ho => ?_, hsame.evidence, ?_, hsame.overrides⟩
  · simp only [Bool.and_eq_true, decide_eq_true_eq] at hp
    rw [hp.1, overridden, hsame.overrides] at ho
    obtain rfl := hrow ho _ _ hlane
    exact hwaiting
  · exact (Metadata.bump_forwardEpoch _ _).trans hsame.forwardEpoch

theorem installAnnotationContractLanes_respects {promptVersion : String} {now : ℤ}
    (h : (Call.job (.installLanes promptVersion now)).Spares P db) :
    db.Respects (installAnnotationContractLanes promptVersion now db).2 := by
  have hstarted : db.Respects
      (db.startLaneMigration promptVersion (db.laneActivatedAt promptVersion now) now) :=
    Db.respects_of_eq rfl rfl
  unfold installAnnotationContractLanes
  dsimp only
  split
  · exact hstarted
  · next m hm =>
    split
    · exact hstarted
    · split
      · exact hstarted
      · next hpage =>
        refine hstarted.trans ?_
        obtain rfl : m.promptVersion = promptVersion := (Table.find?_eq_some_iff.1 hm).2
        simp only [Db.lanePage, bind, pure, Except.pure, Outcome.bind_eq_ok, Except.ok.injEq] at hpage
        obtain ⟨laned, hlaned, rfl⟩ := hpage
        have hfold := Machine.foldlM_related
          (R := fun x y : Db => db.SameInput x → x.Respects y ∧ db.SameInput y)
          (fun x hx => ⟨.refl x, hx⟩)
          (fun hxy hyz hx => ⟨(hxy hx).1.trans (hyz (hxy hx).2).1, (hyz (hxy hx).2).2⟩)
          id (Db.laneJob (db.laneActivatedAt m.promptVersion now) m.promptVersion now) _
          (fun x row hrow y hy hx => Db.laneJob_respects (fun ho => ?_) hx hy) _ _ hlaned
        · exact (hfold ⟨rfl, rfl, rfl⟩).1.trans (Db.respects_of_eq rfl rfl)
        · obtain ⟨hmem, hp⟩ := Db.mem_jobPage hrow
          rw [Bool.and_eq_true, Bool.not_eq_true'] at hp
          exact h row hmem hp.2 ho

theorem Db.resolveJob_respects {currentPromptVersion : String} {parentsComplete : Bool} {now : ℤ}
    {acc acc' : ProvenanceCounts × Db} {row : Job}
    (h : resolveJob currentPromptVersion parentsComplete now acc row = .ok acc') :
    acc.2.Respects acc'.2 := by
  obtain ⟨counts, db⟩ := acc
  simp only [resolveJob, bind, pure, Except.pure] at h
  split at h
  · rw [← Except.ok.inj h]; exact .refl db
  · obtain ⟨provenance, -, h⟩ := Outcome.bind_eq_ok.1 h
    cases provenance with
    | none =>
      dsimp only at h
      split at h
      · rw [← Except.ok.inj h]; exact .refl db
      · rw [← Except.ok.inj h]
        exact updateJobs_respects fun _ _ _ hwaiting _ => hwaiting
    | some provenance =>
      rw [← Except.ok.inj h]
      exact updateJobs_respects fun _ _ _ hwaiting _ => hwaiting

theorem installDownstreamWorkProvenance_respects (currentPromptVersion : String) (now : ℤ)
    (db : Db) : db.Respects (installDownstreamWorkProvenance currentPromptVersion now db).2 := by
  have hstarted : db.Respects (db.startProvenanceMigration now) := Db.respects_of_eq rfl rfl
  unfold installDownstreamWorkProvenance
  dsimp only
  split
  · exact hstarted
  · split
    · exact hstarted
    · split
      · exact hstarted
      · next hpage =>
        simp only [Db.provenancePage, bind, pure, Except.pure, Outcome.bind_eq_ok, Except.ok.injEq,
          Prod.mk.injEq] at hpage
        obtain ⟨acc, hacc, -, rfl⟩ := hpage
        have hfold := Machine.foldlM_related Db.Respects.refl Db.Respects.trans
          (fun acc : ProvenanceCounts × Db => acc.2) _ _
          (fun _ _ _ _ h => Db.resolveJob_respects h) _ _ hacc
        exact (hstarted.trans hfold).trans (Db.respects_of_eq rfl rfl)

/-! ## Reconciliation -/

/-- The pass finishes no overridden job if neither update finds one. -/
theorem Db.fullPass_respects {epoch now : ℤ} {protectedDays : List String}
    (h : ∀ j ∈ db.jobs, db.overridden j.jobId = true →
      satisfied db.evidence j = false ∧ obsolete P db.evidence epoch protectedDays j = false) :
    db.Respects (db.fullPass P epoch protectedDays now).2 := by
  have hcompleted : db.Respects (db.completeSatisfied now) :=
    updateJobs_respects fun j hj hp _ ho => absurd hp (by simp [(h j hj ho).1])
  refine hcompleted.trans (updateJobs_respects fun j' hj' hp _ ho => ?_)
  obtain ⟨j, hj, rfl⟩ := (Table.mem_update (f := fun j : Job => j.reconciled now) fun _ => rfl).1 hj'
  have hid : (if satisfied db.evidence j = true then j.reconciled now else j).jobId = j.jobId := by
    split <;> rfl
  obtain ⟨hsatisfied, hobsolete⟩ := h j hj (by rwa [hid] at ho)
  rw [if_neg (by simp [hsatisfied])] at hp
  exact absurd (hobsolete.symm.trans hp) Bool.false_ne_true

theorem reconcileCompletedJobs_respects {r : ReconcileRequest}
    (h : (Call.job (.reconcile r)).Spares P db) : db.Respects (reconcileCompletedJobs P r db).2 := by
  obtain hr | ⟨epoch, hepoch, hr | hr⟩ := reconcileCompletedJobs_cases P r db
  · rw [hr]; exact .refl db
  · rw [hr]; exact Db.fullPass_respects P (h epoch hepoch)
  · obtain ⟨cache, hcache⟩ := Db.publishReconciliation_eq P epoch r.protectedDays r.now
      r.cacheWritable (db.fullPass P epoch r.protectedDays r.now).2
    rw [hr, hcache]
    exact (Db.fullPass_respects P (h epoch hepoch)).trans (Db.respects_of_eq rfl rfl)

/-! ## Overrides -/

/-- The time that the active override of a job keeps. -/
def Db.originalOf (db : Db) (jobId : String) : Option ℤ :=
  (db.activeOverride jobId).map (·.originalAvailableAt)

theorem Db.activeOverride_iff (h : db.OverridesSound) {jobId : String} :
    db.activeOverride jobId = some o ↔ o ∈ db.overrides ∧ o.active = true ∧ o.jobId = jobId := by
  constructor
  · intro ho
    have hp := List.find?_some ho
    simp only [Bool.and_eq_true, decide_eq_true_eq] at hp
    exact ⟨List.mem_of_find?_eq_some ho, hp.2, hp.1⟩
  · rintro ⟨ho, hactive, rfl⟩
    cases hfind : db.activeOverride o.jobId with
    | none =>
      have := List.find?_eq_none.1 hfind o ho
      simp [hactive] at this
    | some o' =>
      have hp := List.find?_some hfind
      simp only [Bool.and_eq_true, decide_eq_true_eq] at hp
      rw [h.single o' (List.mem_of_find?_eq_some hfind) o ho hp.2 hactive hp.1]

theorem Db.originalOf_eq (h : db.OverridesSound) (ho : o ∈ db.overrides) (hactive : o.active = true) :
    db.originalOf o.jobId = some o.originalAvailableAt := by
  rw [originalOf, (activeOverride_iff h).2 ⟨ho, hactive, rfl⟩, Option.map_some]

/-- What a recorded override leaves: the active overrides are those of other
    jobs and itself, and its job waits at its time. -/
structure OverrideRequest.Recorded (r : OverrideRequest) (db : Db) (row : Job) (o : RetryOverride)
    (db' : Db) : Prop where
  job : row ∈ db.jobs ∧ row.jobId = r.jobId ∧ row.waiting = true
  jobId : o.jobId = r.jobId
  original : o.originalAvailableAt = (db.originalOf r.jobId).getD row.availableAt
  only : ∀ o' ∈ db'.overrides, o'.active = true →
    o' = o ∨ o' ∈ db.overrides ∧ (o.active = true → o'.jobId ≠ r.jobId)
  jobs : ∀ j ∈ db.jobs, j.waiting = true → ∃ j' ∈ db'.jobs, j'.jobId = j.jobId ∧ j'.waiting = true
  moved : o.active = true → ∃ j' ∈ db'.jobs, j'.jobId = r.jobId ∧
    j'.availableAt = o.effectiveAvailableAt

theorem OverrideRequest.recorded_of_insert {r : OverrideRequest} {c : CheckedOverride} {row : Job}
    (hrow : db.jobs.find? r.jobId = some row) (hexpects : r.expects row)
    (h : (r.moved (r.recorded c db row) db).insertOverride (r.recorded c db row) = .ok db') :
    r.Recorded db row (r.recorded c db row) db' := by
  obtain ⟨hmem, hid⟩ := Table.find?_eq_some_iff.1 hrow
  obtain ⟨-, rfl⟩ := Db.insertOverride_ok h
  generalize ho : r.recorded c db row = o
  have hjobId : o.jobId = r.jobId := by rw [← ho]; rfl
  have hold : ∀ o' ∈ (r.moved o db).overrides, o'.active = true →
      o' ∈ db.overrides ∧ (o.active = true → o'.jobId ≠ r.jobId) := by
    intro o' ho' hactive
    unfold moved at ho'
    split at ho'
    · next hact =>
      obtain ⟨hmem', hp⟩ := Db.active_closeOverrides
        (p := fun o => o.jobId = r.jobId && o.active) ho' hactive
      exact ⟨hmem', fun _ e => by simp [hactive, e] at hp⟩
    · next hact => exact ⟨ho', fun h => absurd h hact⟩
  refine ⟨⟨hmem, hid, hexpects.1⟩, hjobId, ?_, fun o' ho' hactive => ?_, fun j hj hwaiting => ?_,
    fun hactive => ?_⟩
  · rw [← ho]; rfl
  · obtain ⟨e, -⟩ | ⟨-, e⟩ := Table.insertIgnore_cases (r.moved o db).overrides o fun _ => false
    · exact .inr (hold o' (e ▸ ho') hactive)
    · have ho' : o' ∈ (r.moved o db).overrides.rows ++ [o] := e ▸ ho'
      rcases List.mem_append.1 ho' with ho' | ho'
      · exact .inr (hold o' ho' hactive)
      · exact .inl (List.mem_singleton.1 ho')
  · show ∃ j' ∈ (r.moved o db).jobs, _
    unfold moved
    split
    · refine ⟨_, (Table.mem_update (f := fun j : Job => j.rescheduled o.effectiveAvailableAt r.now) fun _ => rfl).2 ⟨j, hj, rfl⟩, ?_⟩
      split
      · exact ⟨rfl, hwaiting⟩
      · exact ⟨rfl, hwaiting⟩
    · exact ⟨j, hj, rfl, hwaiting⟩
  · show ∃ j' ∈ (r.moved o db).jobs, _
    rw [moved, if_pos hactive]
    have hmatch : r.matchesJob row = true := by
      simp [matchesJob, hid, hexpects.1, hexpects.2.1, hexpects.2.2]
    exact ⟨_, (Table.mem_update (f := fun j : Job => j.rescheduled o.effectiveAvailableAt r.now) fun _ => rfl).2 ⟨row, hmem, (if_pos hmatch).symm⟩, hid,
      rfl⟩

theorem OverrideRequest.Recorded.sound {r : OverrideRequest} {row : Job}
    (h : r.Recorded db row o db') (hs : db.OverridesSound) : db'.OverridesSound where
  single o₁ h₁ o₂ h₂ hactive₁ hactive₂ hid := by
    rcases h.only o₁ h₁ hactive₁ with rfl | ⟨h₁, hne₁⟩
    · rcases h.only o₂ h₂ hactive₂ with rfl | ⟨h₂, hne₂⟩
      · rfl
      · exact absurd (hid.symm.trans h.jobId) (hne₂ hactive₁)
    · rcases h.only o₂ h₂ hactive₂ with rfl | ⟨h₂, -⟩
      · exact absurd (hid.trans h.jobId) (hne₁ hactive₂)
      · exact hs.single o₁ h₁ o₂ h₂ hactive₁ hactive₂ hid
  waiting o' ho' hactive := by
    have hjob : ∃ j ∈ db.jobs, j.jobId = o'.jobId ∧ j.waiting = true := by
      rcases h.only o' ho' hactive with rfl | ⟨ho', -⟩
      · exact ⟨row, h.job.1, h.job.2.1.trans h.jobId.symm, h.job.2.2⟩
      · exact hs.waiting o' ho' hactive
    obtain ⟨j, hj, hid, hwaiting⟩ := hjob
    obtain ⟨j', hj', hid', hwaiting'⟩ := h.jobs j hj hwaiting
    exact ⟨j', hj', hid'.trans hid, hwaiting'⟩

/-! ## The machine -/

/-- A call that spares the overridden jobs respects the overrides, or it is one
    that records an override. -/
theorem exec_respects {c : Call} (hc : c.Spares P db) : db.Respects (exec P db c).2 ∨
    ∃ r checked row, c = .job (.overrideRetry r) ∧
      r.Recorded db row (r.recorded checked db row) (exec P db c).2 := by
  cases c with
  | capacity c => exact .inl (Db.respects_of_eq rfl rfl)
  | record c =>
    refine .inl ?_
    cases c with
    | append row =>
      simp only [exec, RecordCall.exec]
      split <;> exact Db.respects_of_eq rfl rfl
    | startForward | displaceHooks | installHooks => exact Db.respects_of_eq rfl rfl
  | job c =>
    cases c with
    | overrideRetry r =>
      obtain h | ⟨checked, row, -, -, hrow, hexpects, h⟩ := applyRetryScheduleOverride_cases r db
      · exact .inl (by simp only [exec, JobCall.exec, replyWith_snd, h]; exact .refl db)
      · exact .inr ⟨r, checked, row, rfl, OverrideRequest.recorded_of_insert hrow hexpects h⟩
    | enqueue r => exact .inl (enqueueJob_respects P r db)
    | enqueueDerived r provenance => exact .inl (enqueueJob_respects P _ db)
    | claim r => exact .inl (claimJob_respects r db)
    | complete | release | backoff => exact .inl (transitionLeasedJob_respects _ _ _ _ _ _ _ db)
    | deferForMaintenance => exact .inl (deferJobForMaintenance_respects _ _ _ _ _ db)
    | recordCompletion => exact .inl (recordAnnotationCompletion_respects P _ _ hc)
    | recordAttempt => exact .inl (Db.respects_of_eq rfl rfl)
    | authorizeAnnotations => exact .inl (authorizeRepairableAnnotationFailures_respects _ _ _ _ db)
    | authorizeImpacts => exact .inl (authorizeRepairableImpactFailures_respects _ _ _ db)
    | reopenProtected => exact .inl (reopenProtectedAnnotationJobs_respects P _ _ _ db)
    | skipProhibited => exact .inl (skipProhibitedContent_respects _ _ db)
    | installLanes => exact .inl (installAnnotationContractLanes_respects P hc)
    | installProvenance => exact .inl (installDownstreamWorkProvenance_respects _ _ db)
    | reconcile => exact .inl (reconcileCompletedJobs_respects P hc)

theorem exec_overridesSound {c : Call} (hc : c.Spares P db) (h : db.OverridesSound) :
    (exec P db c).2.OverridesSound := by
  rcases exec_respects P hc with hr | ⟨r, checked, row, -, hr⟩
  · exact hr.sound h
  · exact hr.sound h

/-- Where the time that an open override keeps comes from. -/
theorem exec_originalOf {c : Call} {jobId : String} (hc : c.Spares P db) (h : db.OverridesSound)
    (ho : (exec P db c).2.overridden jobId = true) :
    (db.overridden jobId = true ∧ (exec P db c).2.originalOf jobId = db.originalOf jobId) ∨
      db.overridden jobId = false ∧ ∃ row ∈ db.jobs, row.jobId = jobId ∧ row.waiting = true ∧
        (exec P db c).2.originalOf jobId = some row.availableAt := by
  obtain ⟨o, hmem', hactive, rfl⟩ := Db.overridden_iff.1 ho
  have hnew := Db.originalOf_eq (exec_overridesSound P hc h) hmem' hactive
  have hold (hmem : o ∈ db.overrides) : db.overridden o.jobId = true ∧
      (exec P db c).2.originalOf o.jobId = db.originalOf o.jobId :=
    ⟨Db.overridden_iff.2 ⟨o, hmem, hactive, rfl⟩, hnew.trans (Db.originalOf_eq h hmem hactive).symm⟩
  rcases exec_respects P hc with hr | ⟨r, checked, row, -, hr⟩
  · exact .inl (hold (hr.closes o hmem' hactive))
  · rcases hr.only o hmem' hactive with rfl | ⟨hmem, -⟩
    · rw [hnew, hr.original, hr.jobId]
      by_cases hb : db.overridden r.jobId = true
      · obtain ⟨o', ho', hactive', hid⟩ := Db.overridden_iff.1 hb
        rw [← hid, Db.originalOf_eq h ho' hactive']
        exact .inl ⟨hid ▸ hb, rfl⟩
      · refine .inr ⟨by simpa using hb, row, hr.job.1, hr.job.2.1, hr.job.2.2, ?_⟩
        have hnone : db.activeOverride r.jobId = none := by
          refine Option.eq_none_iff_forall_ne_some.2 fun o' ho' => hb ?_
          exact Db.overridden_iff.2 ⟨o', (Db.activeOverride_iff h).1 ho'⟩
        simp [Db.originalOf, hnone]
    · exact .inl (hold hmem)

/-- A finished job is not overridden after any further call. -/
theorem exec_not_overridden {c : Call} (hc : c.Spares P db) (h : db.OverridesSound) (hj : j ∈ db.jobs)
    (hclosed : j.state.closed) : (exec P db c).2.overridden j.jobId = false := by
  have hidle : j.waiting = false := by
    rcases hclosed with hs | hs <;> simp [Job.waiting, hs]
  by_contra ho
  rw [Bool.not_eq_false] at ho
  rcases exec_originalOf P hc h ho with ⟨ho, -⟩ | ⟨-, row, hrow, hid, hwaiting, -⟩
  · simp [h.waiting_of_overridden hj ho] at hidle
  · rw [db.jobs.eq_of_key_eq hrow hj hid] at hwaiting
    simp [hwaiting] at hidle

/-- KEEP_ORIGINAL moves an overridden job back to the time its override keeps. -/
theorem exec_keepOriginal {k : OverrideRequest} {checked : CheckedOverride} {reply : Reply} {t : ℤ}
    (hcheck : k.check = .ok checked) (hmode : checked.mode = .keepOriginal)
    (hnew : db.recordedOverride checked.requestId = none)
    (ht : db.originalOf k.jobId = some t)
    (hok : (exec P db (.job (.overrideRetry k))).1 = .ok reply) :
    ∃ job ∈ (exec P db (.job (.overrideRetry k))).2.jobs, job.jobId = k.jobId ∧ job.availableAt = t := by
  simp only [exec, JobCall.exec, replyWith, applyRetryScheduleOverride, hcheck] at hok ⊢
  cases happly : k.apply checked db with
  | error e => simp [happly, Except.map] at hok
  | ok x =>
    obtain ⟨-, o, job, hrecorded, -⟩ | ⟨-, row, hrow, hexpects, hinsert⟩ :=
      OverrideRequest.apply_cases (show k.apply checked db = .ok (x.1, x.2) from happly)
    · simp [hnew] at hrecorded
    · have hr := OverrideRequest.recorded_of_insert hrow hexpects hinsert
      have hsome : db.activeOverride k.jobId ≠ none := by
        intro hnone
        simp [Db.originalOf, hnone] at ht
      obtain ⟨job, hjob, hid, hmoved⟩ := hr.moved (by
        simp [OverrideRequest.recorded, OverrideRequest.override, hsome])
      refine ⟨job, hjob, hid, hmoved.trans ?_⟩
      have horiginal := hr.original
      rw [ht, Option.getD_some] at horiginal
      rw [← horiginal]
      simp [OverrideRequest.recorded, OverrideRequest.override, hmode, effectiveAvailableAt]

/-! ## Runs -/

/-- The overrides after the calls of a run: they are sound; a job that was
    finished before the last call has none after it; and if the last call is
    KEEP_ORIGINAL, and the job has been overridden without interruption since
    `first`, it is back at the time it had before `first`. -/
structure OverridesEnd (calls : List Call) : Prop where
  sound : (Machine.run (exec P) Db.empty calls).OverridesSound
  reopened : ∀ before call, calls = before ++ [call] →
    ∀ j ∈ (Machine.run (exec P) Db.empty before).jobs, j.state.closed →
      (Machine.run (exec P) Db.empty calls).overridden j.jobId = false
  restored : ∀ before first chain k checked row reply,
    calls = before ++ first :: (chain ++ [.job (.overrideRetry k)]) →
    (Machine.run (exec P) Db.empty before).jobs.find? k.jobId = some row →
    (Machine.run (exec P) Db.empty before).overridden k.jobId = false →
    Machine.Along (exec P) (fun db _ => db.overridden k.jobId = true)
      (exec P (Machine.run (exec P) Db.empty before) first).2 (chain ++ [.job (.overrideRetry k)]) →
    k.check = .ok checked → checked.mode = .keepOriginal →
    (Machine.run (exec P) Db.empty (before ++ first :: chain)).recordedOverride checked.requestId = none →
    (exec P (Machine.run (exec P) Db.empty (before ++ first :: chain)) (.job (.overrideRetry k))).1 =
      .ok reply →
    ∃ job ∈ (Machine.run (exec P) Db.empty calls).jobs, job.jobId = k.jobId ∧
      job.availableAt = row.availableAt

theorem run_overridesSound {calls : List Call}
    (hcalls : Machine.Along (exec P) (fun db c => c.Spares P db) db calls) (h : db.OverridesSound) :
    (Machine.run (exec P) db calls).OverridesSound :=
  Machine.run_invariant (fun _ _ hc h => exec_overridesSound P hc h) hcalls h

/-- Along an uninterrupted chain the override keeps its time. -/
theorem run_originalOf {calls : List Call} {jobId : String} {t : ℤ}
    (hcalls : Machine.Along (exec P) (fun db c => c.Spares P db) db calls)
    (hchain : Machine.Along (exec P) (fun db _ => db.overridden jobId = true) db calls)
    (h : db.OverridesSound) (ht : db.originalOf jobId = some t)
    (ho : (Machine.run (exec P) db calls).overridden jobId = true) :
    (Machine.run (exec P) db calls).originalOf jobId = some t := by
  have hrun : (Machine.run (exec P) db calls).OverridesSound ∧
      ((Machine.run (exec P) db calls).overridden jobId = true →
        (Machine.run (exec P) db calls).originalOf jobId = some t) :=
    Machine.run_invariant (I := fun db => db.OverridesSound ∧
      (db.overridden jobId = true → db.originalOf jobId = some t))
      (fun db c hc hI => ⟨exec_overridesSound P hc.1 hI.1, fun ho => by
        rcases exec_originalOf P hc.1 hI.1 ho with ⟨hb, heq⟩ | ⟨hb, -⟩
        · exact heq.trans (hI.2 hb)
        · simp [hc.2] at hb⟩) (hcalls.and hchain) ⟨h, fun _ => ht⟩
  exact hrun.2 ho

/-- **Overrides end with the schedule they override**, along calls that finish
    no overridden job. -/
theorem overrides_end_with_schedule (calls : List Call)
    (hcalls : Machine.Along (exec P) (fun db c => c.Spares P db) Db.empty calls) :
    OverridesEnd P calls where
  sound := run_overridesSound P hcalls Db.empty_overridesSound
  reopened before call hsplit j hj hclosed := by
    subst hsplit
    rw [Machine.along_append] at hcalls
    rw [Machine.run_append]
    exact exec_not_overridden P hcalls.2.1 (run_overridesSound P hcalls.1 Db.empty_overridesSound) hj
      hclosed
  restored before first chain k checked row reply hsplit hrow hfree hchain hcheck hmode hnew hok := by
    subst hsplit
    rw [Machine.along_append, Machine.along_cons, Machine.along_append] at hcalls
    obtain ⟨hbefore, hfirst, hcalls, -⟩ := hcalls
    rw [Machine.along_append] at hchain
    obtain ⟨hchain, hlast, -⟩ := hchain
    rw [Machine.run_append, Machine.run_cons] at hnew hok
    rw [Machine.run_append, Machine.run_cons, Machine.run_append]
    have hsound := run_overridesSound P hbefore Db.empty_overridesSound
    have hstart : (exec P (Machine.run (exec P) Db.empty before) first).2.overridden k.jobId = true := by
      cases chain with
      | nil => exact hlast
      | cons c chain => exact hchain.1
    rcases exec_originalOf P hfirst hsound hstart with ⟨hb, -⟩ | ⟨-, row', hrow', hid, -, horiginal⟩
    · simp [hfree] at hb
    · obtain ⟨hmem, hid'⟩ := Table.find?_eq_some_iff.1 hrow
      rw [Table.eq_of_key_eq _ hrow' hmem (hid.trans hid'.symm)] at horiginal
      have hkept := run_originalOf P hcalls hchain (exec_overridesSound P hfirst hsound) horiginal hlast
      exact exec_keepOriginal P hcheck hmode hnew hkept hok

/-- A job that waits, and the operator who moves it. -/
def overriddenJob : List Call :=
  [.job (.enqueue
      { taskType := "ACTIVE_IMPACT", source := "reuters", sourceItemId := "item", revisionNumber := 1,
        promptVersion := "v1", priority := "NORMAL", annotationId := "note", now := 0 }),
    .job (.overrideRetry
      { requestId := "first", jobId := "ACTIVE_IMPACT|reuters|item|1|note|v1", operatorId := "operator",
        mode := "IDLE_CAPACITY", reason := "later", expectedState := "QUEUED",
        expectedAvailableAt := IsoTime.iso 0, now := 1, overrideId := "one" })]

/-- The operator who takes the override back. -/
def takenBack : OverrideRequest where
  requestId := "second"
  jobId := "ACTIVE_IMPACT|reuters|item|1|note|v1"
  operatorId := "operator"
  mode := "KEEP_ORIGINAL"
  reason := "as before"
  expectedState := "QUEUED"
  expectedAvailableAt := IsoTime.iso 1
  now := 2
  overrideId := "two"

theorem overrides_end_with_schedule_takenBack :
    OverridesEnd Platform.winter (overriddenJob ++ [.job (.overrideRetry takenBack)]) :=
  overrides_end_with_schedule _ _ ⟨trivial, trivial, trivial, trivial⟩

/-- The impact of the overridden job is assessed elsewhere, and a reconciliation
    completes the job. -/
def reconciledUnderOverride : List Call :=
  overriddenJob ++
    [.record (.append (.impactAssessment ⟨"assessment", "note", "v1"⟩)),
      .record (.startForward 0), .job (.reconcile { now := 3 })]

theorem reconciled_under_override : ¬ OverridesEnd Platform.winter reconciledUnderOverride := by
  intro h
  have hleft : (Machine.run (exec Platform.winter) Db.empty reconciledUnderOverride).overrides.rows.any
      (fun o => o.active && (Machine.run (exec Platform.winter) Db.empty
        reconciledUnderOverride).jobs.rows.all fun j => j.state = .completed) = true := by
    decide
  obtain ⟨o, ho, hactive⟩ := List.any_eq_true.1 hleft
  rw [Bool.and_eq_true, List.all_eq_true] at hactive
  obtain ⟨j, hj, -, hwaiting⟩ := h.sound.waiting o ho hactive.1
  have hcompleted := hactive.2 j hj
  simp only [decide_eq_true_eq] at hcompleted
  simp [Job.waiting, hcompleted] at hwaiting

end Xauusd.Scheduler
