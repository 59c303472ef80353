/-
  Overrides for idle capacity (`claim_job` in `news/scheduler/state.py`).

  A job whose override is young is put behind the others of its class: the lane,
  and whether it is an urgent live annotation.

  * `class_le`: what it says of two rows that one is not behind the other;
  * `Yields`: no job with a young override is claimed before another without;
  * `ClaimRequest.First`: a job of the class that comes first;
  * `yields_iff`: **the promise is kept if and only if an override is overdue,
    or all are young, or a job of the first class has none that is young**.
-/
import Xauusd.Scheduler.ClaimOrder

namespace Xauusd.Scheduler

variable {r : ClaimRequest} {tasks : List TaskType} {lanes : List WorkLane} {db : Db} {j k : Job}
  {o o' : Option RetryOverride}

/-! ## Classes -/

/-- Where no override is overdue, the order is by class, and young overrides
    come last in their class. -/
theorem class_le (h : r.rank j o ≤ r.rank k o') (ho : r.overdue o = false) :
    r.overdue o' = false ∧ (k.workLane = .live → j.workLane = .live) ∧ (k.fast = true → j.fast = true) ∧
      ((j.workLane = .live → k.workLane = .live) → (j.fast = true → k.fast = true) → r.young o = true →
        r.young o' = true) := by
  rw [rank_eq, rank_eq, cons_le_cons, cons_le_cons, cons_le_cons, cons_le_cons, ho] at h
  have hfast : k.fast = true → k.workLane = .live := Job.live_of_fast
  have hfast' : j.fast = true → j.workLane = .live := Job.live_of_fast
  cases ho' : r.overdue o' with
  | true => simp [ho'] at h
  | false =>
    refine ⟨rfl, ?_⟩
    simp only [ho', Bool.false_eq_true, if_false, lt_irrefl, false_or, true_and] at h
    by_cases hj : j.workLane = .live
    · by_cases hk : k.workLane = .live
      · simp only [hj, hk, if_true, lt_irrefl, false_or, true_and] at h
        refine ⟨fun _ => hj, fun hkfast => ?_, fun _ hjk hyoung => ?_⟩
        · by_contra hjfast
          simp [hkfast, hjfast] at h
        · by_contra hyoung'
          by_cases hjfast : j.fast = true
          · simp [hjfast, hjk hjfast, hyoung, hyoung'] at h
          · by_cases hkfast : k.fast = true
            · simp [hjfast, hkfast] at h
            · simp [hjfast, hkfast, hyoung, hyoung'] at h
      · exact ⟨fun hlive => absurd hlive hk, fun hkfast => absurd (hfast hkfast) hk, fun hjk => absurd (hjk hj) hk⟩
    · by_cases hk : k.workLane = .live
      · simp [hj, hk] at h
      · simp only [hj, hk, if_false, lt_irrefl, false_or, true_and] at h
        refine ⟨fun hlive => absurd hlive hk, fun hkfast => absurd (hfast hkfast) hk, fun _ _ hyoung => ?_⟩
        by_contra hyoung'
        have hjfast : ¬ j.fast = true := fun hjfast => hj (hfast' hjfast)
        have hkfast : ¬ k.fast = true := fun hkfast => hk (hfast hkfast)
        simp [hjfast, hkfast, hyoung, hyoung'] at h

/-- An overdue override comes first. -/
theorem overdue_le (h : r.rank j o ≤ r.rank k o') (ho' : r.overdue o' = true) : r.overdue o = true := by
  by_contra ho
  have hk := (class_le h (by simpa using ho)).1
  rw [ho'] at hk
  cases hk

/-! ## The promise -/

/-- No job with a young override is claimed before another without one. -/
def Yields (r : ClaimRequest) (db : Db) : Prop :=
  ∀ job db' tasks lanes, claimJob r db = (.ok (some job), db') → r.scope = .ok (tasks, lanes) →
    r.young (db.activeOverride job.jobId) = true →
    ∀ k ∈ (db.repairExpiredLeases r.now).jobs, r.claimable tasks lanes k = true → k.jobId ≠ job.jobId →
      r.young (db.activeOverride k.jobId) = true

/-- Some claimable job has the property. -/
def ClaimRequest.Some (r : ClaimRequest) (tasks : List TaskType) (lanes : List WorkLane) (db : Db)
    (p : Job → Prop) : Prop :=
  ∃ k ∈ (db.repairExpiredLeases r.now).jobs, r.claimable tasks lanes k = true ∧ p k

/-- A job of the first class: an urgent live annotation if one is claimable,
    else a live job if one is, else any job. -/
def ClaimRequest.First (r : ClaimRequest) (tasks : List TaskType) (lanes : List WorkLane) (db : Db) (k : Job) : Prop :=
  k.fast = true ∨ ¬ r.Some tasks lanes db (·.fast = true) ∧
    (k.workLane = .live ∨ ¬ r.Some tasks lanes db (·.workLane = .live))

/-- An override is overdue, or all are young, or a job of the first class has
    none that is young. -/
def ClaimRequest.Settled (r : ClaimRequest) (tasks : List TaskType) (lanes : List WorkLane) (db : Db) : Prop :=
  r.Some tasks lanes db (fun k => r.overdue (db.activeOverride k.jobId) = true) ∨
    ¬ r.Some tasks lanes db (fun k => r.young (db.activeOverride k.jobId) = false) ∨
    r.Some tasks lanes db fun k => r.First tasks lanes db k ∧ r.young (db.activeOverride k.jobId) = false

/-- The row that is selected joins the active override of its job. -/
theorem select_override (hsingle : db.SingleOverride)
    (h : r.select tasks lanes (db.repairExpiredLeases r.now) = some j) :
    ∀ k ∈ (db.repairExpiredLeases r.now).jobs, r.claimable tasks lanes k = true →
      r.rank j (db.activeOverride j.jobId) ≤ r.rank k (db.activeOverride k.jobId) := by
  obtain ⟨o, hrow, hfirst⟩ := select_first h
  intro k hk hclaimable
  have ho := override_of_mem hsingle (mem_rows.1 hrow).2.2 (activeOverride_mem (db.repairExpiredLeases r.now) j)
  have hle := hfirst _ (mem_rows.2 ⟨hk, hclaimable, activeOverride_mem (db.repairExpiredLeases r.now) k⟩)
  rw [ho] at hle
  exact hle

/-- Where no override is overdue, the job that is selected is of the first
    class. -/
theorem first_of_select (hle : ∀ k ∈ (db.repairExpiredLeases r.now).jobs, r.claimable tasks lanes k = true →
      r.rank j (db.activeOverride j.jobId) ≤ r.rank k (db.activeOverride k.jobId))
    (hoverdue : r.overdue (db.activeOverride j.jobId) = false) : r.First tasks lanes db j := by
  by_cases hfast : r.Some tasks lanes db (·.fast = true)
  · obtain ⟨k, hk, hclaimable, hkfast⟩ := hfast
    exact .inl ((class_le (hle k hk hclaimable) hoverdue).2.2.1 hkfast)
  · refine .inr ⟨hfast, ?_⟩
    by_cases hlive : r.Some tasks lanes db (·.workLane = .live)
    · obtain ⟨k, hk, hclaimable, hklive⟩ := hlive
      exact .inl ((class_le (hle k hk hclaimable) hoverdue).2.1 hklive)
    · exact .inr hlive

/-- **The promise is kept if and only if an override is overdue, or all are
    young, or a job of the first class has none that is young.** -/
theorem yields_iff (r : ClaimRequest) (db : Db) (hsingle : db.SingleOverride) :
    Yields r db ↔ ∀ tasks lanes, r.scope = .ok (tasks, lanes) → r.Settled tasks lanes db := by
  constructor
  · intro hyields tasks lanes hscope
    by_contra hsettled
    obtain ⟨hoverdue, hyoung, hfirst⟩ : ¬ _ ∧ ¬ _ ∧ ¬ _ := by simpa only [ClaimRequest.Settled, not_or] using hsettled
    obtain ⟨k, hk, hclaimable, hkyoung⟩ := not_not.1 hyoung
    cases hselect : r.select tasks lanes (db.repairExpiredLeases r.now) with
    | none =>
      rw [select_eq_none.1 hselect k hk] at hclaimable
      cases hclaimable
    | some j =>
      obtain ⟨hj, hjclaimable⟩ := ClaimRequest.select_mem hselect
      have hle := select_override hsingle hselect
      have hjoverdue : r.overdue (db.activeOverride j.jobId) = false := by
        by_contra h
        exact hoverdue ⟨j, hj, hjclaimable, by simpa using h⟩
      have hjyoung : r.young (db.activeOverride j.jobId) = true := by
        by_contra h
        exact hfirst ⟨j, hj, hjclaimable, first_of_select hle hjoverdue, by simpa using h⟩
      have htasks : tasks ≠ [] := by
        rintro rfl
        simp [ClaimRequest.claimable] at hclaimable
      have hclaim := claimJob_select hscope htasks hselect
      have hne : k.jobId ≠ j.jobId := by
        intro heq
        rw [heq, hjyoung] at hkyoung
        cases hkyoung
      rw [hyields _ _ tasks lanes hclaim hscope hjyoung k hk hclaimable hne] at hkyoung
      cases hkyoung
  · intro hsettled job db' tasks lanes hclaim hscope hyoung k hk hclaimable hne
    obtain ⟨tasks', lanes', j, hscope', -, hselect, rfl⟩ := claimJob_some hclaim
    rw [hscope, Except.ok.injEq, Prod.mk.injEq] at hscope'
    obtain ⟨rfl, rfl⟩ := hscope'
    have hyoung : r.young (db.activeOverride j.jobId) = true := hyoung
    have hle := select_override hsingle hselect
    have hjoverdue : r.overdue (db.activeOverride j.jobId) = false := by
      by_contra h
      rw [not_young_of_overdue (by simpa using h)] at hyoung
      cases hyoung
    rcases hsettled tasks lanes hscope with ⟨k', hk', hclaimable', hoverdue⟩ | hall | ⟨k', hk', hclaimable', hfirst, hkyoung⟩
    · rw [overdue_le (hle k' hk' hclaimable') hoverdue] at hjoverdue
      cases hjoverdue
    · by_contra hkyoung
      exact hall ⟨k, hk, hclaimable, by simpa using hkyoung⟩
    · obtain ⟨hj, hjclaimable⟩ := ClaimRequest.select_mem hselect
      have hclass := (class_le (hle k' hk' hclaimable') hjoverdue).2.2.2
      have hyoung' : r.young (db.activeOverride k'.jobId) = true := by
        rcases hfirst with hfast | ⟨hnofast, hlive⟩
        · exact hclass (fun _ => Job.live_of_fast hfast) (fun _ => hfast) hyoung
        · refine hclass (fun hjlive => ?_) (fun hjfast => absurd ⟨j, hj, hjclaimable, hjfast⟩ hnofast) hyoung
          exact hlive.resolve_right fun hnolive => hnolive ⟨j, hj, hjclaimable, hjlive⟩
      rw [hyoung'] at hkyoung
      cases hkyoung

/-! ## Two live jobs -/

/-- A live job that waits since the first instant. -/
def idleSample (jobId : String) (taskType : TaskType) (priority : Priority) : Job where
  jobId := jobId
  taskType := taskType
  source := "source"
  sourceItemId := jobId
  revisionNumber := 1
  annotationId := ""
  promptVersion := "prompt"
  priority := priority
  state := .queued
  availableAt := 0
  leaseOwner := none
  leaseExpiresAt := none
  attemptCount := 0
  lastError := none
  createdAt := 0
  updatedAt := 0
  completedAt := none
  workLane := .live
  laneClassified := true
  provenanceResolved := true
  provenanceVersion := some WORK_PROVENANCE_VERSION
  provenanceOriginTask := none
  provenanceOriginRef := none

/-- The first job is asked to yield. -/
def idleOverride : RetryOverride where
  overrideId := "o"
  requestId := "q"
  jobId := "idle"
  taskType := TaskType.activeAnnotation
  operatorId := "owner"
  mode := .idleCapacity
  requestedAt := 0
  originalAvailableAt := 0
  previousAvailableAt := 0
  requestedAvailableAt := none
  effectiveAvailableAt := 0
  reason := "spare capacity"
  observedState := .queued
  resultingState := .queued
  active := true

/-- An annotation that yields, and another job. -/
def idleDb (priority : Priority) (other : Job) (h : other.jobId ≠ "idle") : Db :=
  { Db.empty with
    jobs := ⟨[idleSample "idle" TaskType.activeAnnotation priority, other], by simp [idleSample, h.symm]⟩
    overrides := ⟨[idleOverride], by simp⟩ }

def idleClaim : ClaimRequest where
  workerId := "worker"
  pool := "ROUTINE"
  now := IsoTime.minute

theorem idleDb_single {priority : Priority} {other : Job} {h : other.jobId ≠ "idle"} :
    (idleDb priority other h).SingleOverride := by
  intro o ho o' ho' _ _ _
  rw [List.mem_singleton.1 ho, List.mem_singleton.1 ho']

/-- A normal annotation yields to another. -/
theorem yields_normal : Yields idleClaim
    (idleDb .normal (idleSample "other" TaskType.activeAnnotation .background) (by decide)) := by
  refine (yields_iff _ _ idleDb_single).2 fun tasks lanes hscope => ?_
  have hscope' : idleClaim.scope = .ok (TASKS, WORK_LANES) := by decide
  rw [hscope', Except.ok.injEq, Prod.mk.injEq] at hscope
  obtain ⟨rfl, rfl⟩ := hscope
  refine .inr (.inr ⟨idleSample "other" TaskType.activeAnnotation .background, ?_, ?_, .inr ⟨?_, .inl rfl⟩, ?_⟩)
  · exact Table.mem_rows.1 (by decide)
  · decide
  · rintro ⟨k, hk, -, hfast⟩
    revert k
    decide
  · decide

/-- **An urgent annotation does not.** -/
theorem not_yields_fast : ¬ Yields idleClaim
    (idleDb .fast (idleSample "other" .activeImpact .immediate) (by decide)) := by
  intro hyields
  have hscope : idleClaim.scope = .ok (TASKS, WORK_LANES) := by decide
  have hselect : idleClaim.select TASKS WORK_LANES
      ((idleDb .fast (idleSample "other" .activeImpact .immediate) (by decide)).repairExpiredLeases idleClaim.now) =
        some (idleSample "idle" TaskType.activeAnnotation .fast) := by
    decide
  have hother := hyields _ _ TASKS WORK_LANES (claimJob_select hscope (by decide) hselect) hscope (by decide)
    (idleSample "other" .activeImpact .immediate) (Table.mem_rows.1 (by decide)) (by decide)
    (by decide)
  revert hother
  decide

end Xauusd.Scheduler
