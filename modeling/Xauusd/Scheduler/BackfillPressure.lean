/-
  When a backfill refusal for LIVE pressure is about LIVE pressure.

  The pressure aggregate counts as claimable every row of its four states whose
  availability has passed, and a completed job keeps the availability it was
  completed at.

  * `Job.pressing` is LIVE work that is leased or due, `Job.finishedDue` a
    completed LIVE job whose availability has passed;
  * `countsClaimable_iff`: the aggregate counts both;
  * `live_refusal_iff`: a refusal for LIVE pressure implies pressing work
    exactly when no finished job stands in for it.
-/
import Xauusd.Scheduler.Quota

namespace Xauusd.Scheduler

variable {P : Platform} {r : BackfillRequest} {jobs : List Job} {c : Capacity}
  {tasks : List TaskType} {now : ℤ} {j : Job}

/-- LIVE work that is leased, or waits and is due. -/
def Job.pressing (tasks : List TaskType) (now : ℤ) (j : Job) : Prop :=
  j.livePressure tasks = true ∧ (j.state = .leased ∨ j.waiting = true ∧ j.availableAt ≤ now)

/-- A completed LIVE job whose availability has passed. -/
def Job.finishedDue (tasks : List TaskType) (now : ℤ) (j : Job) : Prop :=
  j.livePressure tasks = true ∧ j.state = .completed ∧ j.availableAt ≤ now

instance : DecidablePred (Job.pressing tasks now) := fun _ => inferInstanceAs (Decidable (_ ∧ _))
instance : DecidablePred (Job.finishedDue tasks now) := fun _ =>
  inferInstanceAs (Decidable (_ ∧ _))

/-- What the aggregate counts as claimable. -/
theorem countsClaimable_iff : (j.pressureRow tasks = true ∧ j.countsClaimable now = true) ↔
    j.pressing tasks now ∨ j.finishedDue tasks now := by
  simp only [Job.pressureRow, Job.countsClaimable, Job.pressing, Job.finishedDue, Job.waiting,
    Bool.and_eq_true, Bool.or_eq_true, decide_eq_true_eq]
  cases j.state <;> simp

theorem BackfillRequest.claimable_pos_iff : 0 < r.claimable jobs tasks ↔
    ∃ j ∈ jobs, j.pressing tasks r.now ∨ j.finishedDue tasks r.now := by
  simp only [claimable, List.countP_pos_iff, Bool.and_eq_true, countsClaimable_iff]

/-- An overdue row is a claimable one. -/
theorem BackfillRequest.claimable_of_overdue (h : r.liveOverdue jobs tasks = true) :
    0 < r.claimable jobs tasks := by
  rw [claimable, List.countP_eq_length_filter, List.length_pos_iff]
  intro hnil
  simp [liveOverdue, hnil] at h

/-- The reason, once the history and the tasks are there. -/
theorem backfillAdmissionLocked_reason (hdays : BACKFILL_MIN_COMPLETE_DAYS ≤ (r.history P c).length)
    (htasks : livePressureTasksForQuota r.quotaAuthority ≠ []) :
    (backfillAdmissionLocked P r jobs c).reason =
      (((r.blockers P jobs c (livePressureTasksForQuota r.quotaAuthority)).find? (·.1)).map
        (·.2)).getD "SAFE_BUDGET_AVAILABLE" := by
  have hdays' : ¬ (r.forecast P c).historyDays < BACKFILL_MIN_COMPLETE_DAYS := by
    simpa [BackfillRequest.forecast] using hdays
  simp only [backfillAdmissionLocked, hdays', htasks, if_false]
  split <;> next h => simp [h, BackfillRequest.pressure, BackfillRequest.forecast]

/-- A refusal for LIVE pressure is one for claimable rows: an overdue row is
    claimable, and that refusal comes first. -/
theorem live_reason_iff :
    ((backfillAdmissionLocked P r jobs c).reason = "LIVE_CLAIMABLE" ∨
        (backfillAdmissionLocked P r jobs c).reason = "LIVE_SLA_PRESSURE") ↔
      BACKFILL_MIN_COMPLETE_DAYS ≤ (r.history P c).length ∧
        livePressureTasksForQuota r.quotaAuthority ≠ [] ∧
        0 < r.claimable jobs (livePressureTasksForQuota r.quotaAuthority) := by
  by_cases hdays : BACKFILL_MIN_COMPLETE_DAYS ≤ (r.history P c).length
  swap
  · have hdays' : (r.forecast P c).historyDays < BACKFILL_MIN_COMPLETE_DAYS := by
      simpa [BackfillRequest.forecast] using hdays
    simp [backfillAdmissionLocked, hdays', hdays]
  by_cases htasks : livePressureTasksForQuota r.quotaAuthority = []
  · have hdays' : ¬ (r.forecast P c).historyDays < BACKFILL_MIN_COMPLETE_DAYS := by
      simpa [BackfillRequest.forecast] using hdays
    simp [backfillAdmissionLocked, hdays', htasks]
  rw [backfillAdmissionLocked_reason hdays htasks]
  by_cases hclaim : 0 < r.claimable jobs (livePressureTasksForQuota r.quotaAuthority)
  · simp [BackfillRequest.blockers, hclaim, hdays, htasks]
  · have hoverdue : r.liveOverdue jobs (livePressureTasksForQuota r.quotaAuthority) = false := by
      by_contra h
      exact hclaim (BackfillRequest.claimable_of_overdue (by simpa using h))
    simp only [hclaim, and_false, iff_false]
    -- the two blockers in question are down, so the first one up has another reason
    cases hfind : (r.blockers P jobs c (livePressureTasksForQuota r.quotaAuthority)).find? (·.1) with
    | none => simp
    | some x =>
      have hup := List.find?_some hfind
      have hmem := List.mem_of_find?_eq_some hfind
      simp only [BackfillRequest.blockers, hclaim, hoverdue, decide_false, List.mem_cons,
        List.not_mem_nil, or_false] at hmem
      rcases hmem with rfl | rfl | rfl | rfl | rfl | rfl | rfl
      · simp at hup
      · simp at hup
      all_goals simp

/-! ## The claim of a refusal -/

/-- The refusal is about work: if it names LIVE pressure, LIVE work presses. -/
def LiveRefusalHonest (P : Platform) (r : BackfillRequest) (jobs : List Job) (c : Capacity) : Prop :=
  (backfillAdmissionLocked P r jobs c).reason = "LIVE_CLAIMABLE" ∨
      (backfillAdmissionLocked P r jobs c).reason = "LIVE_SLA_PRESSURE" →
    ∃ j ∈ jobs, j.pressing (livePressureTasksForQuota r.quotaAuthority) r.now

/-- **A refusal for LIVE pressure is honest exactly when** the decision stops
    before the pressure (less than seven days of history, or a surface that no
    task presses on), or no completed LIVE job is due, or LIVE work presses
    anyway. -/
theorem live_refusal_iff (P : Platform) (r : BackfillRequest) (jobs : List Job) (c : Capacity) :
    LiveRefusalHonest P r jobs c ↔
      (r.history P c).length < BACKFILL_MIN_COMPLETE_DAYS ∨
        livePressureTasksForQuota r.quotaAuthority = [] ∨
        (∀ j ∈ jobs, ¬ j.finishedDue (livePressureTasksForQuota r.quotaAuthority) r.now) ∨
        ∃ j ∈ jobs, j.pressing (livePressureTasksForQuota r.quotaAuthority) r.now := by
  rw [LiveRefusalHonest, live_reason_iff, BackfillRequest.claimable_pos_iff, ← Nat.not_le]
  constructor
  · intro h
    by_contra hnot
    push Not at hnot
    obtain ⟨hdays, htasks, ⟨j, hj, hdone⟩, hnone⟩ := hnot
    obtain ⟨j', hj', hp⟩ := h ⟨hdays, htasks, j, hj, .inr hdone⟩
    exact hnone j' hj' hp
  · rintro (h | h | h | h) ⟨hdays, htasks, j, hj, hp⟩
    · exact absurd hdays h
    · exact absurd h htasks
    · exact ⟨j, hj, hp.resolve_right (h j hj)⟩
    · exact h

/-! ## A ledger whose only LIVE job is completed -/

/-- A completed LIVE annotation job. -/
def finishedJob : Job where
  jobId := "done"
  taskType := TaskType.activeAnnotation
  source := "fed"
  sourceItemId := "item"
  revisionNumber := 1
  annotationId := ""
  promptVersion := "v1"
  priority := .fast
  state := .completed
  availableAt := 60
  leaseOwner := none
  leaseExpiresAt := none
  attemptCount := 1
  lastError := none
  createdAt := 0
  updatedAt := 60
  completedAt := some 60
  workLane := .live
  laneClassified := true
  provenanceResolved := true
  provenanceVersion := some WORK_PROVENANCE_VERSION
  provenanceOriginTask := some "ACTIVE_ANNOTATION"
  provenanceOriginRef := some "done"

/-- A request at ten o'clock of day 7. -/
def backfillOfOne : BackfillRequest where
  accountId := "account"
  quotaAuthority := "gemini_quota"
  modelFamilies := ["gemini-3.5-flash-lite"]
  dailyLimit := 100
  currentDailyCount := 0
  requestedRequests := 1
  now := 7 * IsoTime.day + 18 * IsoTime.hour

/-- With the completed job alone, backfill is refused as LIVE_CLAIMABLE. -/
theorem finished_job_refuses_backfill :
    ¬ LiveRefusalHonest Platform.winter backfillOfOne [finishedJob] sevenDayHistory := by
  intro h
  have hreason : (backfillAdmissionLocked Platform.winter backfillOfOne [finishedJob]
      sevenDayHistory).reason = "LIVE_CLAIMABLE" := by decide
  obtain ⟨j, hj, -, hp⟩ := h (.inl hreason)
  rw [List.mem_singleton.1 hj] at hp
  exact absurd hp (by decide)

end Xauusd.Scheduler
