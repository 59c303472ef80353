/-
  What `enqueue_job` leaves of the job it enqueues.

  The three statements of the call run in a fixed order: insert, refresh the
  lane and the provenance of a waiting row, reopen a completed row.  The
  refresh precedes the reopening, so that a completed row comes back with the
  lane, the priority and the provenance it was completed with.

  * `Job.refreshed` is what the refresh makes of a row, `Job.reopened` what the
    reopening makes of it;
  * `enqueueJob_cases`: the rows after a call, in terms of the rows before;
  * `enqueueJob_carried_iff`: a waiting row carries what the call passed,
    unless a completed row that carries something else was reopened.
-/
import Xauusd.Scheduler.Jobs

namespace Xauusd.Scheduler

variable {P : Platform} {r : EnqueueRequest} {db : Db} {job j j' : Job} {jobId : String}

/-- The origin task and reference that a call passes: those of its provenance,
    by default the job itself. -/
def EnqueueRequest.origin (r : EnqueueRequest) (jobId : String) : String × String :=
  r.provenance.elim (r.taskType, jobId) fun p => (p.originTask, p.originRef)

/-- A row that is classified and carries the lane, the priority and the
    provenance of the call. -/
structure EnqueueRequest.Carried (r : EnqueueRequest) (jobId : String) (j : Job) : Prop where
  classified : j.laneClassified = true
  resolved : j.provenanceResolved = true
  version : j.provenanceVersion = some WORK_PROVENANCE_VERSION
  lane : j.workLane.text = r.workLane
  priority : j.priority.text = r.priority
  originTask : j.provenanceOriginTask = some (r.origin jobId).1
  originRef : j.provenanceOriginRef = some (r.origin jobId).2

/-! ## The job of a call -/

/-- The job that a call inserts waits, and carries what the call passed. -/
theorem EnqueueRequest.job_carried (h : r.job P = .ok job) :
    job.state = .queued ∧ r.Carried job.jobId job := by
  simp only [EnqueueRequest.job, WorkProvenance.make, bind, Except.bind, pure, Except.pure, throw,
    throwThe, MonadExceptOf.throw] at h
  split at h
  · next taskType htask =>
    split at h
    · next priority hpriority =>
      split at h
      · next workLane hlane =>
        have hlane := text_of_ofText? hlane
        have hpriority := text_of_ofText? hpriority
        cases hp : r.provenance with
        | some provenance =>
          simp only [hp] at h
          split at h
          · cases h
          · cases h
            exact ⟨rfl, rfl, rfl, rfl, hlane, hpriority, by simp [origin, hp], by simp [origin, hp]⟩
        | none =>
          simp only [hp] at h
          repeat' split at h
          all_goals try cases h
          next hmade _ =>
            split at hmade
            · cases hmade
              exact ⟨rfl, rfl, rfl, rfl, hlane, hpriority, by simp [origin, hp], by simp [origin, hp]⟩
            · cases hmade
      · cases h
    · cases h
  · cases h

theorem EnqueueRequest.Carried.reclassified (h : r.Carried job.jobId job) (j : Job) :
    r.Carried job.jobId (j.reclassified job) :=
  ⟨rfl, rfl, rfl, h.lane, h.priority, h.originTask, h.originRef⟩

/-- Reopening leaves the lane, the priority and the provenance. -/
theorem EnqueueRequest.carried_requeued_iff {now : ℤ} {error : Option String} :
    r.Carried jobId (j.requeued now error) ↔ r.Carried jobId j :=
  ⟨fun h => ⟨h.classified, h.resolved, h.version, h.lane, h.priority, h.originTask, h.originRef⟩,
    fun h => ⟨h.classified, h.resolved, h.version, h.lane, h.priority, h.originTask, h.originRef⟩⟩

/-! ## The rows after a call -/

/-- The refresh of the rows of the job's id that wait. -/
def Job.refreshed (j job : Job) : Job :=
  if j.jobId = job.jobId && j.waiting then j.reclassified job else j

theorem Job.refreshed_jobId (j job : Job) : (j.refreshed job).jobId = j.jobId := by
  unfold refreshed; split <;> rfl

theorem Job.refreshed_state (j job : Job) : (j.refreshed job).state = j.state := by
  unfold refreshed; split <;> rfl

/-- The reopening of the rows of the job's id that are completed. -/
def EnqueueRequest.reopen (r : EnqueueRequest) (jobId : String) (j : Job) : Job :=
  if r.reopenCompleted && (j.jobId = jobId && j.state = .completed) then j.requeued r.now none
  else j

theorem EnqueueRequest.reopen_jobId : (r.reopen jobId j).jobId = j.jobId := by
  unfold reopen; split <;> rfl

/-- A row after the call is one before it, or the inserted one, refreshed and
    then reopened. -/
theorem mem_enqueueJob (hjob : r.job P = .ok job) : j' ∈ (enqueueJob P r db).2.jobs ↔
    ∃ j ∈ (db.insertJobIgnore job).jobs, j' = r.reopen job.jobId (j.refreshed job) := by
  have hrefresh (j' : Job) : j' ∈ ((db.insertJobIgnore job).updateJobs
      (fun j => j.jobId = job.jobId && j.waiting) (·.reclassified job) fun _ => rfl).jobs ↔
      ∃ j ∈ (db.insertJobIgnore job).jobs, j' = j.refreshed job :=
    Table.mem_update (f := fun j => Job.reclassified j job) fun _ => rfl
  unfold enqueueJob
  rw [hjob]
  cases hreopen : r.reopenCompleted with
  | false =>
    refine (hrefresh j').trans ?_
    simp [EnqueueRequest.reopen, hreopen]
  | true =>
    have hset (j : Job) : r.reopen job.jobId j =
        if j.jobId = job.jobId && j.state = .completed then j.requeued r.now none else j := by
      simp [EnqueueRequest.reopen, hreopen]
    simp only [hset]
    constructor
    · intro hj'
      obtain ⟨_, hmem, rfl⟩ := (Table.mem_update (f := fun j => Job.requeued j r.now none) fun _ => rfl).1 hj'
      obtain ⟨j, hj, rfl⟩ := (hrefresh _).1 hmem
      exact ⟨j, hj, rfl⟩
    · rintro ⟨j, hj, rfl⟩
      exact (Table.mem_update (f := fun j => Job.requeued j r.now none) fun _ => rfl).2
        ⟨_, (hrefresh _).2 ⟨j, hj, rfl⟩, rfl⟩

/-- The insertion adds no row that is completed. -/
theorem Db.mem_insertJobIgnore (hstate : job.state = .queued) (hj : j ∈ (db.insertJobIgnore job).jobs) :
    j ∈ db.jobs ∨ j.state = .queued := by
  obtain ⟨e, -⟩ | ⟨-, e⟩ := db.jobs.insertIgnore_cases job fun j' => j'.identity = job.identity
  · exact .inl (by rwa [insertJobIgnore_jobs, e] at hj)
  · rw [insertJobIgnore_jobs, ← Table.mem_rows, e, List.mem_append, List.mem_singleton] at hj
    rcases hj with hj | rfl
    · exact .inl hj
    · exact .inr hstate

/-- What becomes of a row of the job's id: it waits already and is refreshed,
    or is completed and reopened as it is, or does not wait. -/
theorem EnqueueRequest.reopen_refreshed_cases (hid : j.jobId = job.jobId) :
    (j.waiting = true ∧ r.reopen job.jobId (j.refreshed job) = j.reclassified job) ∨
      (r.reopenCompleted = true ∧ j.state = .completed ∧
        r.reopen job.jobId (j.refreshed job) = j.requeued r.now none) ∨
      (r.reopen job.jobId (j.refreshed job)).waiting = false := by
  by_cases hw : j.waiting
  · have hrefreshed : j.refreshed job = j.reclassified job := by simp [Job.refreshed, hid, hw]
    have hstate : (j.reclassified job).state ≠ .completed := by
      intro h
      have : j.state = .completed := h
      simp [Job.waiting, this] at hw
    exact .inl ⟨hw, by simp [reopen, hrefreshed, hstate]⟩
  · have hrefreshed : j.refreshed job = j := by simp [Job.refreshed, hw]
    rw [hrefreshed]
    by_cases hc : r.reopenCompleted = true ∧ j.state = .completed
    · exact .inr (.inl ⟨hc.1, hc.2, by simp [reopen, hc, hid]⟩)
    · refine .inr (.inr ?_)
      have : r.reopen job.jobId j = j := by
        unfold reopen
        split
        · next h =>
          simp only [Bool.and_eq_true, decide_eq_true_eq] at h
          exact absurd ⟨h.1, h.2.2⟩ hc
        · rfl
      rw [this]
      simpa using hw

/-! ## What a waiting row carries -/

/-- **What is enqueued.** After a call, a row of the job that waits carries the
    lane, the priority and the provenance of the call, if and only if the call
    reopens no completed row that carries something else. -/
theorem enqueueJob_carried_iff (P : Platform) (r : EnqueueRequest) (db : Db) (jobId : String)
    (h : (enqueueJob P r db).1 = .ok jobId) :
    (∀ j ∈ (enqueueJob P r db).2.jobs, j.jobId = jobId → j.waiting = true → r.Carried jobId j) ↔
      (r.reopenCompleted = true → ∀ j ∈ db.jobs, j.jobId = jobId → j.state = .completed →
        r.Carried jobId j) := by
  obtain ⟨job, hjob, rfl⟩ : ∃ job, r.job P = .ok job ∧ job.jobId = jobId := by
    unfold enqueueJob at h
    cases hjob : r.job P with
    | error e => rw [hjob] at h; cases h
    | ok job => rw [hjob] at h; exact ⟨job, rfl, Except.ok.inj h⟩
  obtain ⟨hstate, hcarried⟩ := EnqueueRequest.job_carried hjob
  constructor
  · intro hafter hreopen j hj hid hcompleted
    have hmem : r.reopen job.jobId (j.refreshed job) ∈ (enqueueJob P r db).2.jobs :=
      (mem_enqueueJob hjob).2 ⟨j, Table.mem_insertIgnore_of_mem hj, rfl⟩
    have hrefreshed : j.refreshed job = j := by simp [Job.refreshed, Job.waiting, hcompleted]
    have hreopened : r.reopen job.jobId (j.refreshed job) = j.requeued r.now none := by
      simp [EnqueueRequest.reopen, hrefreshed, hreopen, hid, hcompleted]
    rw [hreopened] at hmem
    exact EnqueueRequest.carried_requeued_iff.1 (hafter _ hmem hid rfl)
  · intro hbefore j' hj' hid hwaiting
    obtain ⟨j, hj, rfl⟩ := (mem_enqueueJob hjob).1 hj'
    rw [EnqueueRequest.reopen_jobId, Job.refreshed_jobId] at hid
    obtain ⟨-, e⟩ | ⟨hreopen, hcompleted, e⟩ | hnot :=
      EnqueueRequest.reopen_refreshed_cases (r := r) hid
    · rw [e]
      exact hcarried.reclassified j
    · rw [e, EnqueueRequest.carried_requeued_iff]
      rcases Db.mem_insertJobIgnore hstate hj with hj | hqueued
      · exact hbefore hreopen j hj hid hcompleted
      · rw [hqueued] at hcompleted
        cases hcompleted
    · rw [hnot] at hwaiting
      cases hwaiting

/-- The reopening of a LIVE revision, as the recovery of prohibited content
    enqueues it. -/
def liveReopening : EnqueueRequest where
  taskType := "ACTIVE_ANNOTATION"
  source := "wire"
  sourceItemId := "item"
  revisionNumber := 1
  promptVersion := "v1"
  priority := "FAST"
  reopenCompleted := true
  now := 60

/-- The id of its job. -/
def liveJobId : String := jobIdOf .winter TaskType.activeAnnotation "wire" "item" 1 "" "v1"

theorem enqueueJob_carried_at_first : (enqueueJob .winter liveReopening .empty).1 = .ok liveJobId ∧
    ∀ j ∈ (enqueueJob .winter liveReopening .empty).2.jobs, j.jobId = liveJobId →
      j.waiting = true → liveReopening.Carried liveJobId j :=
  ⟨by decide,
    (enqueueJob_carried_iff .winter liveReopening .empty liveJobId (by decide)).2
      fun _ j hj => absurd hj (Table.not_mem_empty j)⟩

/-- The job as a completion without provenance records it. -/
def completedUnclassified : Db :=
  { Db.empty with
    jobs := ⟨[completionJob "wire" "item" 1 "v1" 0 liveJobId none], by simp⟩ }

/-- Reopened, it waits in a row that no claim takes. -/
theorem enqueueJob_reopens_unclassified :
    (enqueueJob .winter liveReopening completedUnclassified).1 = .ok liveJobId ∧
      ∃ j ∈ (enqueueJob .winter liveReopening completedUnclassified).2.jobs,
        j.jobId = liveJobId ∧ j.waiting = true ∧ ¬ liveReopening.Carried liveJobId j := by
  refine ⟨by decide, ?_⟩
  have hrow : ∃ j ∈ (enqueueJob .winter liveReopening completedUnclassified).2.jobs,
      j.jobId = liveJobId ∧ j.waiting = true ∧ j.laneClassified = false := by decide
  obtain ⟨j, hj, hid, hwaiting, hlane⟩ := hrow
  refine ⟨j, hj, hid, hwaiting, fun h => ?_⟩
  rw [h.classified] at hlane
  cases hlane

end Xauusd.Scheduler
