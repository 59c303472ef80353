/-
  The job queue (`news/scheduler/state.py`, `news/semantics/critical_state.py`):
  enqueueing, claiming under a lease, and the transitions of a leased job.

  A call is a function from the database to its outcome and the database it
  leaves; a call that raises leaves the database it was given, as its
  transaction is rolled back.

  * `enqueueJob`, `enqueueDerivedAiJob`, `recordAnnotationCompletion` create
    and update jobs;
  * `claimJob` repairs expired leases, selects one claimable job and leases it;
  * `transitionLeasedJob` and `deferJobForMaintenance` are the two guarded
    updates by the owner of a lease, `completeJob`, `releaseJob` and
    `backoffJob` instances of the first.
-/
import Xauusd.Scheduler.Db

namespace Xauusd.Scheduler

variable (P : Platform)

/-! ## Enqueueing -/

/-- `_job_id` -/
def jobIdOf (taskType : TaskType) (source sourceItemId : String) (revisionNumber : ℤ)
    (annotationId promptVersion : String) : String :=
  P.sha256 ("|".intercalate
    [taskType.text, source, sourceItemId, toString revisionNumber, annotationId, promptVersion])

structure EnqueueRequest where
  taskType : String
  source : String
  sourceItemId : String
  revisionNumber : ℤ
  promptVersion : String
  priority : String
  workLane : String := "LIVE"
  provenance : Option WorkProvenance := none
  annotationId : String := ""
  reopenCompleted : Bool := false
  now : ℤ

/-- The checks of `enqueue_job`: the job it inserts, or the exception. -/
def EnqueueRequest.job (r : EnqueueRequest) : Outcome Job := do
  let some taskType := ofText? TaskType.text TASKS r.taskType
    | throw (.valueError "scheduler task type is not controlled")
  let some priority := ofText? Priority.text PRIORITIES r.priority
    | throw (.valueError "scheduler priority is not controlled")
  let some workLane := ofText? WorkLane.text WORK_LANES r.workLane
    | throw (.valueError "scheduler work lane is not controlled")
  let jobId := jobIdOf P taskType r.source r.sourceItemId r.revisionNumber r.annotationId
    r.promptVersion
  let provenance ← match r.provenance with
    | some provenance => pure provenance
    | none => WorkProvenance.make workLane r.taskType jobId
  if provenance.workLane ≠ workLane then
    throw (.valueError "scheduler job lane disagrees with workload provenance")
  return {
    jobId := jobId
    taskType := taskType
    source := r.source
    sourceItemId := r.sourceItemId
    revisionNumber := r.revisionNumber
    annotationId := r.annotationId
    promptVersion := r.promptVersion
    priority := priority
    state := .queued
    availableAt := r.now
    leaseOwner := none
    leaseExpiresAt := none
    attemptCount := 0
    lastError := none
    createdAt := r.now
    updatedAt := r.now
    completedAt := none
    workLane := workLane
    laneClassified := true
    provenanceResolved := true
    provenanceVersion := some WORK_PROVENANCE_VERSION
    provenanceOriginTask := some provenance.originTask
    provenanceOriginRef := some provenance.originRef }

/-- The second statement of `enqueue_job`: a waiting job takes the lane, the
    priority and the provenance of the new one. -/
def Job.reclassified (j new : Job) : Job :=
  { j with
    workLane := new.workLane
    priority := new.priority
    laneClassified := true
    provenanceResolved := true
    provenanceVersion := some WORK_PROVENANCE_VERSION
    provenanceOriginTask := new.provenanceOriginTask
    provenanceOriginRef := new.provenanceOriginRef }

/-- A job made claimable again at `now`: the `SET` clause that enqueueing, the
    recoveries and the protected reopening share. -/
def Job.requeued (j : Job) (now : ℤ) (lastError : Option String) : Job :=
  { j with
    state := .queued
    availableAt := now
    leaseOwner := none
    leaseExpiresAt := none
    lastError := lastError
    updatedAt := now
    completedAt := none }

/-- `enqueue_job`, which returns the id of the job. -/
def enqueueJob (r : EnqueueRequest) (db : Db) : Outcome String × Db :=
  match r.job P with
  | .error e => (.error e, db)
  | .ok job =>
    let inserted := db.insertJobIgnore job
    let updated := inserted.updateJobs (fun j => j.jobId = job.jobId && j.waiting)
      (·.reclassified job) fun _ => rfl
    let reopened :=
      if r.reopenCompleted then
        updated.updateJobs (fun j => j.jobId = job.jobId && j.state = .completed)
          (·.requeued r.now none) fun _ => rfl
      else updated
    (.ok job.jobId, reopened)

/-- `enqueue_derived_ai_job` -/
def enqueueDerivedAiJob (r : EnqueueRequest) (provenance : WorkProvenance) (db : Db) :
    Outcome String × Db :=
  enqueueJob P
    { r with
      workLane := provenance.workLane.text
      provenance := some provenance
      priority := if provenance.workLane = .contractBackfill then "BACKGROUND" else r.priority
      reopenCompleted := false } db

/-! ## Claiming -/

def PRIORITY_HEAD_START : ℤ := IsoTime.minute
def IDLE_CAPACITY_MAX_WAIT : ℤ := 30 * IsoTime.minute

structure ClaimRequest where
  workerId : String
  pool : String
  taskTypes : Option (List String) := none
  excludedTaskTypes : List String := []
  workLanes : List String := ["LIVE", "CONTRACT_BACKFILL"]
  now : ℤ
  leaseSeconds : ℤ := 180
  queuedBefore : Option ℤ := none

/-- The checks of `claim_job`: the task types and lanes it may claim. -/
def ClaimRequest.scope (r : ClaimRequest) : Outcome (List TaskType × List WorkLane) := do
  if r.pool ≠ "ROUTINE" ∧ r.pool ≠ "PREEMPTIBLE" then
    throw (.valueError "scheduler pool is not controlled")
  if Text.strip r.workerId = "" then
    throw (.valueError "scheduler worker_id is required")
  let some tasks := r.taskTypes.elim (some TASKS) (·.mapM (ofText? TaskType.text TASKS))
    | throw (.valueError "scheduler task type is not controlled")
  let some excluded := r.excludedTaskTypes.mapM (ofText? TaskType.text TASKS)
    | throw (.valueError "scheduler task exclusion is not controlled")
  let some lanes := r.workLanes.mapM (ofText? WorkLane.text WORK_LANES)
    | throw (.valueError "scheduler work lane is not controlled")
  if lanes = [] then
    throw (.valueError "scheduler work lane is not controlled")
  return (tasks.eraseDups.filter fun t => t ∉ excluded, lanes)

/-- `priority IN ('IMMEDIATE','FAST')` -/
def Priority.urgent (p : Priority) : Bool := p = .immediate || p = .fast

/-- The `WHERE` clause of the selection. -/
def ClaimRequest.claimable (r : ClaimRequest) (tasks : List TaskType) (lanes : List WorkLane)
    (j : Job) : Bool :=
  j.waiting && j.taskType ∈ tasks && j.laneClassified && j.provenanceKnown && j.workLane ∈ lanes &&
    decide (j.availableAt ≤ r.now) && r.queuedBefore.all (fun t => j.availableAt ≤ t) &&
    (r.pool ≠ "PREEMPTIBLE" || j.priority.urgent)

/-- The `ORDER BY` terms before the id. The sixth is compared among jobs that
    agree on the fifth: it is the time of the aged ones, and NULL, here 0, of
    all others. -/
def ClaimRequest.rank (r : ClaimRequest) (j : Job) (o : Option RetryOverride) : List ℤ :=
  let idle := o.any fun o => o.mode = .idleCapacity
  let overdue := o.any fun o => o.requestedAt ≤ r.now - IDLE_CAPACITY_MAX_WAIT
  let aged := decide (j.availableAt ≤ r.now - PRIORITY_HEAD_START)
  [ if idle && overdue then 0 else 1,
    if j.workLane = .live then 0 else 1,
    if j.taskType = TaskType.activeAnnotation && j.workLane = .live && j.priority.urgent then 0 else 1,
    if idle && !overdue then 1 else 0,
    if aged then 0 else 1,
    if aged then j.availableAt else 0,
    match j.priority with
      | .immediate => 0
      | .fast => 1
      | .normal => 2
      | .background => 3,
    match j.taskType with
      | .activeImpact => 0
      | TaskType.activeAnnotation => 1
      | .titleTranslation => 2,
    j.availableAt ]

def ClaimRequest.before (r : ClaimRequest) (a b : Job × Option RetryOverride) : Bool :=
  let (x, y) := (r.rank a.1 a.2, r.rank b.1 b.2)
  decide (x < y ∨ x = y ∧ a.1.jobId ≤ b.1.jobId)

/-- `LEFT JOIN news_ai_retry_schedule_overrides_v1 … AND active=1` -/
def Db.withActiveOverride (db : Db) (j : Job) : List (Job × Option RetryOverride) :=
  match db.overrides.rows.filter fun o => o.jobId = j.jobId && o.active with
  | [] => [(j, none)]
  | os => os.map fun o => (j, some o)

/-- The job a claim selects. -/
def ClaimRequest.select (r : ClaimRequest) (tasks : List TaskType) (lanes : List WorkLane)
    (db : Db) : Option Job :=
  (Table.firstBy r.before
    ((db.jobs.rows.filter (r.claimable tasks lanes)).flatMap db.withActiveOverride)).map (·.1)

/-- `ScheduledJob`, what a claim returns. -/
structure ScheduledJob where
  jobId : String
  taskType : TaskType
  source : String
  sourceItemId : String
  revisionNumber : ℤ
  annotationId : String
  promptVersion : String
  priority : Priority
  workLane : WorkLane
  provenanceResolved : Bool
  provenanceVersion : Option String
  provenanceOriginTask : Option String
  provenanceOriginRef : Option String
  state : JobState
  availableAt : ℤ
  leaseOwner : Option String
  leaseExpiresAt : Option ℤ
  attemptCount : ℤ
  deriving DecidableEq, Repr

/-- `_job_from_row`; an empty text reads as none. -/
def jobFromRow (j : Job) : ScheduledJob where
  jobId := j.jobId
  taskType := j.taskType
  source := j.source
  sourceItemId := j.sourceItemId
  revisionNumber := j.revisionNumber
  annotationId := j.annotationId
  promptVersion := j.promptVersion
  priority := j.priority
  workLane := j.workLane
  provenanceResolved := j.provenanceResolved
  provenanceVersion := j.provenanceVersion.filter (· ≠ "")
  provenanceOriginTask := j.provenanceOriginTask.filter (· ≠ "")
  provenanceOriginRef := j.provenanceOriginRef.filter (· ≠ "")
  state := j.state
  availableAt := j.availableAt
  leaseOwner := j.leaseOwner.filter (· ≠ "")
  leaseExpiresAt := j.leaseExpiresAt
  attemptCount := j.attemptCount

/-- A lease that `now` finds expired. -/
def Job.leaseExpired (now : ℤ) (j : Job) : Bool :=
  j.state = .leased && j.leaseExpiresAt.any (· ≤ now)

/-- The repair of an expired lease. -/
def Job.repaired (now : ℤ) (j : Job) : Job :=
  { j with
    state := .queued
    leaseOwner := none
    leaseExpiresAt := none
    updatedAt := now }

/-- The lease a claim writes. -/
def ClaimRequest.lease (r : ClaimRequest) (j : Job) : Job :=
  { j with
    state := .leased
    leaseOwner := some r.workerId
    leaseExpiresAt := some (r.now + max 30 r.leaseSeconds * IsoTime.second)
    attemptCount := j.attemptCount + 1
    updatedAt := r.now }

/-- The first statement of a claim. -/
def Db.repairExpiredLeases (db : Db) (now : ℤ) : Db :=
  db.updateJobs (Job.leaseExpired now) (Job.repaired now) fun _ => rfl

/-- The statements that lease the job `jobId`. -/
def ClaimRequest.leaseJob (r : ClaimRequest) (jobId : String) (db : Db) : Db :=
  (db.updateJobs (fun j => j.jobId = jobId && j.waiting) r.lease fun _ => rfl).closeOverrides
    fun o => o.jobId = jobId && o.active

/-- `claim_job` -/
def claimJob (r : ClaimRequest) (db : Db) : Outcome (Option ScheduledJob) × Db :=
  match r.scope with
  | .error e => (.error e, db)
  | .ok ([], _) => (.ok none, db)
  | .ok (tasks, lanes) =>
    let repaired := db.repairExpiredLeases r.now
    match r.select tasks lanes repaired with
    | none => (.ok none, repaired)
    | some row =>
      if repaired.jobs.hits (fun j => j.jobId = row.jobId && j.waiting) ≠ 1 then (.ok none, db)
      else
        let leased := r.leaseJob row.jobId repaired
        (.ok ((leased.jobs.find? row.jobId).map jobFromRow), leased)

/-! ## Transitions of a leased job -/

def leaseNotOwned : Raised := .valueError "scheduler lease is not owned by this worker"

/-- `job_id=? AND state='LEASED' AND lease_owner=?` -/
def Job.leasedTo (jobId workerId : String) (j : Job) : Bool :=
  j.jobId = jobId && j.state = .leased && j.leaseOwner = some workerId

/-- A leased job given back in the state `state`. -/
def Job.settled (j : Job) (state : JobState) (availableAt : ℤ) (error : Option String)
    (completedAt : Option ℤ) (clock : ℤ) : Job :=
  { j with
    state := state
    availableAt := availableAt
    leaseOwner := none
    leaseExpiresAt := none
    lastError := error
    updatedAt := clock
    completedAt := completedAt }

/-- `_transition_leased_job`; `clock` is the time it reads itself. -/
def transitionLeasedJob (jobId workerId : String) (state : JobState) (availableAt : ℤ)
    (error : Option String) (completedAt : Option ℤ) (clock : ℤ) (db : Db) : Outcome Unit × Db :=
  if db.jobs.hits (Job.leasedTo jobId workerId) = 1 then
    (.ok (), db.updateJobs (Job.leasedTo jobId workerId)
      (·.settled state availableAt error completedAt clock) fun _ => rfl)
  else (.error leaseNotOwned, db)

/-- `complete_job` -/
def completeJob (jobId workerId : String) (completed clock : ℤ) : Db → Outcome Unit × Db :=
  transitionLeasedJob jobId workerId .completed completed none (some completed) clock

/-- `release_job` -/
def releaseJob (jobId workerId : String) (availableAt : ℤ) (error : Option String) (clock : ℤ) :
    Db → Outcome Unit × Db :=
  transitionLeasedJob jobId workerId .queued availableAt error none clock

/-- `backoff_job` -/
def backoffJob (jobId workerId : String) (availableAt : ℤ) (error : String) (terminal : Bool)
    (clock : ℤ) : Db → Outcome Unit × Db :=
  transitionLeasedJob jobId workerId (if terminal then .deadLetter else .backingOff) availableAt
    (some error) (if terminal then some availableAt else none) clock

/-- `job_id=? AND state='LEASED' AND lease_owner=? AND attempt_count>0` -/
def Job.deferrable (jobId workerId : String) (j : Job) : Bool :=
  j.leasedTo jobId workerId && decide (0 < j.attemptCount)

/-- A leased job given back without counting the attempt. -/
def Job.deferred (j : Job) (availableAt : ℤ) (reason : String) (clock : ℤ) : Job :=
  { j with
    state := .queued
    availableAt := availableAt
    leaseOwner := none
    leaseExpiresAt := none
    lastError := some reason
    updatedAt := clock
    attemptCount := j.attemptCount - 1 }

theorem Job.deferred_jobId (availableAt : ℤ) (reason : String) (clock : ℤ) (j : Job) :
    (j.deferred availableAt reason clock).jobId = j.jobId := rfl

/-- `defer_job_for_maintenance` -/
def deferJobForMaintenance (jobId workerId : String) (availableAt : ℤ) (reason : String)
    (clock : ℤ) (db : Db) : Outcome Unit × Db :=
  if db.jobs.hits (Job.deferrable jobId workerId) = 1 then
    (.ok (), db.updateJobs (Job.deferrable jobId workerId) (·.deferred availableAt reason clock)
      fun _ => rfl)
  else (.error leaseNotOwned, db)

/-! ## Completions recorded with the evidence -/

/-- The `SET` clause of the upsert in `record_annotation_completion`. -/
def Job.completedAs (j new : Job) : Job :=
  { j with
    state := .completed
    availableAt := new.availableAt
    leaseOwner := none
    leaseExpiresAt := none
    lastError := none
    updatedAt := new.updatedAt
    completedAt := new.completedAt
    priority := new.priority
    workLane := new.workLane
    laneClassified := new.laneClassified
    provenanceResolved := new.provenanceResolved
    provenanceVersion := new.provenanceVersion
    provenanceOriginTask := new.provenanceOriginTask
    provenanceOriginRef := new.provenanceOriginRef }

/-- The completed job that `record_annotation_completion` inserts. -/
def completionJob (source sourceItemId : String) (revisionNumber : ℤ) (promptVersion : String)
    (completedAt : ℤ) (jobId : String) (resolved : Option WorkProvenance) : Job where
  jobId := jobId
  taskType := TaskType.activeAnnotation
  source := source
  sourceItemId := sourceItemId
  revisionNumber := revisionNumber
  annotationId := ""
  promptVersion := promptVersion
  priority := if (resolved.map (·.workLane)).getD .live = .contractBackfill then .background
    else .normal
  state := .completed
  availableAt := completedAt
  leaseOwner := none
  leaseExpiresAt := none
  attemptCount := 0
  lastError := none
  createdAt := completedAt
  updatedAt := completedAt
  completedAt := some completedAt
  workLane := (resolved.map (·.workLane)).getD .live
  laneClassified := resolved.isSome
  provenanceResolved := resolved.isSome
  provenanceVersion := resolved.map fun _ => WORK_PROVENANCE_VERSION
  provenanceOriginTask := resolved.map (·.originTask)
  provenanceOriginRef := resolved.map (·.originRef)

/-- The provenance a completion is recorded with: the one given, else the lane
    of the classified job there is, else none. -/
def completionProvenance (jobId : String) (provenance : Option WorkProvenance) (db : Db) :
    Outcome (Option WorkProvenance) :=
  match provenance, db.jobs.find? jobId with
  | some provenance, _ => .ok (some provenance)
  | none, some existing =>
    if existing.laneClassified then
      (WorkProvenance.make existing.workLane "ACTIVE_ANNOTATION" jobId).map some
    else .ok none
  | none, none => .ok none

/-- `record_annotation_completion` -/
def recordAnnotationCompletion (source sourceItemId : String) (revisionNumber : ℤ)
    (promptVersion : String) (completedAt : ℤ) (provenance : Option WorkProvenance) (db : Db) :
    Outcome Unit × Db :=
  let usable := db.evidence.annotations.any fun a =>
    a.source = source && a.sourceItemId = sourceItemId && a.revisionNumber = revisionNumber &&
      a.promptVersion = promptVersion && modelUsable a
  if !usable then (.ok (), db)
  else
    let jobId := jobIdOf P TaskType.activeAnnotation source sourceItemId revisionNumber "" promptVersion
    match completionProvenance jobId provenance db with
    | .error e => (.error e, db)
    | .ok resolved =>
      let job := completionJob source sourceItemId revisionNumber promptVersion completedAt jobId
        resolved
      match db.upsertJob job (fun j => j.state ≠ .leased) (·.completedAs job) fun _ => rfl with
      | .error e => (.error e, db)
      | .ok db' => (.ok (), db')

/-! ## Attempts -/

/-- `record_job_attempt`; of the row, what the scheduler reads. -/
def recordJobAttempt (job : ScheduledJob) (accountId credentialId : String) (attemptedAt : ℤ)
    (db : Db) : Outcome Unit × Db :=
  let identity := "|".intercalate [job.jobId, toString job.attemptCount, accountId, credentialId]
  (.ok (), { db with attempts := db.attempts.insertIgnore ⟨P.sha256 identity, job.jobId, attemptedAt⟩ })

end Xauusd.Scheduler
