/-
  Operator overrides of retry times (`news/scheduler/state.py`).

  * `listRetryScheduleJobs` is the list an operator is shown, each job as the
    texts of `retryJobSnapshot`;
  * `applyRetryScheduleOverride` records one override and moves the job's
    availability, if the job still has the state and the availability text the
    operator saw.
-/
import Xauusd.Scheduler.Jobs

namespace Xauusd.Scheduler

/-! ## Snapshots -/

/-- `_retry_job_snapshot`; `title`, `lastFailureAt` and the override columns
    are those of the query, if it has them.  An empty text reads as none. -/
def retryJobSnapshot (row : Job) (override : Option (RetryMode × ℤ) := none)
    (originalAvailableAt : Option ℤ := none) (title : Option String := none)
    (lastFailureAt : Option ℤ := none) : RetryJobSnapshot where
  jobId := row.jobId
  taskType := row.taskType
  source := row.source
  sourceItemId := row.sourceItemId
  state := row.state
  priority := row.priority
  availableAt := IsoTime.iso row.availableAt
  attemptCount := row.attemptCount
  lastError := row.lastError.filter (· ≠ "")
  lastFailureAt := lastFailureAt.map IsoTime.iso
  title := (title.filter (· ≠ "")).getD row.sourceItemId
  leaseOwner := row.leaseOwner.filter (· ≠ "")
  leaseExpiresAt := row.leaseExpiresAt.map IsoTime.iso
  overrideMode := override.map (·.1)
  overrideRequestedAt := override.map fun o => IsoTime.iso o.2
  originalAvailableAt := IsoTime.iso (originalAvailableAt.getD row.availableAt)

/-! ## Listing -/

/-- The errors that only say a job waits for capacity. -/
def DEFERRAL_ERRORS : List String :=
  ["BACKFILL_BUDGET_DEFERRED", "MODEL_CAPACITY_DEFERRED", "PROVIDER_DISPATCH_DEFERRED",
    "CURRENT_EVIDENCE_NOT_AVAILABLE"]

/-- The title of a job: its newest translation, else its headline, else its id. -/
def Evidence.jobTitle (e : Evidence) (j : Job) : String :=
  let translations := e.titleTranslations.filter fun t =>
    t.source = j.source && t.sourceItemId = j.sourceItemId && t.revisionNumber = j.revisionNumber
  let revision := e.revisions.find? fun n =>
    n.source = j.source && n.sourceItemId = j.sourceItemId && n.revisionNumber = j.revisionNumber
  match Table.firstBy (fun t u => decide (u.parsedAt ≤ t.parsedAt)) translations, revision with
  | some t, _ => t.headlineZh
  | none, some n => n.headline
  | none, none => j.sourceItemId

/-- `SELECT max(attempted_at) …` -/
def Db.lastFailureAt (db : Db) (j : Job) : Option ℤ :=
  ((db.attempts.rows.filter fun a => a.jobId = j.jobId).map (·.attemptedAt)).max?

/-- The `WHERE` clause of the list. -/
def Job.retryListed (j : Job) (o : Option RetryOverride) : Bool :=
  (j.waiting || j.state = .leased) && j.taskType ∈ TASKS &&
    ((j.lastError.any fun e => Text.trimBlanks e ≠ "" && e ∉ DEFERRAL_ERRORS) || o.isSome)

def Job.retryRank (j : Job) : List ℤ :=
  [ match j.state with
      | .backingOff => 0
      | .queued => 1
      | _ => 2,
    j.availableAt, j.createdAt ]

def retryBefore (a b : Job × Option RetryOverride) : Bool :=
  decide (a.1.retryRank < b.1.retryRank ∨ a.1.retryRank = b.1.retryRank ∧ a.1.jobId ≤ b.1.jobId)

/-- The rows of the list, with the active override of each. -/
def Db.retryRows (db : Db) (limit : ℤ) : List (Job × Option RetryOverride) :=
  (((db.jobs.rows.flatMap db.withActiveOverride).filter fun r => r.1.retryListed r.2).insertionSort
    fun a b => retryBefore a b = true).take (max 1 (min 500 limit)).toNat

/-- `list_retry_schedule_jobs` -/
def listRetryScheduleJobs (limit : ℤ) (db : Db) : List RetryJobSnapshot :=
  (db.retryRows limit).map fun (j, o) =>
    retryJobSnapshot j (o.map fun o => (o.mode, o.requestedAt)) (o.map (·.originalAvailableAt))
      (some (db.evidence.jobTitle j)) (db.lastFailureAt j)

/-! ## Applying -/

structure OverrideRequest where
  requestId : String
  jobId : String
  operatorId : String
  mode : String
  reason : String
  expectedState : String
  expectedAvailableAt : String
  requestedAvailableAt : Option ℤ := none
  now : ℤ
  /-- the `uuid4` that becomes the override id -/
  overrideId : String

/-- The arguments after the checks of `apply_retry_schedule_override`. -/
structure CheckedOverride where
  requestId : String
  operatorId : String
  mode : RetryMode
  reason : String

/-- The checks before the transaction. -/
def OverrideRequest.check (r : OverrideRequest) : Outcome CheckedOverride := do
  let requestId := Text.strip r.requestId
  let operatorId := Text.strip r.operatorId
  let reason := Text.joinWords r.reason
  if requestId = "" ∨ 128 < Text.len requestId then
    throw (.valueError "retry override request_id is invalid")
  if operatorId = "" ∨ 256 < Text.len operatorId then
    throw (.valueError "retry override operator is invalid")
  let some mode := ofText? RetryMode.text RETRY_OVERRIDE_MODES (Text.upper (Text.strip r.mode))
    | throw (.valueError "retry override mode is invalid")
  if reason = "" ∨ 500 < Text.len reason then
    throw (.valueError "retry override reason is invalid")
  if mode = .customTime ∧ r.requestedAvailableAt = none then
    throw (.valueError "custom retry time is required")
  if mode ≠ .customTime ∧ r.requestedAvailableAt ≠ none then
    throw (.valueError "requested retry time is only valid for custom mode")
  if r.requestedAvailableAt.any fun custom => custom < r.now - 5 * IsoTime.minute then
    throw (.valueError "custom retry time is too far in the past")
  return ⟨requestId, operatorId, mode, reason⟩

/-- The time a mode prescribes, `original` being the availability before the
    first active override. -/
def effectiveAvailableAt (mode : RetryMode) (now original : ℤ) (custom : Option ℤ) : ℤ :=
  match mode with
  | .keepOriginal => original
  | .immediate => now
  | .delay15Min => now + 15 * IsoTime.minute
  | .delay1Hour => now + IsoTime.hour
  | .idleCapacity => now
  | .customTime => custom.getD now

/-- The override row of a request on the job `row`. -/
def OverrideRequest.override (r : OverrideRequest) (c : CheckedOverride) (row : Job)
    (original : ℤ) (active : Bool) : RetryOverride where
  overrideId := r.overrideId
  requestId := c.requestId
  jobId := r.jobId
  taskType := row.taskType
  operatorId := c.operatorId
  mode := c.mode
  requestedAt := r.now
  originalAvailableAt := original
  previousAvailableAt := row.availableAt
  requestedAvailableAt := r.requestedAvailableAt
  effectiveAvailableAt := effectiveAvailableAt c.mode r.now original r.requestedAvailableAt
  reason := c.reason
  observedState := row.state
  resultingState := row.state
  active := active

/-- `INSERT INTO news_ai_retry_schedule_overrides_v1`; the request id is unique. -/
def Db.insertOverride (db : Db) (o : RetryOverride) : Outcome Db :=
  if (db.overrides.find? o.requestId).isSome then .error .integrityError
  else .ok { db with overrides := db.overrides.insertIgnore o }

/-- The override already recorded for a request, with its job. -/
def Db.recordedOverride (db : Db) (requestId : String) : Option (RetryOverride × Job) := do
  let o ← db.overrides.find? requestId
  let j ← db.jobs.find? o.jobId
  return (o, j)

/-- The active override of a job that the query reads first. -/
def Db.activeOverride (db : Db) (jobId : String) : Option RetryOverride :=
  db.overrides.rows.find? fun o => o.jobId = jobId && o.active

/-- The active overrides of a job become inactive. -/
def Db.deactivateOverrides (db : Db) (jobId : String) : Db :=
  db.closeOverrides fun o => o.jobId = jobId && o.active

/-- The guard of the availability update. -/
def OverrideRequest.matchesJob (r : OverrideRequest) (j : Job) : Bool :=
  j.jobId = r.jobId && j.state.text = r.expectedState &&
    IsoTime.iso j.availableAt = r.expectedAvailableAt && j.waiting

/-- The availability before the first active override. -/
def OverrideRequest.original (r : OverrideRequest) (db : Db) (row : Job) : ℤ :=
  ((db.activeOverride r.jobId).map (·.originalAvailableAt)).getD row.availableAt

/-- A job whose availability an override moves. -/
def Job.rescheduled (j : Job) (availableAt now : ℤ) : Job :=
  { j with
    availableAt := availableAt
    updatedAt := now }

/-- The statements that move the job's availability to that of `o`. -/
def OverrideRequest.reschedule (r : OverrideRequest) (o : RetryOverride) (db : Db) : Db :=
  (db.deactivateOverrides r.jobId).updateJobs r.matchesJob
    (·.rescheduled o.effectiveAvailableAt r.now) fun _ => rfl

/-- The body of the transaction. -/
def OverrideRequest.apply (r : OverrideRequest) (c : CheckedOverride) (db : Db) :
    Outcome (RetryJobSnapshot × Db) := do
  if let some (o, job) := db.recordedOverride c.requestId then
    if job.jobId ≠ r.jobId then throw (.retryScheduleConflict "IDEMPOTENCY_CONFLICT" none)
    return (retryJobSnapshot job (if o.active then some (o.mode, o.requestedAt) else none)
      (if o.active then some o.originalAvailableAt else none), db)
  let some row := db.jobs.find? r.jobId
    | throw (.retryScheduleConflict "JOB_NOT_FOUND" none)
  let current := retryJobSnapshot row
  if !row.waiting ∨ row.taskType ∉ TASKS then
    throw (.retryScheduleConflict "JOB_NOT_MUTABLE" (some current))
  if row.state.text ≠ r.expectedState ∨ IsoTime.iso row.availableAt ≠ r.expectedAvailableAt then
    throw (.retryScheduleConflict "JOB_STATE_CHANGED" (some current))
  let original := r.original db row
  if c.mode = .keepOriginal ∧ db.activeOverride r.jobId = none then
    return (current, ← db.insertOverride (r.override c row original false))
  if (db.deactivateOverrides r.jobId).jobs.hits r.matchesJob ≠ 1 then
    throw (.retryScheduleConflict "JOB_STATE_CHANGED" (some current))
  let o := r.override c row original true
  let result ← (r.reschedule o db).insertOverride o
  return (retryJobSnapshot (row.rescheduled o.effectiveAvailableAt r.now)
    (some (o.mode, o.requestedAt)) (some original), result)

/-- `apply_retry_schedule_override` -/
def applyRetryScheduleOverride (r : OverrideRequest) (db : Db) : Outcome RetryJobSnapshot × Db :=
  match r.check with
  | .error e => (.error e, db)
  | .ok c =>
    match r.apply c db with
    | .error e => (.error e, db)
    | .ok (snapshot, db') => (.ok snapshot, db')

/-! ## What an override does -/

/-- The job of a request, as the request expects it. -/
def OverrideRequest.expects (r : OverrideRequest) (row : Job) : Prop :=
  row.waiting = true ∧ row.state.text = r.expectedState ∧
    IsoTime.iso row.availableAt = r.expectedAvailableAt

/-- The override that a request records for the job `row` in `db`. -/
def OverrideRequest.recorded (r : OverrideRequest) (c : CheckedOverride) (db : Db) (row : Job) :
    RetryOverride :=
  r.override c row (r.original db row)
    (decide ¬ (c.mode = .keepOriginal ∧ db.activeOverride r.jobId = none))

/-- The database after the statements before the override is inserted: an
    inactive override moves nothing. -/
def OverrideRequest.moved (r : OverrideRequest) (o : RetryOverride) (db : Db) : Db :=
  if o.active then r.reschedule o db else db

/-- The request id that a checked request is recorded under. -/
theorem OverrideRequest.check_requestId {r : OverrideRequest} {c : CheckedOverride}
    (h : r.check = .ok c) : c.requestId = Text.strip r.requestId := by
  simp only [check, bind, Except.bind, pure, Except.pure, throw, throwThe,
    MonadExceptOf.throw, Outcome.ite_error_eq_ok] at h
  obtain ⟨-, -, h⟩ := h
  cases hmode : ofText? RetryMode.text RETRY_OVERRIDE_MODES (Text.upper (Text.strip r.mode)) with
  | none => simp [hmode] at h
  | some mode =>
    simp only [hmode, Outcome.ite_error_eq_ok] at h
    obtain ⟨-, -, -, -, h⟩ := h
    obtain rfl := Except.ok.inj h
    rfl

/-- A successful override finds its request recorded and does nothing, or finds
    the job as expected, moves it and records the override. -/
theorem OverrideRequest.apply_cases {r : OverrideRequest} {c : CheckedOverride}
    {snapshot : RetryJobSnapshot} {db db' : Db} (h : r.apply c db = .ok (snapshot, db')) :
    (db' = db ∧ ∃ o job, db.recordedOverride c.requestId = some (o, job) ∧ job.jobId = r.jobId) ∨
      (db.recordedOverride c.requestId = none ∧ ∃ row, db.jobs.find? r.jobId = some row ∧
        r.expects row ∧ (r.moved (r.recorded c db row) db).insertOverride (r.recorded c db row) =
          .ok db') := by
  simp only [apply, bind, pure, Except.pure, throw, throwThe, MonadExceptOf.throw] at h
  cases hrecorded : db.recordedOverride c.requestId with
  | some x =>
    simp only [hrecorded, Except.bind, Outcome.ite_error_eq_ok, Except.ok.injEq,
      Prod.mk.injEq] at h
    exact .inl ⟨h.2.2.symm, x.1, x.2, rfl, not_not.1 h.1⟩
  | none =>
    cases hrow : db.jobs.find? r.jobId with
    | none => simp [hrecorded, hrow] at h
    | some row =>
      simp only [hrecorded, hrow, Except.bind, Outcome.ite_error_eq_ok] at h
      obtain ⟨hmutable, hexpected, h⟩ := h
      simp only [not_or, not_not, Bool.not_eq_true', Bool.not_eq_false] at hmutable hexpected
      refine .inr ⟨rfl, row, rfl, ⟨hmutable.1, hexpected⟩, ?_⟩
      by_cases hkeep : c.mode = .keepOriginal ∧ db.activeOverride r.jobId = none
      · have hrec : r.recorded c db row = r.override c row (r.original db row) false := by
          simp [recorded, hkeep]
        have hmov : r.moved (r.override c row (r.original db row) false) db = db := by
          simp [moved, override]
        rw [if_pos hkeep] at h
        rw [hrec, hmov]
        split at h
        · contradiction
        · next v hv => rw [← (Prod.mk.inj (Except.ok.inj h)).2, ← hv]
      · have hrec : r.recorded c db row = r.override c row (r.original db row) true := by
          simp [recorded, hkeep]
        have hmov : r.moved (r.override c row (r.original db row) true) db =
            r.reschedule (r.override c row (r.original db row) true) db := by
          simp [moved, override]
        rw [if_neg hkeep, Outcome.ite_error_eq_ok] at h
        rw [hrec, hmov]
        split at h
        · exact absurd h.2 (by simp)
        · next v hv => rw [← (Prod.mk.inj (Except.ok.inj h.2)).2, ← hv]

/-- A call changes nothing, or moves the job it expects and records its
    override. -/
theorem applyRetryScheduleOverride_cases (r : OverrideRequest) (db : Db) :
    (applyRetryScheduleOverride r db).2 = db ∨ ∃ c row, r.check = .ok c ∧
      db.recordedOverride c.requestId = none ∧ db.jobs.find? r.jobId = some row ∧ r.expects row ∧
      (r.moved (r.recorded c db row) db).insertOverride (r.recorded c db row) =
        .ok (applyRetryScheduleOverride r db).2 := by
  unfold applyRetryScheduleOverride
  split
  · exact .inl rfl
  · next c hc =>
    split
    · exact .inl rfl
    · next h =>
      obtain ⟨rfl, -⟩ | ⟨hnone, row, hrow, hexpects, hinsert⟩ := OverrideRequest.apply_cases h
      · exact .inl rfl
      · exact .inr ⟨c, row, hc, hnone, hrow, hexpects, hinsert⟩

/-- A recorded override is new, and nothing else changes with its insertion. -/
theorem Db.insertOverride_ok {o : RetryOverride} {db db' : Db} (h : db.insertOverride o = .ok db') :
    db.overrides.find? o.requestId = none ∧
      db' = { db with overrides := db.overrides.insertIgnore o } := by
  rw [insertOverride, Outcome.ite_error_eq_ok] at h
  exact ⟨by simpa using h.1, (Except.ok.inj h.2).symm⟩

end Xauusd.Scheduler
