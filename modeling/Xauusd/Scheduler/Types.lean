/-
  The AI job queue: its vocabularies and its rows
  (`news/scheduler/state.py`, `SCHEDULER_SCHEMA`).

  A controlled vocabulary (`TASKS`, `PRIORITIES`, `WORK_LANES`, the states of a
  job, the retry modes) is an inductive type with the text each value is stored
  as, so that a row cannot hold a text its CHECK constraint refuses.  A
  timestamp column holds the text `IsoTime.iso` of an instant, and is read here
  as the instant.
-/
import Xauusd.Lib.IsoTime
import Xauusd.Lib.Table
import Xauusd.Lib.Text

namespace Xauusd

namespace Scheduler

/-! ## Controlled vocabularies -/

inductive TaskType where
  | activeAnnotation
  | activeImpact
  | titleTranslation
  deriving DecidableEq, Repr

def TaskType.text : TaskType → String
  | activeAnnotation => "ACTIVE_ANNOTATION"
  | activeImpact => "ACTIVE_IMPACT"
  | titleTranslation => "TITLE_TRANSLATION"

def TASKS : List TaskType := [ TaskType.activeAnnotation, .activeImpact, .titleTranslation]

inductive Priority where
  | immediate
  | fast
  | normal
  | background
  deriving DecidableEq, Repr

def Priority.text : Priority → String
  | immediate => "IMMEDIATE"
  | fast => "FAST"
  | normal => "NORMAL"
  | background => "BACKGROUND"

def PRIORITIES : List Priority := [.immediate, .fast, .normal, .background]

inductive JobState where
  | queued
  | leased
  | backingOff
  | completed
  | deadLetter
  deriving DecidableEq, Repr

def JobState.text : JobState → String
  | queued => "QUEUED"
  | leased => "LEASED"
  | backingOff => "BACKING_OFF"
  | completed => "COMPLETED"
  | deadLetter => "DEAD_LETTER"

inductive WorkLane where
  | live
  | contractBackfill
  deriving DecidableEq, Repr

def WorkLane.text : WorkLane → String
  | live => "LIVE"
  | contractBackfill => "CONTRACT_BACKFILL"

def WORK_LANES : List WorkLane := [.live, .contractBackfill]

inductive RetryMode where
  | keepOriginal
  | immediate
  | delay15Min
  | delay1Hour
  | idleCapacity
  | customTime
  deriving DecidableEq, Repr

def RetryMode.text : RetryMode → String
  | keepOriginal => "KEEP_ORIGINAL"
  | immediate => "IMMEDIATE"
  | delay15Min => "DELAY_15_MIN"
  | delay1Hour => "DELAY_1_HOUR"
  | idleCapacity => "IDLE_CAPACITY"
  | customTime => "CUSTOM_TIME"

def RETRY_OVERRIDE_MODES : List RetryMode :=
  [.keepOriginal, .immediate, .delay15Min, .delay1Hour, .idleCapacity, .customTime]

/-- The value of a vocabulary stored as `s`, when there is one. -/
def ofText? {α : Type} (text : α → String) (values : List α) (s : String) : Option α :=
  values.find? fun v => text v = s

theorem text_of_ofText? {α : Type} {text : α → String} {values : List α} {s : String} {a : α}
    (h : ofText? text values s = some a) : text a = s := by
  simpa using List.find?_some h

def WORK_PROVENANCE_VERSION : String := "ai-work-provenance-v1"
def CURRENT_EVIDENCE_NO_LONGER_ELIGIBLE : String := "CURRENT_EVIDENCE_NO_LONGER_ELIGIBLE"
def PROVIDER_PROHIBITED_CONTENT : String := "PROVIDER_PROHIBITED_CONTENT"

/-! ## Rows -/

/-- A row of `news_ai_jobs_v1`. -/
structure Job where
  jobId : String
  taskType : TaskType
  source : String
  sourceItemId : String
  revisionNumber : ℤ
  annotationId : String
  promptVersion : String
  priority : Priority
  state : JobState
  availableAt : ℤ
  leaseOwner : Option String
  leaseExpiresAt : Option ℤ
  attemptCount : ℤ
  lastError : Option String
  createdAt : ℤ
  updatedAt : ℤ
  completedAt : Option ℤ
  workLane : WorkLane
  laneClassified : Bool
  provenanceResolved : Bool
  provenanceVersion : Option String
  provenanceOriginTask : Option String
  provenanceOriginRef : Option String
  deriving DecidableEq, Repr

/-- The columns of the table's `UNIQUE` constraint. -/
def Job.identity (j : Job) : TaskType × String × String × ℤ × String × String :=
  (j.taskType, j.source, j.sourceItemId, j.revisionNumber, j.annotationId, j.promptVersion)

/-- `state IN ('QUEUED','BACKING_OFF')` -/
def Job.waiting (j : Job) : Bool := j.state = .queued || j.state = .backingOff

/-- `task_type='ACTIVE_ANNOTATION' OR (provenance_resolved=1 AND provenance_version=?)` -/
def Job.provenanceKnown (j : Job) : Bool :=
  j.taskType = TaskType.activeAnnotation ||
    (j.provenanceResolved && j.provenanceVersion = some WORK_PROVENANCE_VERSION)

/-- A row of `news_ai_retry_schedule_overrides_v1`. -/
structure RetryOverride where
  overrideId : String
  requestId : String
  jobId : String
  taskType : TaskType
  operatorId : String
  mode : RetryMode
  requestedAt : ℤ
  originalAvailableAt : ℤ
  previousAvailableAt : ℤ
  requestedAvailableAt : Option ℤ
  effectiveAvailableAt : ℤ
  reason : String
  observedState : JobState
  resultingState : JobState
  active : Bool
  deriving DecidableEq, Repr

/-- What `_retry_job_snapshot` reports of a job. -/
structure RetryJobSnapshot where
  jobId : String
  taskType : TaskType
  source : String
  sourceItemId : String
  state : JobState
  priority : Priority
  availableAt : String
  attemptCount : ℤ
  lastError : Option String
  lastFailureAt : Option String
  title : String
  leaseOwner : Option String
  leaseExpiresAt : Option String
  overrideMode : Option RetryMode
  overrideRequestedAt : Option String
  originalAvailableAt : String
  deriving DecidableEq, Repr

/-- What `_reconciliation_input_key` encodes; the contract it also encodes is
    fixed with the program. -/
structure ReconciliationKey where
  jobRevision : ℕ
  newsRevisionHead : Option (ℕ × String × String × ℤ × String)
  annotationHead : Option (ℕ × String)
  titleTranslationHead : Option (ℕ × String)
  impactAssessmentHead : Option (ℕ × String)
  forwardEpoch : ℤ
  protectedDays : List String
  deriving DecidableEq, Repr

/-- The value under `NEWS_JOB_RECONCILIATION_CACHE_V1`. -/
structure ReconciliationCache where
  key : ReconciliationKey
  observedAt : ℤ
  deriving DecidableEq, Repr

/-- The exceptions the scheduler raises. -/
inductive Raised where
  | valueError (message : String)
  /-- `RetryScheduleConflict(code, current)` -/
  | retryScheduleConflict (code : String) (current : Option RetryJobSnapshot)
  /-- `sqlite3.IntegrityError` -/
  | integrityError
  /-- `TypeError`, of a subscript of `None` -/
  | typeError
  deriving DecidableEq, Repr

/-- What a call returns, or the exception it raises. -/
abbrev Outcome (α : Type) := Except Raised α

theorem Outcome.ite_error_eq_ok {α : Type} {c : Prop} [Decidable c] {e : Raised} {x : Outcome α}
    {a : α} : (if c then .error e else x) = .ok a ↔ ¬ c ∧ x = .ok a := by
  split <;> simp_all

theorem Outcome.bind_eq_ok {α β : Type} {x : Outcome α} {f : α → Outcome β} {b : β} :
    x.bind f = .ok b ↔ ∃ a, x = .ok a ∧ f a = .ok b := by
  cases x <;> simp [Except.bind]

theorem Outcome.map_eq_ok {α β : Type} {x : Outcome α} {f : α → β} {b : β} :
    x.map f = .ok b ↔ ∃ a, x = .ok a ∧ f a = b := by
  cases x <;> simp [Except.map]

/-! ## Provenance -/

/-- `WorkProvenance`: `__post_init__` refuses a blank origin. -/
structure WorkProvenance where
  workLane : WorkLane
  originTask : String
  originRef : String
  origin : Text.strip originTask ≠ "" ∧ Text.strip originRef ≠ ""
  deriving DecidableEq

def WorkProvenance.make (workLane : WorkLane) (originTask originRef : String) :
    Outcome WorkProvenance :=
  if h : Text.strip originTask ≠ "" ∧ Text.strip originRef ≠ "" then
    .ok ⟨workLane, originTask, originRef, h⟩
  else .error (.valueError "work provenance origin is required")

end Scheduler

/-- Functions of the platform the program runs on, and of its configuration. -/
structure Platform where
  /-- `hashlib.sha256(text.encode("utf-8")).hexdigest()` -/
  sha256 : String → String
  /-- `substr(datetime(time,'+8 hours'),1,10)` -/
  receiptDay : ℤ → String
  /-- the day number of `instant.astimezone(zone).date()` -/
  localDay : String → ℤ → ℤ
  /-- `instant.astimezone(zone).hour` -/
  localHour : String → ℤ → ℕ
  /-- the next midnight of the zone after an instant -/
  nextLocalMidnight : String → ℤ → ℤ
  /-- the bytes of a reconciliation key's JSON -/
  keyBytes : Scheduler.ReconciliationKey → ℕ
  /-- the bytes of a cached reconciliation's JSON -/
  cacheBytes : Scheduler.ReconciliationCache → ℕ

/-- A platform to run the model on: the Pacific zone as it is in winter, eight
    hours behind UTC, and a digest and sizes that stand for the real ones. -/
def Platform.winter : Platform where
  sha256 text := text
  receiptDay t := String.ofList ((IsoTime.iso (t + 8 * IsoTime.hour)).toList.take 10)
  localDay _ t := (t - 8 * IsoTime.hour) / IsoTime.day
  localHour _ t := ((t - 8 * IsoTime.hour) % IsoTime.day / IsoTime.hour).toNat
  nextLocalMidnight _ t :=
    ((t - 8 * IsoTime.hour) / IsoTime.day + 1) * IsoTime.day + 8 * IsoTime.hour
  keyBytes _ := 0
  cacheBytes _ := 0

end Xauusd
