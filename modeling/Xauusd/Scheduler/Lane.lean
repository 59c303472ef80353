/-
  The lanes that execute claimed jobs (`news/scheduler/runtime.py`).

  A turn is what `_run_scheduled_lane` does with one claimed job: it executes
  the job with one credential after another, records each execution that was
  not a maintenance deferral, and ends the lease by the outcome of the last.

  * `Turn.executed`, `Turn.ending`: the body of the loop over the candidates,
    and the branches after it;
  * `Lanes`: the database, the turns of all lanes, and the executions recorded;
  * `LaneAction.exec`: a claim, one execution, the end of a turn, or a call of
    the rest of the program, so that turns interleave and may stop anywhere.
-/
import Xauusd.Scheduler.Writes

namespace Xauusd.Scheduler

/-! ## Executions -/

/-- `ApiCredential`, without the key and the pool. -/
structure ApiCredential where
  accountId : String
  credentialId : String
  deriving DecidableEq, Repr

/-- What the lane reads of the status of an execution; `nextRetryAt` is none if
    it is missing or no timestamp. -/
structure ExecutionStatus where
  status : String
  failureCode : Option String := none
  providerHttpStatus : Option ℤ := none
  isTerminal : Bool := false
  error : Option String := none
  nextRetryAt : Option ℤ := none
  deriving DecidableEq, Repr

def MAINTENANCE_DEFERRAL_CODES : List String :=
  ["NEWS_EMBEDDING_BACKFILL_PENDING", "NEWS_EMBEDDING_CAPACITY_DEFERRED",
    "NEWS_EMBEDDING_PROVIDER_THROTTLED", "NEWS_EMBEDDING_PROVIDER_TRANSPORT_FAILED",
    "NEWS_EMBEDDING_PROVIDER_RESPONSE_INVALID", "PROVIDER_DISPATCH_DEFERRED",
    "BACKFILL_BUDGET_DEFERRED"]

/-- `_with_scheduler_failure_code` -/
def withSchedulerFailureCode (s : ExecutionStatus) : ExecutionStatus :=
  if (s.failureCode.filter (· ≠ "")).isSome then s
  else if s.status = "DEFERRED" then { s with failureCode := some "MODEL_CAPACITY_DEFERRED" }
  else if s.status = "DISABLED" then { s with failureCode := some "MODEL_ROUTE_DISABLED" }
  else s

/-- `status.get("failure_code") in MAINTENANCE_DEFERRAL_CODES` -/
def ExecutionStatus.maintenanceDeferred (s : ExecutionStatus) : Bool :=
  s.failureCode.any fun code => code ∈ MAINTENANCE_DEFERRAL_CODES

/-- `_may_try_another_credential` -/
def mayTryAnotherCredential (s : ExecutionStatus) : Bool :=
  !s.maintenanceDeferred && (s.status = "DEFERRED" || s.status = "DISABLED" ||
    s.providerHttpStatus.any fun code => code ∈ [401, 403, 429, 500, 502, 503, 504])

/-- `_next_retry` -/
def nextRetry (s : ExecutionStatus) (now : ℤ) : ℤ := s.nextRetryAt.getD (now + IsoTime.minute)

/-- `str(status.get("status") or "ERROR")` -/
def ExecutionStatus.outcome (s : ExecutionStatus) : String :=
  if s.status = "" then "ERROR" else s.status

/-- The first text that is not empty, else the last. -/
def firstText (texts : List (Option String)) (last : String) : String :=
  ((texts.findSome? fun t => t.filter (· ≠ ""))).getD last

/-! ## Turns -/

/-- One claimed job in the hands of a lane. -/
structure Turn where
  serial : ℕ
  workerId : String
  job : ScheduledJob
  /-- the candidates not tried yet -/
  candidates : List ApiCredential
  blockedAccounts : List String
  /-- the credentials of the recorded executions -/
  attempted : List ApiCredential
  /-- the last execution -/
  last : Option (ExecutionStatus × ApiCredential × ℤ)
  executedAt : ℤ
  ended : Bool
  /-- the attempt number was given back -/
  gaveBack : Bool

/-- The loop skips the candidates of blocked accounts. -/
def Turn.remaining (t : Turn) : List ApiCredential :=
  t.candidates.dropWhile fun c => c.accountId ∈ t.blockedAccounts

/-- The turn after an execution with `c`, the candidates `rest` being left. -/
def Turn.executed (t : Turn) (c : ApiCredential) (rest : List ApiCredential) (s : ExecutionStatus)
    (attemptedAt : ℤ) : Turn :=
  { t with
    candidates := if mayTryAnotherCredential s then rest else []
    blockedAccounts :=
      if s.providerHttpStatus = some 401 ∨ s.providerHttpStatus = some 403 then t.blockedAccounts
      else c.accountId :: t.blockedAccounts
    attempted := if s.maintenanceDeferred then t.attempted else c :: t.attempted
    last := some (s, c, attemptedAt) }

def Turn.status (t : Turn) : ExecutionStatus :=
  (t.last.map (·.1)).getD { status := "DEFERRED", failureCode := some "MODEL_CAPACITY_DEFERRED" }

def Turn.outcomeAt (t : Turn) : ℤ := (t.last.map (·.2.2)).getD t.executedAt

/-- `(15, 60, 360, 720)[min(max(job.attempt_count - 1, 0), 3)]` minutes -/
def pendingEvidenceDelay (attemptCount : ℤ) : ℤ :=
  if attemptCount ≤ 1 then 15 * IsoTime.minute
  else if attemptCount = 2 then 60 * IsoTime.minute
  else if attemptCount = 3 then 360 * IsoTime.minute
  else 720 * IsoTime.minute

/-- How a turn ends its lease. -/
inductive Ending where
  | complete
  | backoff (availableAt : ℤ) (error : String)
  | release (availableAt : ℤ) (error : String)
  | defer (availableAt : ℤ) (reason accountId : String) (deferredAt : ℤ)
  deriving DecidableEq, Repr

/-- The branches on the outcome of the last execution. -/
def Turn.ending (t : Turn) (now : ℤ) : Ending :=
  let s := t.status
  let outcome := s.outcome
  if outcome = "OK" then .complete
  else if outcome = "SKIPPED" then .backoff t.outcomeAt PROVIDER_PROHIBITED_CONTENT
  else if outcome = "PENDING_EVIDENCE" then
    .release (t.outcomeAt + pendingEvidenceDelay t.job.attemptCount) "CURRENT_EVIDENCE_NOT_AVAILABLE"
  else if s.maintenanceDeferred then
    .defer (nextRetry s t.outcomeAt) (s.failureCode.getD "")
      ((t.last.map (·.2.1.accountId)).getD "") t.outcomeAt
  else if outcome = "DEFERRED" ∨ outcome = "DISABLED" then
    .release (nextRetry s t.outcomeAt) (firstText [s.failureCode] outcome)
  else if s.isTerminal then .backoff (nextRetry s t.outcomeAt) (firstText [s.error] outcome)
  else .release now (firstText [s.failureCode, s.error] outcome)

/-- The turn ends in a maintenance deferral. -/
def Turn.defers (t : Turn) (now : ℤ) : Bool :=
  match t.ending now with
  | .defer .. => true
  | _ => false

/-- The calls that end the lease. -/
def Turn.finish (P : Platform) (t : Turn) (now : ℤ) (db : Db) : Outcome Unit × Db :=
  match t.ending now with
  | .complete => completeJob t.job.jobId t.workerId now now db
  | .backoff availableAt error =>
    backoffJob t.job.jobId t.workerId availableAt error true now db
  | .release availableAt error =>
    releaseJob t.job.jobId t.workerId availableAt (some error) now db
  | .defer availableAt reason accountId deferredAt =>
    deferJobForMaintenance t.job.jobId t.workerId availableAt reason now
      { db with
        capacity := (recordSchedulerDeferral P t.job.jobId accountId reason deferredAt db.capacity).2 }

/-! ## Lanes -/

/-- An execution that the lane records. -/
structure Execution where
  jobId : String
  attemptCount : ℤ
  credential : ApiCredential
  attemptedAt : ℤ
  deriving DecidableEq, Repr

/-- `attempt_id` -/
def Execution.attemptId (P : Platform) (e : Execution) : String :=
  P.sha256 ("|".intercalate
    [e.jobId, toString e.attemptCount, e.credential.accountId, e.credential.credentialId])

/-- The row of an execution. -/
def Execution.row (P : Platform) (e : Execution) : JobAttempt :=
  ⟨e.attemptId P, e.jobId, e.attemptedAt⟩

structure Lanes where
  db : Db
  turns : Table Turn.serial
  /-- the turns opened so far -/
  opened : ℕ
  /-- the executions recorded so far -/
  executions : List Execution

def Lanes.empty : Lanes := ⟨.empty, .empty, 0, []⟩

/-- A call that only the lanes make. -/
def Call.ofLane : Call → Prop
  | .job (.claim _) | .job (.complete ..) | .job (.release ..) | .job (.backoff ..)
  | .job (.deferForMaintenance ..) | .job (.recordAttempt ..) => True
  | _ => False

inductive LaneAction where
  | claim (r : ClaimRequest) (candidates : List ApiCredential)
  | execute (serial : ℕ) (status : ExecutionStatus) (attemptedAt : ℤ)
  | finish (serial : ℕ) (now : ℤ)
  /-- the process of the lane stops -/
  | stop (serial : ℕ)
  | other (c : { c : Call // ¬ c.ofLane })

section
variable (P : Platform)

/-- A claim, and the turn it opens. -/
def Lanes.claim (s : Lanes) (r : ClaimRequest) (candidates : List ApiCredential) : Lanes :=
  match claimJob r s.db with
  | (.ok (some job), db) =>
    { s with
      db := db
      turns := s.turns.insertIgnore
        { serial := s.opened, workerId := r.workerId, job := job, candidates := candidates,
          blockedAccounts := [], attempted := [], last := none, executedAt := r.now, ended := false,
          gaveBack := false }
      opened := s.opened + 1 }
  | (_, db) => { s with db := db }

/-- The turn `t` becomes `t'`. -/
def Lanes.setTurn (s : Lanes) (serial : ℕ) (f : Turn → Turn) (hf : ∀ t, (f t).serial = t.serial) :
    Lanes :=
  { s with turns := s.turns.update (fun t => t.serial = serial) f hf }

/-- The execution of a turn with `c`. -/
def Turn.execution (t : Turn) (c : ApiCredential) (attemptedAt : ℤ) : Execution :=
  ⟨t.job.jobId, t.job.attemptCount, c, attemptedAt⟩

/-- `record_job_attempt`, unless the execution was deferred for maintenance. -/
def Lanes.record (s : Lanes) (t : Turn) (c : ApiCredential) (status : ExecutionStatus)
    (attemptedAt : ℤ) : Lanes :=
  if status.maintenanceDeferred then s
  else { s with
    db := (recordJobAttempt P t.job c.accountId c.credentialId attemptedAt s.db).2
    executions := s.executions ++ [t.execution c attemptedAt] }

/-- The next execution of a turn at work. -/
def Lanes.execute (s : Lanes) (serial : ℕ) (status : ExecutionStatus) (attemptedAt : ℤ) : Lanes :=
  match s.turns.find? serial with
  | some t =>
    match t.ended, t.remaining with
    | false, c :: rest =>
      let status := withSchedulerFailureCode status
      (s.record P t c status attemptedAt).setTurn serial
        (·.executed c rest status attemptedAt) fun _ => rfl
    | _, _ => s
  | none => s

/-- The end of a turn at work that has no candidate left. -/
def Lanes.finish (s : Lanes) (serial : ℕ) (now : ℤ) : Lanes :=
  match s.turns.find? serial with
  | some t =>
    match t.ended, t.remaining with
    | false, [] =>
      let (result, db) := t.finish P now s.db
      { s with db := db }.setTurn serial
        (fun t' => { t' with ended := true, gaveBack := t.defers now && result.isOk }) fun _ => rfl
    | _, _ => s
  | none => s

def LaneAction.exec (s : Lanes) : LaneAction → Unit × Lanes
  | claim r candidates => ((), s.claim r candidates)
  | execute serial status attemptedAt => ((), s.execute P serial status attemptedAt)
  | finish serial now => ((), s.finish P serial now)
  | stop serial => ((), s.setTurn serial (fun t => { t with ended := true }) fun _ => rfl)
  | other c => ((), { s with db := (Scheduler.exec P s.db c.1).2 })

end

end Xauusd.Scheduler
