/-
  The operator bridge (`dashboard/operator_bridge.py`, `dashboard/sync/resources.py`):
  a claimed request is applied to the local scheduler.

  * `applyRetryOverride` is one item of `apply_retry_overrides`;
  * `CloudCall.exec` is one request to the Worker.
-/
import Xauusd.Scheduler.Writes
import Xauusd.Operator.Requests

namespace Xauusd.Operator

open Scheduler (Db RetryJobSnapshot OverrideRequest Outcome Raised applyRetryScheduleOverride)

/-! ## Applying a request -/

/-- The functions of both runtimes. -/
structure Runtimes extends Web where
  platform : Platform
  /-- `datetime.fromisoformat`, of a text with a zone -/
  fromIsoformat : String → Option ℤ

/-- What is reported of one item. -/
inductive OverrideResult where
  | applied (current : RetryJobSnapshot)
  | conflict (code : String) (current : Option RetryJobSnapshot)
  | rejected (code error : String)
  deriving DecidableEq, Repr

def OverrideResult.status : OverrideResult → RequestStatus
  | applied _ => .applied
  | conflict _ _ => .conflict
  | rejected _ _ => .rejected

/-- `datetime.fromisoformat(str(requested_at)) if requested_at else None` -/
def customTime (R : Runtimes) (requestedAvailableAt : Option String) : Outcome (Option ℤ) :=
  match requestedAvailableAt.filter (· ≠ "") with
  | none => .ok none
  | some text =>
    match R.fromIsoformat text with
    | some t => .ok (some t)
    | none => .error (.valueError ("Invalid isoformat string: '" ++ text ++ "'"))

/-- The arguments that the bridge passes on. -/
def RetryRequest.arguments (r : RetryRequest) (custom : Option ℤ) (now : ℤ) (overrideId : String) :
    OverrideRequest where
  requestId := r.requestId
  jobId := r.jobId
  operatorId := Text.strip r.operatorId
  mode := r.mode.text
  reason := r.reason
  expectedState := r.expectedState
  expectedAvailableAt := r.expectedAvailableAt
  requestedAvailableAt := custom
  now := now
  overrideId := overrideId

/-- The checks of `apply_retry_overrides` on the payload. -/
def operatorAllowed (operatorId : String) : Bool :=
  "cloudflare-access:".toList.isPrefixOf (Text.strip operatorId).toList &&
    Text.len (Text.strip operatorId) ≤ 500

/-- What is reported of an exception, if it is caught. -/
def OverrideResult.ofRaised : Raised → Outcome OverrideResult
  | .retryScheduleConflict code current => .ok (.conflict code current)
  | .valueError message =>
    .ok (.rejected "INVALID_REQUEST" (String.ofList (message.toList.take 500)))
  | .typeError => .ok (.rejected "INVALID_REQUEST" "'NoneType' object is not subscriptable")
  | .integrityError => .error .integrityError

/-- `apply_retry_overrides`, on the payload of one claimed request; the
    installation of the schema before it is a call of its own. -/
def applyRetryOverride (R : Runtimes) (r : RetryRequest) (now : ℤ) (overrideId : String) (db : Db) :
    Outcome OverrideResult × Db :=
  if !operatorAllowed r.operatorId then
    (.error (.valueError "retry override operator identity is invalid"), db)
  else match customTime R r.requestedAvailableAt with
  | .error e => (OverrideResult.ofRaised e, db)
  | .ok custom =>
    match applyRetryScheduleOverride (r.arguments custom now overrideId) db with
    | (.ok current, db') => (.ok (.applied current), db')
    | (.error e, db') => (OverrideResult.ofRaised e, db')

/-! ## The Worker as a machine -/

/-- A request to the Worker. -/
inductive CloudCall where
  | sync (items : List RawRetryItem) (now : ℤ) (generation : String)
  | submit (s : Submission)
  | claim (workerId : String) (now : ℤ)
  | finish (requestId : String) (token : ℕ) (status : String) (now : ℤ)

/-- What the Worker answers. -/
inductive CloudReply where
  | synced (reply : SyncReply)
  | submitted (results : List SubmissionResult)
  | item (row : Option RetryRequest)
  deriving DecidableEq

def CloudCall.exec (W : Web) (c : Cloud) : CloudCall → Answer CloudReply × Cloud
  | sync items now generation =>
    let (reply, mirror) := syncOperatorRetryJobs W items now generation c.mirror
    (reply.map .synced, { c with mirror := mirror })
  | submit s =>
    let (results, c') := createOperatorRetryRequests W s c
    (results.map .submitted, c')
  | claim workerId now =>
    let (row, c') := claimOperatorRetryRequest workerId now c
    (.ok (.item row), c')
  | finish requestId token status now =>
    let (row, c') := finishOperatorRetryRequest requestId token status now c
    (row.map .item, c')

end Xauusd.Operator
