/-
  Operator retry requests (`web/app/api/_shared/operator-retry.ts`): an operator
  asks for a new time of a mirrored job, and a worker claims the request, applies
  it to the local scheduler and reports what came of it.

  * `createOperatorRetryRequests` records the requests of one submission, each
    with the state and the availability text of its job in the mirror;
  * `claimOperatorRetryRequest` leases the first open request, or one whose lease
    has expired;
  * `finishOperatorRetryRequest` closes the request that the lease token is of.

  A `randomUUID` is the number of its draw, so no two are the same.
-/
import Xauusd.Operator.Mirror

namespace Xauusd.Operator

open Scheduler (RetryMode RETRY_OVERRIDE_MODES ofText?)

def OPERATOR_RETRY_BATCH_LIMIT : ℕ := 100
def OPERATOR_RETRY_LEASE : ℤ := 2 * IsoTime.minute

/-! ## Input -/

/-- `parseOperatorRetryMode` -/
def parseOperatorRetryMode (value : Option String) : Answer RetryMode :=
  match ofText? RetryMode.text RETRY_OVERRIDE_MODES (Text.upper (Text.jsTrim (value.getD ""))) with
  | some mode => .ok mode
  | none => .error (.input "INVALID_MODE" "重试计划选项无效")

/-- `parseOperatorRetryReason` -/
def parseOperatorRetryReason (value : Option String) : Answer String :=
  let reason := Text.jsJoinWords (value.getD "")
  if reason = "" ∨ 500 < Text.utf16Length reason then
    .error (.input "INVALID_REASON" "请填写 1 至 500 字的调整原因")
  else .ok reason

/-- `parseOperatorRetryCustomTime` -/
def parseOperatorRetryCustomTime (W : Web) (mode : RetryMode) (value : Option String) (now : ℤ) :
    Answer (Option String) :=
  if mode ≠ .customTime then
    if (value.filter (· ≠ "")).isSome then
      .error (.input "UNEXPECTED_TIME" "此选项不接受指定时间")
    else .ok none
  else do
    let timestamp ← isoTime W value "指定重试"
    let epoch := (W.dateParse timestamp).getD 0
    if epoch < now - 5 * IsoTime.minute then
      throw (.input "CUSTOM_TIME_PAST" "指定时间不能早于当前时间 5 分钟以上")
    if now + 366 * IsoTime.day < epoch then
      throw (.input "CUSTOM_TIME_TOO_FAR" "指定时间不能超过一年")
    return some timestamp

/-- `parseOperatorRetryIdempotencyKey`: `/^[A-Za-z0-9._:-]{16,128}$/` -/
def parseOperatorRetryIdempotencyKey (value : Option String) : Answer String :=
  let key := Text.jsTrim (value.getD "")
  if 16 ≤ key.toList.length ∧ key.toList.length ≤ 128 ∧
      key.toList.all (fun c => c.isAlphanum || c ∈ ['.', '_', ':', '-']) then .ok key
  else .error (.input "INVALID_IDEMPOTENCY_KEY" "缺少有效的 Idempotency-Key")

/-! ## Rows -/

inductive RequestStatus where
  | pending
  | applying
  | applied
  | conflict
  | rejected
  deriving DecidableEq, Repr

def RequestStatus.text : RequestStatus → String
  | pending => "PENDING"
  | applying => "APPLYING"
  | applied => "APPLIED"
  | conflict => "CONFLICT"
  | rejected => "REJECTED"

/-- The statuses that a finish may report. -/
def RESULT_STATUSES : List RequestStatus := [.applied, .conflict, .rejected]

/-- A row of `operator_retry_requests`; the JSON of its result is left out. -/
structure RetryRequest where
  requestId : String
  idempotencyKey : String
  jobId : String
  taskType : String
  operatorId : String
  mode : RetryMode
  reason : String
  requestedAt : ℤ
  requestedAvailableAt : Option String
  expectedState : String
  expectedAvailableAt : String
  status : RequestStatus
  leaseOwner : Option String
  leaseToken : Option ℕ
  leaseExpiresAt : Option ℤ
  completedAt : Option ℤ
  deriving DecidableEq, Repr

/-- The columns of `UNIQUE(operator_id, idempotency_key, job_id)`. -/
def RetryRequest.submission (r : RetryRequest) : String × String × String :=
  (r.operatorId, r.idempotencyKey, r.jobId)

/-- `event_type` -/
inductive RequestEvent where
  | requested
  | finished (status : RequestStatus)
  deriving DecidableEq, Repr

/-- A row of `operator_retry_request_events`, without its random id and its
    payload. -/
structure RequestEventRow where
  requestId : String
  eventType : RequestEvent
  recordedAt : ℤ
  deriving DecidableEq, Repr

/-- The columns of the unique index of the events. -/
def RequestEventRow.key (e : RequestEventRow) : String × RequestEvent := (e.requestId, e.eventType)

/-- The Worker's database. -/
structure Cloud where
  mirror : Mirror
  requests : Table RetryRequest.requestId
  events : Table RequestEventRow.key
  /-- the random ids drawn so far -/
  drawn : ℕ

def Cloud.empty : Cloud := ⟨.empty, .empty, .empty, 0⟩

/-! ## Creating -/

/-- The input of `createOperatorRetryRequests`. -/
structure Submission where
  operatorId : String
  idempotencyKey : String
  jobIds : List String
  mode : RetryMode
  reason : String
  requestedAvailableAt : Option String
  now : ℤ

/-- What is reported of one job. -/
inductive SubmissionResult where
  | jobNotFound (jobId : String)
  | idempotencyConflict (jobId : String)
  | recorded (row : RetryRequest) (duplicate : Bool) (notMutable : Option RetryItem)
  deriving DecidableEq

/-- `[...new Set(jobIds.map(trim).filter(Boolean))]` -/
def Submission.ids (s : Submission) : List String :=
  ((s.jobIds.map Text.jsTrim).filter (· ≠ "")).eraseDups

/-- The id of the request on a job. -/
def Submission.requestId (W : Web) (s : Submission) (jobId : String) : String :=
  W.digest (s.operatorId ++ "\n" ++ s.idempotencyKey ++ "\n" ++ jobId)

/-- The request on a mirrored job, closed at once if the job does not wait. -/
def Submission.request (W : Web) (s : Submission) (jobId : String) (job : RetryItem) :
    RetryRequest where
  requestId := s.requestId W jobId
  idempotencyKey := s.idempotencyKey
  jobId := jobId
  taskType := job.taskType
  operatorId := s.operatorId
  mode := s.mode
  reason := s.reason
  requestedAt := s.now
  requestedAvailableAt := s.requestedAvailableAt
  expectedState := job.state
  expectedAvailableAt := job.availableAt
  status := if job.state = "QUEUED" ∨ job.state = "BACKING_OFF" then .pending else .rejected
  leaseOwner := none
  leaseToken := none
  leaseExpiresAt := none
  completedAt := if job.state = "QUEUED" ∨ job.state = "BACKING_OFF" then none else some s.now

/-- The submission asks for what the row does. -/
def Submission.agrees (s : Submission) (row : RetryRequest) : Bool :=
  row.mode = s.mode && row.reason = s.reason && row.requestedAvailableAt = s.requestedAvailableAt

/-- The events of a request just recorded. -/
def RetryRequest.firstEvents (r : RetryRequest) : List RequestEventRow :=
  ⟨r.requestId, .requested, r.requestedAt⟩ ::
    if r.status = .rejected then [⟨r.requestId, .finished .rejected, r.requestedAt⟩] else []

/-- The request on one job: `INSERT … ON CONFLICT(operator_id,idempotency_key,
    job_id) DO NOTHING`, and its events if it is new. -/
def createRequest (W : Web) (s : Submission) (jobId : String) (c : Cloud) :
    Answer SubmissionResult × Cloud :=
  match c.mirror.jobs.find? jobId with
  | none => (.ok (.jobNotFound jobId), c)
  | some job =>
    let row := s.request W jobId job.item
    let refusal := if row.status = .rejected then some job.item else none
    match c.requests.rows.find? fun r => r.submission = row.submission with
    | some earlier =>
      if s.agrees earlier then (.ok (.recorded earlier true refusal), c)
      else (.ok (.idempotencyConflict jobId), c)
    | none =>
      if (c.requests.find? row.requestId).isSome then (.error .constraint, c)
      else (.ok (.recorded row false refusal), { c with
        requests := c.requests.insertIgnore row
        events := row.firstEvents.foldl (fun events e => events.insertIgnore e) c.events })

/-- The requests on a list of jobs, in their order. -/
def createRequests (W : Web) (s : Submission) : List String → Cloud →
    Answer (List SubmissionResult) × Cloud
  | [], c => (.ok [], c)
  | jobId :: jobIds, c =>
    match createRequest W s jobId c with
    | (.error e, c') => (.error e, c')
    | (.ok result, c') =>
      let (results, c'') := createRequests W s jobIds c'
      (results.map (result :: ·), c'')

/-- `createOperatorRetryRequests` -/
def createOperatorRetryRequests (W : Web) (s : Submission) (c : Cloud) :
    Answer (List SubmissionResult) × Cloud :=
  if s.ids = [] ∨ OPERATOR_RETRY_BATCH_LIMIT < s.ids.length then
    (.error (.input "INVALID_BATCH" "请选择 1 至 100 个任务"), c)
  else if s.ids.any fun id => !Text.isSha256Hex (Text.lower id) then
    (.error (.input "INVALID_JOB_ID" "任务编号无效"), c)
  else createRequests W s s.ids c

/-! ## Claiming and finishing -/

/-- The request is open at `now`. -/
def RetryRequest.isOpen (r : RetryRequest) (now : ℤ) : Bool :=
  r.status = .pending || r.status = .applying && r.leaseExpiresAt.any fun t => t ≤ now

/-- `ORDER BY requested_at, request_id` -/
def requestedBefore (a b : RetryRequest) : Bool :=
  decide (a.requestedAt < b.requestedAt ∨ a.requestedAt = b.requestedAt ∧ a.requestId ≤ b.requestId)

/-- The request under a new lease. -/
def RetryRequest.leased (r : RetryRequest) (workerId : String) (token : ℕ) (now : ℤ) : RetryRequest :=
  { r with
    status := .applying
    leaseOwner := some workerId
    leaseToken := some token
    leaseExpiresAt := some (now + OPERATOR_RETRY_LEASE) }

/-- `claimOperatorRetryRequest` -/
def claimOperatorRetryRequest (workerId : String) (now : ℤ) (c : Cloud) :
    Option RetryRequest × Cloud :=
  match Table.firstBy requestedBefore (c.requests.rows.filter fun r => r.isOpen now) with
  | none => (none, { c with drawn := c.drawn + 1 })
  | some r =>
    (some (r.leased workerId c.drawn now), { c with
      requests := c.requests.update (fun r' => r'.requestId = r.requestId)
        (fun r' => r'.leased workerId c.drawn now) fun _ => rfl
      drawn := c.drawn + 1 })

/-- The request as a finish leaves it. -/
def RetryRequest.finished (r : RetryRequest) (status : RequestStatus) (now : ℤ) : RetryRequest :=
  { r with
    status := status
    completedAt := some now
    leaseOwner := none
    leaseToken := none
    leaseExpiresAt := none }

/-- `request_id=? AND status='APPLYING' AND lease_token=?` -/
def RetryRequest.heldBy (r : RetryRequest) (requestId : String) (token : ℕ) : Bool :=
  r.requestId = requestId && r.status = .applying && r.leaseToken = some token

/-- `finishOperatorRetryRequest`: the request it closed, if there is one. -/
def finishOperatorRetryRequest (requestId : String) (token : ℕ) (status : String) (now : ℤ)
    (c : Cloud) : Answer (Option RetryRequest) × Cloud :=
  match ofText? RequestStatus.text RESULT_STATUSES (Text.upper status) with
  | none => (.error (.input "INVALID_RESULT" "retry result is invalid"), c)
  | some result =>
    let requests := c.requests.update (fun r => r.heldBy requestId token)
      (fun r => r.finished result now) fun _ => rfl
    let there := requests.rows.any fun r => r.requestId = requestId && r.status = result
    (.ok ((c.requests.rows.find? fun r => r.heldBy requestId token).map (·.finished result now)),
      { c with
        requests := requests
        events := if there then c.events.insertIgnore ⟨requestId, .finished result, now⟩
          else c.events })

end Xauusd.Operator
