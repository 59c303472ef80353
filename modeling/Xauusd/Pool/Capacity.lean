/-
  Assistant capacity (`assistant/capacity.py`): requests of the Assistant are
  reserved against one credential pool and one model before they are sent, their
  tokens are confirmed when they are counted, and they are finished with what
  the provider answered.

  * `capacitySnapshot` is the room that a pool and model have at an instant;
  * `reserveAssistantCapacity` reserves one request, or none;
  * `confirmReservedTokens` corrects the estimated tokens of a reservation, and
    `Accountant.reserve` is the one use of it;
  * `finishReservation` ends a reservation and records the health of its pool;
  * `step` is the machine of these calls.

  Every call is one transaction.  A ratio is exact where the code has a float.
-/
import Xauusd.Lib.Machine
import Xauusd.Lib.Window
import Xauusd.Scheduler.Quota

namespace Xauusd.Pool

open Scheduler (Outcome Raised DailyUsage MinuteUsage PACIFIC minuteBucket)

/-! ## Tables -/

inductive ServicePriority where
  | interactive
  | background
  deriving DecidableEq, Repr

inductive ReservationState where
  | inFlight
  | succeeded
  | failed
  | throttled
  | capacityRejected
  | abandoned
  deriving DecidableEq, Repr

inductive Health where
  | healthy
  | degraded
  | cooldown
  deriving DecidableEq, Repr

/-- The fields of an `AssistantCapacityPolicy` that admission reads. -/
structure CapacityPolicy where
  credentialPoolId : String
  modelId : String
  sharedModelIds : List String
  rpdLimit : ℕ
  rpmLimit : ℕ
  tpmLimit : ℕ
  softCapBasisPoints : ℕ
  maxInFlight : ℕ
  reservationTtlSeconds : ℕ
  cooldownSeconds : ℕ
  failureCooldownThreshold : ℕ
  deriving DecidableEq, Repr

/-- A row of `assistant_capacity_reservations_v1`; a bucket is the instant its
    minute starts at. -/
structure CapacityReservation where
  reservationId : String
  credentialPoolId : String
  modelId : String
  profileId : String
  servicePriority : ServicePriority
  quotaDay : ℤ
  minuteBucket : ℤ
  estimatedInputTokens : ℕ
  reservedInputTokens : ℕ
  state : ReservationState
  providerHttpStatus : Option ℤ
  failureCode : Option String
  createdAt : ℤ
  expiresAt : ℤ
  completedAt : Option ℤ
  deriving DecidableEq, Repr

/-- A row of `assistant_capacity_health_v1`. -/
structure PoolHealth where
  credentialPoolId : String
  modelId : String
  health : Health
  consecutiveFailures : ℕ
  failureCount : ℕ
  throttleCount : ℕ
  cooldownUntil : Option ℤ
  lastProviderHttpStatus : Option ℤ
  lastFailureAt : Option ℤ
  updatedAt : ℤ
  deriving DecidableEq, Repr

def PoolHealth.key (h : PoolHealth) : String × String := (h.credentialPoolId, h.modelId)

/-- The columns of a row of `news_ai_account_request_usage_v1` that are written
    here.  All others are `NULL`, so that `EFFECTIVE_INPUT_TOKENS_SQL` is the
    column `input_token_count`. -/
structure RequestUsage where
  usageId : String
  accountId : String
  modelFamily : String
  requestCount : ℕ
  inputTokenCount : ℕ
  reservedAt : ℤ
  deriving DecidableEq, Repr

structure PoolDb where
  daily : Table DailyUsage.key
  minute : Table MinuteUsage.key
  requests : Table RequestUsage.usageId
  reservations : Table CapacityReservation.reservationId
  health : Table PoolHealth.key

def PoolDb.empty : PoolDb := ⟨.empty, .empty, .empty, .empty, .empty⟩

/-! ## Usage -/

/-- `_soft_limit` -/
def softLimit (limit basisPoints : ℕ) : ℕ := limit * basisPoints / 10000

/-- `account_id=? AND model_family IN (…)` -/
def RequestUsage.inScope (u : RequestUsage) (accountId : String) (families : List String) : Bool :=
  u.accountId = accountId && u.modelFamily ∈ families

/-- `rolling_account_usage`: requests and tokens of the last 60 seconds -/
def PoolDb.rollingAccountUsage (db : PoolDb) (accountId : String) (families : List String) (now : ℤ) : ℕ × ℕ :=
  let rows := db.requests.rows.filter fun u =>
    u.inScope accountId families && decide (now - IsoTime.minute < u.reservedAt ∧ u.reservedAt ≤ now)
  ((rows.map (·.requestCount)).sum, (rows.map (·.inputTokenCount)).sum)

variable (P : Platform)

/-- `_usage`: the requests of the day, and the requests and tokens of the last
    60 seconds -/
def PoolDb.usage (db : PoolDb) (poolId : String) (modelIds : List String) (now : ℤ) : ℕ × ℕ × ℕ :=
  let daily := db.daily.rows.filter fun u =>
    u.quotaDay = P.localDay PACIFIC now && u.accountId = poolId && u.modelFamily ∈ modelIds
  let (minuteRequests, minuteTokens) := db.rollingAccountUsage poolId modelIds now
  ((daily.map (·.requestCount)).sum, minuteRequests, minuteTokens)

structure CapacitySnapshot where
  score : ℚ
  available : Bool
  deriving DecidableEq

/-- The pool is cooling down at an instant. -/
def PoolHealth.coolsAt (h : PoolHealth) (now : ℤ) : Bool :=
  h.health = .cooldown && h.cooldownUntil.any fun until_ => now < until_

/-- `_capacity_snapshot` -/
def capacitySnapshot (policy : CapacityPolicy) (estimatedInputTokens : ℕ) (now : ℤ) (db : PoolDb) :
    CapacitySnapshot :=
  let health := db.health.find? (policy.credentialPoolId, policy.modelId)
  if health.any (·.coolsAt now) then ⟨0, false⟩
  else
    let inFlight := db.reservations.rows.countP fun r => r.credentialPoolId = policy.credentialPoolId &&
      r.modelId = policy.modelId && r.state = .inFlight && decide (now < r.expiresAt)
    let (daily, minuteRequests, minuteTokens) := db.usage P policy.credentialPoolId policy.sharedModelIds now
    let limits := [softLimit policy.rpdLimit policy.softCapBasisPoints,
      softLimit policy.rpmLimit policy.softCapBasisPoints,
      softLimit policy.tpmLimit policy.softCapBasisPoints, policy.maxInFlight]
    let projected := [daily + 1, minuteRequests + 1, minuteTokens + estimatedInputTokens, inFlight + 1]
    if (projected.zip limits).any fun (used, limit) => limit ≤ 0 || limit < used then ⟨0, false⟩
    else
      let ratios := (projected.zip limits).map fun (used, limit) => max 0 (((limit : ℚ) - used) / limit)
      let factor : ℚ := if health.any (·.health = .degraded) then 1 / 2 else 1
      ⟨ratios.min?.getD 0 * factor, true⟩

/-! ## Reservations -/

/-- `AssistantCapacityReservation` -/
structure Reservation where
  reservationId : String
  profileId : String
  modelId : String
  servicePriority : ServicePriority
  estimatedInputTokens : ℕ
  policy : CapacityPolicy
  deriving DecidableEq, Repr

/-- A call of `_reserve_assistant_capacity`, with the `uuid4` it draws. -/
structure ReserveCall where
  policy : CapacityPolicy
  profileId : String
  profileModelId : String
  servicePriority : ServicePriority
  estimatedInputTokens : ℕ
  now : ℤ
  reservationId : String

def ReserveCall.reservation (c : ReserveCall) : Reservation where
  reservationId := c.reservationId
  profileId := c.profileId
  modelId := c.profileModelId
  servicePriority := c.servicePriority
  estimatedInputTokens := c.estimatedInputTokens
  policy := c.policy

/-- The row of a reservation. -/
def ReserveCall.row (c : ReserveCall) : CapacityReservation where
  reservationId := c.reservationId
  credentialPoolId := c.policy.credentialPoolId
  modelId := c.profileModelId
  profileId := c.profileId
  servicePriority := c.servicePriority
  quotaDay := P.localDay PACIFIC c.now
  minuteBucket := minuteBucket c.now
  estimatedInputTokens := c.estimatedInputTokens
  reservedInputTokens := c.estimatedInputTokens
  state := .inFlight
  providerHttpStatus := none
  failureCode := none
  createdAt := c.now
  expiresAt := c.now + c.policy.reservationTtlSeconds * IsoTime.second
  completedAt := none

/-- `state='IN_FLIGHT' AND expires_at<=?` -/
def CapacityReservation.expired (now : ℤ) (r : CapacityReservation) : Bool :=
  r.state = .inFlight && decide (r.expiresAt ≤ now)

def CapacityReservation.abandoned (now : ℤ) (r : CapacityReservation) : CapacityReservation :=
  { r with state := .abandoned, failureCode := some "RESERVATION_EXPIRED", completedAt := some now }

theorem CapacityReservation.abandoned_id (now : ℤ) (r : CapacityReservation) :
    (r.abandoned now).reservationId = r.reservationId := rfl

/-- The sweep that precedes a reservation. -/
def PoolDb.abandonExpired (now : ℤ) (db : PoolDb) : PoolDb :=
  { db with
    reservations := db.reservations.update (CapacityReservation.expired now) (CapacityReservation.abandoned now)
      (CapacityReservation.abandoned_id now) }

theorem DailyUsage.counted_key (now : ℤ) (u : DailyUsage) :
    DailyUsage.key { u with requestCount := u.requestCount + 1, updatedAt := now } = u.key := rfl

theorem MinuteUsage.counted_key (tokens : ℕ) (now : ℤ) (u : MinuteUsage) :
    MinuteUsage.key { u with
      requestCount := u.requestCount + 1, inputTokenCount := u.inputTokenCount + tokens, updatedAt := now } =
      u.key := rfl

/-- The four insertions of a reservation. -/
def ReserveCall.insert (c : ReserveCall) (db : PoolDb) : PoolDb :=
  { db with
    daily := db.daily.upsert ⟨P.localDay PACIFIC c.now, c.policy.credentialPoolId, c.profileModelId, 1, c.now⟩
      (fun u => { u with requestCount := u.requestCount + 1, updatedAt := c.now }) (DailyUsage.counted_key c.now)
    minute := db.minute.upsert
      ⟨minuteBucket c.now, c.policy.credentialPoolId, c.profileModelId, 1, c.estimatedInputTokens, c.now⟩
      (fun u => { u with
        requestCount := u.requestCount + 1
        inputTokenCount := u.inputTokenCount + c.estimatedInputTokens
        updatedAt := c.now }) (MinuteUsage.counted_key c.estimatedInputTokens c.now)
    requests := db.requests.insertIgnore
      ⟨c.reservationId, c.policy.credentialPoolId, c.profileModelId, 1, c.estimatedInputTokens, c.now⟩
    reservations := db.reservations.insertIgnore (c.row P) }

/-- `_reserve_assistant_capacity`.  It raises where an id is there already, and
    where the estimate is against its `CHECK`. -/
def reserveAssistantCapacity (c : ReserveCall) (db : PoolDb) : Outcome (Option Reservation) × PoolDb :=
  let swept := db.abandonExpired c.now
  if !(capacitySnapshot P c.policy c.estimatedInputTokens c.now swept).available then (.ok none, db)
  else if c.estimatedInputTokens = 0 || (swept.requests.find? c.reservationId).isSome ||
      (swept.reservations.find? c.reservationId).isSome then
    (.error .integrityError, db)
  else (.ok (some c.reservation), c.insert P swept)

/-! ## Confirmations -/

def MAX_ACTUAL_INPUT_TOKENS : ℕ := 1000000000

theorem MinuteUsage.corrected_key (delta : ℕ) (now : ℤ) (u : MinuteUsage) :
    MinuteUsage.key { u with inputTokenCount := u.inputTokenCount + delta, updatedAt := now } = u.key := rfl

def RequestUsage.corrected (delta : ℕ) (u : RequestUsage) : RequestUsage :=
  { u with inputTokenCount := u.inputTokenCount + delta }

theorem RequestUsage.corrected_id (delta : ℕ) (u : RequestUsage) : (u.corrected delta).usageId = u.usageId := rfl

def CapacityReservation.corrected (actual : ℕ) (r : CapacityReservation) : CapacityReservation :=
  { r with reservedInputTokens := actual }

theorem CapacityReservation.corrected_id (actual : ℕ) (r : CapacityReservation) :
    (r.corrected actual).reservationId = r.reservationId := rfl

/-- The three updates of a confirmation. -/
def PoolDb.correct (db : PoolDb) (r : Reservation) (row : CapacityReservation) (actual : ℕ) (now : ℤ) : PoolDb :=
  let delta := actual - r.estimatedInputTokens
  { db with
    minute := db.minute.update
      (fun u => u.minuteBucket = row.minuteBucket && u.accountId = r.policy.credentialPoolId &&
        u.modelFamily = r.modelId)
      (fun u => { u with inputTokenCount := u.inputTokenCount + delta, updatedAt := now })
      (MinuteUsage.corrected_key delta now)
    requests := db.requests.update (·.usageId = r.reservationId) (RequestUsage.corrected delta)
      (RequestUsage.corrected_id delta)
    reservations := db.reservations.update (·.reservationId = r.reservationId)
      (CapacityReservation.corrected actual) (CapacityReservation.corrected_id actual) }

/-- `_confirm_reserved_tokens`; the usage is the one at the start of the
    reservation's minute. -/
def confirmReservedTokens (r : Reservation) (actualInputTokens : ℤ) (now : ℤ) (db : PoolDb) :
    Outcome Bool × PoolDb :=
  if ¬ (1 ≤ actualInputTokens ∧ actualInputTokens ≤ MAX_ACTUAL_INPUT_TOKENS) then
    (.error (.valueError "Assistant capacity actual_input_tokens is invalid"), db)
  else
    let actual := actualInputTokens.toNat
    if actual ≤ r.estimatedInputTokens then (.ok true, db)
    else
      let delta := actual - r.estimatedInputTokens
      match db.reservations.find? r.reservationId with
      | none => (.ok false, db)
      | some row =>
        if row.state ≠ .inFlight then (.ok false, db)
        else
          let (_, _, recentTokens) := db.usage P r.policy.credentialPoolId r.policy.sharedModelIds row.minuteBucket
          if softLimit r.policy.tpmLimit r.policy.softCapBasisPoints < recentTokens + delta then (.ok false, db)
          else (.ok true, db.correct r row actual now)

/-- The fields of a `ModelRequestUsage` that are read. -/
structure ModelRequestUsage where
  model : String
  purpose : String
  inputTokens : ℤ

/-- `PreReservedAssistantAccountant` -/
structure Accountant where
  reservation : Reservation
  confirmed : Bool
  deriving DecidableEq, Repr

/-- `PreReservedAssistantAccountant.reserve` -/
def Accountant.reserve (a : Accountant) (usage : ModelRequestUsage) (now : ℤ) (db : PoolDb) :
    Outcome Bool × Accountant × PoolDb :=
  if a.confirmed then (.ok false, a, db)
  else if usage.model ≠ a.reservation.modelId ∨ Text.strip usage.purpose = "" then
    (.error (.valueError "Assistant gateway usage does not match reservation"), a, db)
  else
    match confirmReservedTokens P a.reservation usage.inputTokens now db with
    | (.ok confirmed, db') => (.ok confirmed, { a with confirmed := confirmed }, db')
    | (.error e, db') => (.error e, a, db')

/-! ## Outcomes -/

/-- The arguments of `_finish_reservation`. -/
structure FinishReport where
  state : ReservationState
  now : ℤ
  providerHttpStatus : Option ℤ
  failureCode : Option String
  affectsHealth : Bool
  deriving DecidableEq, Repr

/-- `_FAILURE_CODE`: three to 64 capital letters, digits and underscores -/
def isFailureCode (code : String) : Bool :=
  code.toList.all (fun c => ('A' ≤ c && c ≤ 'Z') || ('0' ≤ c && c ≤ '9') || c = '_') &&
    decide (3 ≤ Text.len code) && decide (Text.len code ≤ 64)

def CapacityReservation.finished (report : FinishReport) (r : CapacityReservation) : CapacityReservation :=
  { r with
    state := report.state
    providerHttpStatus := report.providerHttpStatus
    failureCode := report.failureCode
    completedAt := some report.now }

theorem CapacityReservation.finished_id (report : FinishReport) (r : CapacityReservation) :
    (r.finished report).reservationId = r.reservationId := rfl

/-- `cooldown`: a throttle, or repeated failures of the provider. -/
def FinishReport.coolsDown (report : FinishReport) (policy : CapacityPolicy) (consecutive : ℕ) : Bool :=
  report.providerHttpStatus = some 429 ||
    (report.providerHttpStatus ∈ [none, some 500, some 502, some 503, some 504] &&
      decide (policy.failureCooldownThreshold ≤ consecutive))

/-- The row of a success. -/
def PoolHealth.healthy (policy : CapacityPolicy) (now : ℤ) : PoolHealth :=
  ⟨policy.credentialPoolId, policy.modelId, .healthy, 0, 0, 0, none, none, none, now⟩

/-- The `SET` clause of a success. -/
def PoolHealth.recover (now : ℤ) (h : PoolHealth) : PoolHealth :=
  { h with
    health := .healthy, consecutiveFailures := 0, cooldownUntil := none, lastProviderHttpStatus := none
    updatedAt := now }

theorem PoolHealth.recover_key (now : ℤ) (h : PoolHealth) : (h.recover now).key = h.key := rfl

/-- The row of a failure after the prior one. -/
def PoolHealth.failed (policy : CapacityPolicy) (report : FinishReport) (prior : Option PoolHealth) : PoolHealth :=
  let consecutive := (prior.map (·.consecutiveFailures)).getD 0 + 1
  let cooldown := report.coolsDown policy consecutive
  { credentialPoolId := policy.credentialPoolId
    modelId := policy.modelId
    health := if cooldown then .cooldown else .degraded
    consecutiveFailures := consecutive
    failureCount := (prior.map (·.failureCount)).getD 0 + 1
    throttleCount := (prior.map (·.throttleCount)).getD 0 + if report.providerHttpStatus = some 429 then 1 else 0
    cooldownUntil := if cooldown then some (report.now + policy.cooldownSeconds * IsoTime.second) else none
    lastProviderHttpStatus := report.providerHttpStatus
    lastFailureAt := some report.now
    updatedAt := report.now }

/-- The `SET` clause of a failure. -/
def PoolHealth.overwrite (excluded h : PoolHealth) : PoolHealth :=
  { excluded with credentialPoolId := h.credentialPoolId, modelId := h.modelId }

theorem PoolHealth.overwrite_key (excluded h : PoolHealth) : (PoolHealth.overwrite excluded h).key = h.key := rfl

/-- What an outcome does to the health of the pool and model. -/
def PoolDb.recordHealth (policy : CapacityPolicy) (report : FinishReport) (db : PoolDb) : PoolDb :=
  if report.state = .succeeded then
    { db with
      health := db.health.upsert (.healthy policy report.now) (PoolHealth.recover report.now)
        (PoolHealth.recover_key report.now) }
  else if report.affectsHealth then
    let excluded := PoolHealth.failed policy report (db.health.find? (policy.credentialPoolId, policy.modelId))
    { db with health := db.health.upsert excluded (PoolHealth.overwrite excluded) (PoolHealth.overwrite_key excluded) }
  else db

/-- `_finish_reservation` -/
def finishReservation (r : Reservation) (report : FinishReport) (db : PoolDb) : Outcome Unit × PoolDb :=
  if report.failureCode.any fun code => !isFailureCode code then
    (.error (.valueError "Assistant capacity failure_code is invalid"), db)
  else if db.reservations.hits (fun row => row.reservationId = r.reservationId && row.state = .inFlight) ≠ 1 then
    (.ok (), db)
  else
    (.ok (), PoolDb.recordHealth r.policy report { db with
      reservations := db.reservations.update
        (fun row => row.reservationId = r.reservationId && row.state = .inFlight)
        (CapacityReservation.finished report) (CapacityReservation.finished_id report) })

/-! ## The machine -/

/-- The database, and the accountants of the reservations that were granted. -/
structure PoolState where
  db : PoolDb
  held : List Accountant

def PoolState.initial : PoolState := ⟨.empty, []⟩

inductive PoolAction where
  | reserve (c : ReserveCall)
  | confirm (i : ℕ) (usage : ModelRequestUsage) (now : ℤ)
  | finish (i : ℕ) (report : FinishReport)

/-- The instant of a call. -/
def PoolAction.now : PoolAction → ℤ
  | reserve c => c.now
  | confirm _ _ now => now
  | finish _ report => report.now

inductive PoolReply where
  | reserved (outcome : Outcome (Option Reservation))
  | confirmed (outcome : Outcome Bool)
  | finished (outcome : Outcome Unit)
  | idle

/-- A call.  The accountants are numbered in the order of their reservations. -/
def step (s : PoolState) : PoolAction → PoolReply × PoolState
  | .reserve c =>
    match reserveAssistantCapacity P c s.db with
    | (.ok (some r), db) => (.reserved (.ok (some r)), ⟨db, s.held ++ [⟨r, false⟩]⟩)
    | (outcome, db) => (.reserved outcome, ⟨db, s.held⟩)
  | .confirm i usage now =>
    match s.held[i]? with
    | none => (.idle, s)
    | some a =>
      let (outcome, a', db) := a.reserve P usage now s.db
      (.confirmed outcome, ⟨db, s.held.set i a'⟩)
  | .finish i report =>
    match s.held[i]? with
    | none => (.idle, s)
    | some a =>
      let (outcome, db) := finishReservation a.reservation report s.db
      (.finished outcome, ⟨db, s.held⟩)

end Xauusd.Pool
