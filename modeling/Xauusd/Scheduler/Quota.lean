/-
  Request quotas (`news/scheduler/state.py`): the admission of provider
  requests against one account, and the forecast that keeps contract backfill
  off the capacity that LIVE work needs.

  * `backfillAdmissionLocked` decides on one backfill grant;
  * `reserveAccountRequest` admits a request and counts it in the four request
    ledgers, or refuses it with the reason in its `ReserveDecision`;
  * `recordAccountRequestOutcome` records what the provider answered.

  An instant has the zone UTC, as all callers pass it.
-/
import Xauusd.Scheduler.Dispatch

namespace Xauusd.Scheduler

variable (P : Platform)

def PACIFIC : String := "America/Los_Angeles"
def BACKFILL_FORECAST_DAYS : ℤ := 14
def BACKFILL_MIN_COMPLETE_DAYS : ℕ := 7
def BACKFILL_MAX_SHARE_DENOMINATOR : ℕ := 10
def BACKFILL_LIVE_SLA : ℤ := 15 * IsoTime.minute

/-! ## Rolling usage -/

/-- `EFFECTIVE_INPUT_TOKENS_SQL` -/
def RequestUsage.effectiveInputTokens (u : RequestUsage) : ℤ :=
  match u.providerOutcome, u.providerPromptTokenCount with
  | some .succeeded, some tokens => if 0 < tokens then tokens
    else u.admittedInputTokens.getD u.inputTokenCount
  | _, _ => u.admittedInputTokens.getD u.inputTokenCount

/-- The requests of the families, of one account or, shared, of all. -/
def RequestUsage.inScope (u : RequestUsage) (accountId : String) (families : List String)
    (shared : Bool) : Bool :=
  (shared || u.accountId = accountId) && u.modelFamily ∈ families

/-- `reserved_at>after AND reserved_at<=upTo` -/
def RequestUsage.reservedIn (u : RequestUsage) (after upTo : ℤ) : Bool :=
  decide (after < u.reservedAt ∧ u.reservedAt ≤ upTo)

/-- `rolling_account_usage`: requests and tokens of the last 60 seconds -/
def Capacity.rollingAccountUsage (c : Capacity) (accountId : String) (families : List String)
    (now : ℤ) (shared : Bool) : ℕ × ℤ :=
  let rows := c.requests.rows.filter fun u =>
    u.reservedIn (now - IsoTime.minute) now && u.inScope accountId families shared
  ((rows.map (·.requestCount)).sum, (rows.map (·.effectiveInputTokens)).sum)

/-- `_minute_capacity_next_eligible`: the first expiry in the window after
    which the request fits. -/
def Capacity.minuteCapacityNextEligible (c : Capacity) (accountId : String)
    (families : List String) (now : ℤ) (shared : Bool) (requestedRequests : ℕ)
    (requestedTokens : ℤ) (requestsPerMinute : ℕ) (inputTokensPerMinute : Option ℕ) : Option ℤ :=
  let rows := (c.requests.rows.filter fun u => decide (now - IsoTime.minute < u.reservedAt) &&
    u.inScope accountId families shared).insertionSort fun u v => u.reservedAt ≤ v.reservedAt
  let fits (candidate : ℤ) : Bool :=
    let remaining := rows.filter fun u => candidate - IsoTime.minute < u.reservedAt
    decide ((remaining.map (·.requestCount)).sum + requestedRequests ≤ requestsPerMinute) &&
      inputTokensPerMinute.all fun limit =>
        (remaining.map (·.effectiveInputTokens)).sum + requestedTokens ≤ limit
  (rows.map fun u => u.reservedAt + IsoTime.minute).find? fits

/-! ## Backfill admission -/

/-- `_nearest_rank_p95` -/
def nearestRankP95 (values : List ℕ) : ℕ :=
  let ordered := values.insertionSort (· ≤ ·)
  ordered.getD ((19 * ordered.length + 19) / 20 - 1) 0

/-- `forecast_safe_backfill_budget` -/
def forecastSafeBackfillBudget (remainingCapacity predictedLive operationalRetryReserve
    safetyBuffer : ℕ) : ℕ :=
  remainingCapacity - predictedLive - operationalRetryReserve - safetyBuffer

/-- `math.ceil(daily_limit * 0.08)`, both for the reserve and for the safety buffer -/
def reserveShare (dailyLimit : ℕ) : ℕ := (2 * dailyLimit + 24) / 25

/-- `AiQuotaSurface` -/
structure QuotaSurface where
  payloadKey : String
  modelFamilies : List String
  deriving DecidableEq, Repr

def AI_QUOTA_SURFACES : List QuotaSurface :=
  [ ⟨"gemini_quota", ["gemini-3.5-flash-lite"]⟩,
    ⟨"gemini_31_quota", ["gemini-3.1-flash-lite"]⟩,
    ⟨"gemma_quota", ["gemma-4-31b-it", "gemma-impact", "gemma-title"]⟩,
    ⟨"gemini_embedding_quota", ["gemini-embedding-2"]⟩ ]

/-- `AiTaskRoute` -/
structure TaskRoute where
  taskType : String
  models : List String
  quotaPressureTasks : List TaskType
  deriving DecidableEq, Repr

def AI_TASK_ROUTES : List TaskRoute :=
  [ ⟨"ACTIVE_ANNOTATION", ["gemini-3.5-flash-lite", "gemini-3.1-flash-lite"], [ TaskType.activeAnnotation]⟩,
    ⟨"ACTIVE_IMPACT", ["gemma-4-31b-it"], [.activeImpact]⟩,
    ⟨"TITLE_TRANSLATION", ["gemma-4-31b-it"], [.titleTranslation]⟩,
    ⟨"DAILY_BRIEF", ["gemma-4-31b-it"], []⟩,
    ⟨"NEWS_EMBEDDING", ["gemini-embedding-2"], [.activeImpact]⟩ ]

/-- `quota_surface_for_model(model).payload_key == quota_authority` -/
def servedBy (quotaAuthority model : String) : Bool :=
  AI_QUOTA_SURFACES.any fun s => model ∈ s.modelFamilies && s.payloadKey = quotaAuthority

/-- `_live_pressure_tasks_for_quota` -/
def livePressureTasksForQuota (quotaAuthority : String) : List TaskType :=
  ((AI_TASK_ROUTES.filter fun route => route.models.any (servedBy quotaAuthority)).flatMap
    (·.quotaPressureTasks)).eraseDups

/-- What `_live_pressure_tasks_for_quota` admits as LIVE work: the filter of the
    pressure queries on the task, the lane and the provenance. -/
def Job.livePressure (tasks : List TaskType) (j : Job) : Bool :=
  j.taskType ∈ tasks && j.laneClassified && j.workLane = .live && j.provenanceKnown

/-- The rows of the pressure aggregate. -/
def Job.pressureRow (tasks : List TaskType) (j : Job) : Bool :=
  j.livePressure tasks &&
    (j.state = .queued || j.state = .leased || j.state = .backingOff || j.state = .completed)

/-- `state='LEASED' OR available_at<=?` -/
def Job.countsClaimable (now : ℤ) (j : Job) : Bool :=
  j.state = .leased || decide (j.availableAt ≤ now)

/-- The evidence of a backfill decision. -/
structure BackfillEvidence where
  reason : String
  quotaAuthority : String
  historyDays : ℕ
  predictedLiveRequests : ℕ
  operationalRetryReserve : ℕ
  safetyBuffer : ℕ
  remainingDailyCapacity : ℕ
  safeBackfillBudget : ℕ
  nextRetryAt : ℤ
  admitted : Bool
  /-- the live pressure, once it has been read -/
  liveClaimable : Option ℕ
  liveSlaOverdue : Option Bool
  liveBacklogIncreasing : Option Bool
  providerThrottles15m : Option ℕ
  liveCapacityDeferrals15m : Option ℕ
  backfillRequests60s : Option ℕ
  totalRequests60s : Option ℕ
  deriving DecidableEq, Repr

structure BackfillRequest where
  accountId : String
  quotaAuthority : String
  modelFamilies : List String
  dailyLimit : ℕ
  currentDailyCount : ℕ
  requestedRequests : ℕ
  now : ℤ

/-- The complete quota days of the forecast window. -/
def BackfillRequest.history (r : BackfillRequest) (c : Capacity) : List ℤ :=
  let today := P.localDay PACIFIC r.now
  ((c.workload.rows.filter fun w => w.accountId = r.accountId &&
    w.quotaAuthority = r.quotaAuthority && decide (today - BACKFILL_FORECAST_DAYS ≤ w.quotaDay) &&
    decide (w.quotaDay < today)).map (·.quotaDay)).dedup

/-- The LIVE requests of a day from the current hour on. -/
def BackfillRequest.remainingLive (r : BackfillRequest) (c : Capacity) (day : ℤ) : ℕ :=
  ((c.workload.rows.filter fun w => w.quotaDay = day && w.accountId = r.accountId &&
    w.quotaAuthority = r.quotaAuthority && w.workloadClass = .liveOperational &&
    decide (P.localHour PACIFIC r.now ≤ w.hourBucket)).map (·.requestCount)).sum

/-- The evidence before the pressure is read. -/
def BackfillRequest.forecast (r : BackfillRequest) (c : Capacity) : BackfillEvidence :=
  let values := (r.history P c).map (r.remainingLive P c)
  let predictedLive := nearestRankP95 values
  let reserve := reserveShare r.dailyLimit
  let remaining := r.dailyLimit - r.currentDailyCount
  { reason := "SAFE_BUDGET_AVAILABLE"
    quotaAuthority := r.quotaAuthority
    historyDays := values.length
    predictedLiveRequests := predictedLive
    operationalRetryReserve := reserve
    safetyBuffer := reserve
    remainingDailyCapacity := remaining
    safeBackfillBudget := forecastSafeBackfillBudget remaining predictedLive reserve reserve
    nextRetryAt := r.now + IsoTime.minute
    admitted := false
    liveClaimable := none
    liveSlaOverdue := none
    liveBacklogIncreasing := none
    providerThrottles15m := none
    liveCapacityDeferrals15m := none
    backfillRequests60s := none
    totalRequests60s := none }

/-- `claimable` of the pressure aggregate. -/
def BackfillRequest.claimable (r : BackfillRequest) (jobs : List Job) (tasks : List TaskType) : ℕ :=
  jobs.countP fun j => j.pressureRow tasks && j.countsClaimable r.now

/-- `live_overdue`: the oldest claimable row has waited for the SLA. -/
def BackfillRequest.liveOverdue (r : BackfillRequest) (jobs : List Job) (tasks : List TaskType) :
    Bool :=
  (((jobs.filter fun j => j.pressureRow tasks && j.countsClaimable r.now).map (·.createdAt)).min?).any
    fun oldest => BACKFILL_LIVE_SLA ≤ r.now - oldest

/-- `backlog_increasing`: more arrivals than completions in 15 minutes. -/
def BackfillRequest.backlogIncreasing (r : BackfillRequest) (jobs : List Job)
    (tasks : List TaskType) : Bool :=
  let cutoff := r.now - 15 * IsoTime.minute
  decide ((jobs.countP fun j => j.pressureRow tasks && j.completedAt.any fun t => cutoff ≤ t) <
    jobs.countP fun j => j.pressureRow tasks && decide (cutoff ≤ j.createdAt))

/-- `throttled` -/
def BackfillRequest.throttled (r : BackfillRequest) (c : Capacity) : ℕ :=
  c.requests.rows.countP fun u => u.accountId = r.accountId &&
    decide (r.now - 15 * IsoTime.minute ≤ u.reservedAt) && u.modelFamily ∈ r.modelFamilies &&
    u.providerOutcome = some .throttled

/-- `capacity_deferred` -/
def BackfillRequest.capacityDeferred (r : BackfillRequest) (jobs : List Job) (c : Capacity)
    (tasks : List TaskType) : ℕ :=
  (c.deferrals.rows.map fun d =>
    jobs.countP fun j => j.jobId = d.jobId && decide (r.now - 15 * IsoTime.minute ≤ d.deferredAt) &&
      j.livePressure tasks && (d.failureCode = "MODEL_CAPACITY_DEFERRED" ||
        d.failureCode = "PROVIDER_DISPATCH_DEFERRED")).sum

/-- `total_60s` and `backfill_60s` -/
def BackfillRequest.recentRequests (r : BackfillRequest) (c : Capacity) : ℕ × ℕ :=
  let rows := c.requests.rows.filter fun u => u.accountId = r.accountId &&
    decide (r.now - IsoTime.minute < u.reservedAt) && u.modelFamily ∈ r.modelFamilies
  ((rows.map (·.requestCount)).sum,
    ((rows.filter fun u => u.workloadClass = .contractBackfill).map (·.requestCount)).sum)

/-- `share_blocked` -/
def BackfillRequest.shareBlocked (r : BackfillRequest) (c : Capacity) : Bool :=
  decide (max 1 (((r.recentRequests c).1 + 1) / BACKFILL_MAX_SHARE_DENOMINATOR) ≤
    (r.recentRequests c).2)

/-- The evidence with the live pressure. -/
def BackfillRequest.pressure (r : BackfillRequest) (jobs : List Job) (c : Capacity)
    (tasks : List TaskType) : BackfillEvidence :=
  { r.forecast P c with
    liveClaimable := some (r.claimable jobs tasks)
    liveSlaOverdue := some (r.liveOverdue jobs tasks)
    liveBacklogIncreasing := some (r.backlogIncreasing jobs tasks)
    providerThrottles15m := some (r.throttled c)
    liveCapacityDeferrals15m := some (r.capacityDeferred jobs c tasks)
    backfillRequests60s := some (r.recentRequests c).2
    totalRequests60s := some (r.recentRequests c).1 }

/-- `blockers` -/
def BackfillRequest.blockers (r : BackfillRequest) (jobs : List Job) (c : Capacity)
    (tasks : List TaskType) : List (Bool × String) :=
  [ (decide (0 < r.claimable jobs tasks), "LIVE_CLAIMABLE"),
    (r.liveOverdue jobs tasks, "LIVE_SLA_PRESSURE"),
    (r.backlogIncreasing jobs tasks, "LIVE_BACKLOG_INCREASING"),
    (decide (0 < r.throttled c), "PROVIDER_THROTTLED"),
    (decide (0 < r.capacityDeferred jobs c tasks), "LIVE_CAPACITY_DEFERRED"),
    (r.shareBlocked c, "INSTANTANEOUS_SHARE"),
    (decide ((r.forecast P c).safeBackfillBudget < r.requestedRequests), "NO_SAFE_DAILY_BUDGET") ]

/-- `_backfill_admission_locked` -/
def backfillAdmissionLocked (r : BackfillRequest) (jobs : List Job) (c : Capacity) :
    BackfillEvidence :=
  let tasks := livePressureTasksForQuota r.quotaAuthority
  if (r.forecast P c).historyDays < BACKFILL_MIN_COMPLETE_DAYS then
    { r.forecast P c with reason := "COLD_START_HISTORY" }
  else if tasks = [] then { r.forecast P c with reason := "UNCLASSIFIED_LIVE_PRESSURE_ROUTE" }
  else match (r.blockers P jobs c tasks).find? (·.1) with
  | some (_, reason) => { r.pressure P jobs c tasks with
      reason := reason
      nextRetryAt := if reason = "NO_SAFE_DAILY_BUDGET" then P.nextLocalMidnight PACIFIC r.now
        else r.now + IsoTime.minute }
  | none => { r.pressure P jobs c tasks with admitted := true }

/-! ## Admission -/

structure ReserveRequest where
  accountId : String
  modelFamily : String
  dailyLimit : ℕ
  requestsPerMinute : ℕ
  requestCount : ℤ := 1
  inputTokens : ℤ := 0
  inputTokensPerMinute : Option ℕ := none
  tokensPer24Hours : Option ℕ := none
  sharedModelFamilies : List String := []
  shareMinuteAcrossAccounts : Bool := false
  reserveTotal : ℕ := 0
  urgent : Bool := false
  now : ℤ
  /-- the usage id given, or the `uuid4` -/
  usageId : String
  providerTask : Option String := none
  requestedModel : Option String := none
  purpose : Option String := none
  promptContract : Option String := none
  estimatorVersion : Option String := none
  baseEstimatedInputTokens : Option ℤ := none
  calibrationProviderModelVersion : Option String := none
  workloadClass : String := "LIVE_OPERATIONAL"
  quotaAuthority : Option String := none
  quotaTimezone : String := PACIFIC
  independentProviderScope : Option String := none

/-- The evidence of an exhausted dimension: `RPD`, `RPM` or `TPM`. -/
structure CapacityRefusal where
  dimensions : List String
  current : ℤ
  requested : ℤ
  limit : ℤ
  currentRequests60s : ℕ
  currentTokens60s : ℤ
  currentRequestsDay : ℕ
  baseEstimatedInputTokens : ℕ
  admittedInputTokens : ℕ
  nextRetryAt : Option ℤ
  deriving DecidableEq, Repr

/-- What a reservation decides. -/
inductive ReserveDecision where
  | granted
  | providerDispatchDeferred (nextRetryAt : ℤ)
  | tokensPerDayExhausted (current requested limit : ℕ)
  | backfillBudgetDeferred (evidence : BackfillEvidence)
  | capacityDeferred (refusal : CapacityRefusal)
  deriving DecidableEq, Repr

/-- The truth value that `reserve_account_request` returns. -/
def ReserveDecision.admitted : ReserveDecision → Bool
  | granted => true
  | _ => false

section
variable (r : ReserveRequest)

/-- `dict.fromkeys(shared_model_families or (model_family,))` -/
def ReserveRequest.families : List String :=
  (if r.sharedModelFamilies = [] then [r.modelFamily] else r.sharedModelFamilies).eraseDups

def ReserveRequest.authority : String := (r.quotaAuthority.filter (· ≠ "")).getD r.modelFamily

def ReserveRequest.day : ℤ := P.localDay r.quotaTimezone r.now

def ReserveRequest.attemptedRequests : ℕ := r.requestCount.toNat

def ReserveRequest.estimatedTokens : ℕ := r.inputTokens.toNat

def ReserveRequest.usableDailyLimit : ℕ :=
  if r.urgent then r.dailyLimit else r.dailyLimit - r.reserveTotal

/-- The requests that the day's ledger counts for the families. -/
def Capacity.dailyCount (c : Capacity) (day : ℤ) (accountId : String) (families : List String) : ℕ :=
  ((c.daily.rows.filter fun u => u.quotaDay = day && u.accountId = accountId &&
    u.modelFamily ∈ families).map (·.requestCount)).sum

/-- The tokens reserved in the last 24 hours. -/
def ReserveRequest.tokenDay (c : Capacity) : ℕ :=
  ((c.requests.rows.filter fun u => u.accountId = r.accountId && u.modelFamily ∈ r.families &&
    u.reservedIn (r.now - IsoTime.day) r.now).map (·.inputTokenCount)).sum

def ReserveRequest.backfill (dailyCount : ℕ) : BackfillRequest where
  accountId := r.accountId
  quotaAuthority := r.authority
  modelFamilies := r.families
  dailyLimit := r.dailyLimit
  currentDailyCount := dailyCount
  requestedRequests := r.attemptedRequests
  now := r.now

def ReserveRequest.baseTokens : ℕ := (r.baseEstimatedInputTokens.getD r.estimatedTokens).toNat

/-- The refusal for the exhausted dimensions, if there are any. -/
def ReserveRequest.capacityRefusal (dailyCount : ℕ) (c : Capacity) : Option CapacityRefusal :=
  let (minuteCount, minuteTokens) := c.rollingAccountUsage r.accountId r.families r.now
    r.shareMinuteAcrossAccounts
  let daily := decide (r.usableDailyLimit < dailyCount + r.attemptedRequests)
  let rpm := decide (r.requestsPerMinute < minuteCount + r.attemptedRequests)
  let tokens := r.inputTokensPerMinute.any fun limit => limit < minuteTokens + r.estimatedTokens
  let impossible := r.requestsPerMinute < r.attemptedRequests ||
    r.inputTokensPerMinute.any fun limit => limit < r.estimatedTokens
  if daily || rpm || tokens then some
    { dimensions := (if daily then ["RPD"] else []) ++ (if rpm then ["RPM"] else []) ++
        (if tokens then ["TPM"] else [])
      current := if daily then dailyCount else if rpm then minuteCount else minuteTokens
      requested := if daily || rpm then r.attemptedRequests else r.estimatedTokens
      limit := if daily then r.usableDailyLimit else if rpm then r.requestsPerMinute
        else r.inputTokensPerMinute.getD 0
      currentRequests60s := minuteCount
      currentTokens60s := minuteTokens
      currentRequestsDay := dailyCount
      baseEstimatedInputTokens := r.baseTokens
      admittedInputTokens := r.estimatedTokens
      nextRetryAt :=
        if daily then some (P.nextLocalMidnight r.quotaTimezone r.now)
        else if impossible then none
        else c.minuteCapacityNextEligible r.accountId r.families r.now r.shareMinuteAcrossAccounts
          r.attemptedRequests r.estimatedTokens r.requestsPerMinute r.inputTokensPerMinute }
  else none

/-- The refusals before the governor, in their order. -/
def ReserveRequest.refusal (workload : WorkloadClass) (jobs : List Job) (c : Capacity) :
    Option ReserveDecision :=
  let dailyCount := c.dailyCount (r.day P) r.accountId r.families
  let backfill := backfillAdmissionLocked P (r.backfill dailyCount) jobs c
  match (r.independentProviderScope.bind c.dispatch.find?).filter fun d => r.now < d.nextEligibleAt with
  | some d => some (.providerDispatchDeferred d.nextEligibleAt)
  | none =>
    if r.tokensPer24Hours.any fun limit => limit < r.tokenDay c + r.estimatedTokens then
      some (.tokensPerDayExhausted (r.tokenDay c) r.estimatedTokens (r.tokensPer24Hours.getD 0))
    else if workload = .contractBackfill && !backfill.admitted then
      some (.backfillBudgetDeferred backfill)
    else (r.capacityRefusal P dailyCount c).map .capacityDeferred

/-- The row of the request ledger. -/
def ReserveRequest.usage (workload : WorkloadClass) : RequestUsage where
  usageId := r.usageId
  accountId := r.accountId
  modelFamily := r.modelFamily
  requestCount := r.attemptedRequests
  inputTokenCount := r.estimatedTokens
  reservedAt := r.now
  attemptedAt := none
  providerOutcome := none
  providerHttpStatus := none
  providerCompletedAt := none
  vectorsCommittedAt := none
  providerPromptTokenCount := none
  providerCandidatesTokenCount := none
  providerTotalTokenCount := none
  requestedModel := (r.requestedModel.filter (· ≠ "")).getD r.modelFamily
  purpose := r.purpose
  promptContract := r.promptContract
  estimatorVersion := r.estimatorVersion
  baseEstimatedInputTokens := some r.baseTokens
  admittedInputTokens := some r.estimatedTokens
  calibrationProviderModelVersion := r.calibrationProviderModelVersion
  providerModelVersion := none
  workloadClass := workload

/-- The start of the minute of an instant. -/
def minuteBucket (now : ℤ) : ℤ := now / IsoTime.minute * IsoTime.minute

/-- The statements that count an admitted request in the four ledgers. -/
def ReserveRequest.count (workload : WorkloadClass) (c : Capacity) : Capacity :=
  { c with
    daily := c.daily.upsert ⟨r.day P, r.accountId, r.modelFamily, r.attemptedRequests, r.now⟩
      (fun u => { u with requestCount := u.requestCount + r.attemptedRequests, updatedAt := r.now })
      fun _ => rfl
    minute := c.minute.upsert
      ⟨minuteBucket r.now, r.accountId, r.modelFamily, r.attemptedRequests, r.estimatedTokens, r.now⟩
      (fun u => { u with
        requestCount := u.requestCount + r.attemptedRequests
        inputTokenCount := u.inputTokenCount + r.estimatedTokens
        updatedAt := r.now }) fun _ => rfl
    requests := c.requests.insertIgnore (r.usage workload)
    workload := c.workload.upsert
      ⟨r.day P, P.localHour r.quotaTimezone r.now, r.accountId, r.authority, workload,
        r.attemptedRequests, r.now⟩
      (fun w => { w with requestCount := w.requestCount + r.attemptedRequests, updatedAt := r.now })
      fun _ => rfl }

/-- The task that the governor is asked for a slot for. -/
def ReserveRequest.paced : Option String :=
  if r.independentProviderScope.isNone then r.providerTask else none

/-- The slot of the request, when it is paced. -/
def ReserveRequest.slot (jobs : List Job) (c : Capacity) : Outcome ((Bool × ℤ) × Capacity) :=
  match r.paced with
  | some task => reserveProviderDispatchLocked jobs task r.now c
  | none => .ok ((true, r.now), c)

/-- `reserve_account_request`; the insertion of a usage id already there raises. -/
def reserveAccountRequest (jobs : List Job) (c : Capacity) : Outcome ReserveDecision × Capacity :=
  if r.requestCount < 1 then (.error (.valueError "request_count must be positive"), c)
  else match ofText? WorkloadClass.text REQUEST_WORKLOADS r.workloadClass with
  | none => (.error (.valueError "unknown request workload class"), c)
  | some workload =>
    match r.refusal P workload jobs c with
    | some decision => (.ok decision, c)
    | none =>
      match r.slot jobs c with
      | .error e => (.error e, c)
      | .ok ((false, nextRetryAt), deferred) => (.ok (.providerDispatchDeferred nextRetryAt), deferred)
      | .ok ((true, _), dispatched) =>
        if (c.requests.find? r.usageId).isSome then (.error .integrityError, c)
        else (.ok .granted, r.count P workload dispatched)

end

/-! ## What a reservation does -/

/-- A request that nothing refuses before the governor. -/
structure ReserveRequest.Cleared (r : ReserveRequest) (workload : WorkloadClass) (jobs : List Job)
    (c : Capacity) : Prop where
  positive : 1 ≤ r.requestCount
  known : ofText? WorkloadClass.text REQUEST_WORKLOADS r.workloadClass = some workload
  unrefused : r.refusal P workload jobs c = none
  fresh : c.requests.find? r.usageId = none

theorem ReserveRequest.refusal_ne_granted {r : ReserveRequest} {workload : WorkloadClass}
    {jobs : List Job} {c : Capacity} {decision : ReserveDecision}
    (h : r.refusal P workload jobs c = some decision) : decision ≠ .granted := by
  unfold refusal at h
  dsimp only at h
  split at h
  · rw [← Option.some.inj h]; simp
  · split at h
    · rw [← Option.some.inj h]; simp
    · split at h
      · rw [← Option.some.inj h]; simp
      · obtain ⟨refusal, -, rfl⟩ := Option.map_eq_some_iff.1 h
        simp

/-- A slot leaves the ledgers. -/
theorem ReserveRequest.slot_ledgers {r : ReserveRequest} {jobs : List Job} {c d : Capacity}
    {decision : Bool × ℤ} (h : r.slot jobs c = .ok (decision, d)) :
    d.ledgers = c.ledgers ∧ (decision.1 = false → d.dispatch = c.dispatch) := by
  unfold slot at h
  split at h
  · obtain ⟨-, hd, hl⟩ | ⟨hg, -, -, _, d', -, hl, rfl⟩ := reserveProviderDispatchLocked_cases h
    · exact ⟨hl, fun _ => hd⟩
    · exact ⟨hl, fun hg' => absurd (hg.symm.trans hg') (by simp)⟩
  · obtain ⟨rfl, rfl⟩ := Prod.mk.inj (Except.ok.inj h)
    exact ⟨rfl, fun h => absurd h (by simp)⟩

/-- A reservation changes no ledger and no row of the governor, or it is
    cleared, takes a slot and is counted in all ledgers. -/
theorem reserveAccountRequest_cases (r : ReserveRequest) (jobs : List Job) (c : Capacity) :
    ((reserveAccountRequest P r jobs c).1 ≠ .ok .granted ∧
        (reserveAccountRequest P r jobs c).2.ledgers = c.ledgers ∧
        (reserveAccountRequest P r jobs c).2.dispatch = c.dispatch) ∨
      ∃ workload next d, r.Cleared P workload jobs c ∧ r.slot jobs c = .ok ((true, next), d) ∧
        reserveAccountRequest P r jobs c = (.ok .granted, r.count P workload d) := by
  unfold reserveAccountRequest
  split
  · exact .inl ⟨by simp, rfl, rfl⟩
  · next hpositive =>
    split
    · exact .inl ⟨by simp, rfl, rfl⟩
    · next workload hworkload =>
      split
      · next decision hrefusal =>
        exact .inl ⟨by simpa using ReserveRequest.refusal_ne_granted P hrefusal, rfl, rfl⟩
      · next hrefusal =>
        split
        · exact .inl ⟨by simp, rfl, rfl⟩
        · next next d hslot =>
          obtain ⟨hl, hd⟩ := ReserveRequest.slot_ledgers hslot
          exact .inl ⟨by simp, hl, hd rfl⟩
        · next next d hslot =>
          split
          · exact .inl ⟨by simp, rfl, rfl⟩
          · next hfresh =>
            exact .inr ⟨workload, next, d, ⟨by omega, hworkload, hrefusal, by simpa using hfresh⟩,
              hslot, rfl⟩

/-! ## What the provider answered -/

/-- `mark_account_request_attempted` -/
def markAccountRequestAttempted (usageId : String) (now : ℤ) (c : Capacity) :
    Outcome Unit × Capacity :=
  if c.requests.hits (fun u => u.usageId = usageId) = 1 then
    (.ok (), { c with
      requests := c.requests.update (fun u => u.usageId = usageId)
        (fun u => { u with attemptedAt := some (u.attemptedAt.getD now) }) fun _ => rfl })
  else (.error (.valueError "model request admission is missing"), c)

structure OutcomeReport where
  usageId : String
  outcome : String
  providerHttpStatus : Option ℤ := none
  retryAfterSeconds : Option ℤ := none
  promptTokenCount : Option ℤ := none
  candidatesTokenCount : Option ℤ := none
  totalTokenCount : Option ℤ := none
  providerModelVersion : Option String := none
  now : ℤ
  independentProviderScope : Option String := none

/-- `usage_id=? AND attempted_at IS NOT NULL AND provider_outcome IS NULL` -/
def OutcomeReport.claimable (r : OutcomeReport) (u : RequestUsage) : Bool :=
  u.usageId = r.usageId && u.attemptedAt.isSome && u.providerOutcome.isNone

/-- The columns that an outcome sets. -/
def OutcomeReport.set (r : OutcomeReport) (outcome : ProviderOutcome) (u : RequestUsage) :
    RequestUsage :=
  { u with
    providerOutcome := some outcome
    providerHttpStatus := r.providerHttpStatus
    providerCompletedAt := some r.now
    providerPromptTokenCount := r.promptTokenCount
    providerCandidatesTokenCount := r.candidatesTokenCount
    providerTotalTokenCount := r.totalTokenCount
    providerModelVersion := r.providerModelVersion }

/-- The deadline that an independent provider's `Retry-After` sets. -/
def OutcomeReport.deferIndependent (r : OutcomeReport) (outcome : ProviderOutcome) (c : Capacity) :
    Capacity :=
  match r.independentProviderScope, r.retryAfterSeconds.filter (· ≠ 0) with
  | some scope, some seconds =>
    let deadline := r.now + retryAfterWait seconds
    { c with
      dispatch := c.dispatch.upsert
        { firstDispatch r.now with
          providerScope := scope
          nextEligibleAt := deadline
          cooldownUntil := some deadline
          lastOutcome := some outcome.text }
        (fun d => { d with
          nextEligibleAt := max d.nextEligibleAt deadline
          cooldownUntil := some (max (d.cooldownUntil.getD deadline) deadline)
          lastOutcome := some outcome.text
          updatedAt := r.now }) fun _ => rfl }
  | _, _ => c

/-- `record_account_request_outcome`; the token calibration it also feeds is not
    read by any call modelled here. -/
def recordAccountRequestOutcome (r : OutcomeReport) (c : Capacity) : Outcome Unit × Capacity :=
  match ofText? ProviderOutcome.text PROVIDER_OUTCOMES r.outcome with
  | none => (.error (.valueError "provider request outcome is not controlled"), c)
  | some outcome =>
    if (c.requests.find? r.usageId).isNone then
      (.error (.valueError "model request admission is missing"), c)
    else if c.requests.hits r.claimable ≠ 1 then
      (.error (.valueError "model request outcome is not claimable"), c)
    else
      let recorded := r.deferIndependent outcome { c with
        requests := c.requests.update r.claimable (r.set outcome) fun _ => rfl }
      if r.independentProviderScope.isSome then (.ok (), recorded)
      else recordProviderDispatchOutcome r.outcome r.retryAfterSeconds r.now recorded

/-- `record_account_vectors_committed` -/
def recordAccountVectorsCommitted (usageIds : List String) (now : ℤ) (c : Capacity) :
    Outcome Unit × Capacity :=
  let p (u : RequestUsage) := u.usageId ∈ usageIds && u.providerOutcome = some .succeeded &&
    u.vectorsCommittedAt.isNone
  if usageIds = [] then (.ok (), c)
  else if c.requests.hits p ≠ usageIds.length then
    (.error (.valueError "successful embedding admissions are incomplete"), c)
  else (.ok (), { c with
    requests := c.requests.update p (fun u => { u with vectorsCommittedAt := some now }) fun _ => rfl })

/-! ## Deferrals -/

def SCHEDULER_DEFERRAL_RETENTION : ℤ := IsoTime.day

/-- `record_scheduler_deferral`; budget deferrals of a job are coalesced, and
    rewritten at most every five minutes. -/
def recordSchedulerDeferral (jobId accountId failureCode : String) (deferredAt : ℤ) (c : Capacity) :
    Outcome Unit × Capacity :=
  let coalesced : Bool := failureCode = "BACKFILL_BUDGET_DEFERRED"
  let deferralId := P.sha256 ("|".intercalate [jobId, accountId, failureCode,
    if coalesced then "coalesced" else IsoTime.iso deferredAt])
  let kept := c.deferrals.delete fun d => d.deferredAt ≤ deferredAt - SCHEDULER_DEFERRAL_RETENTION
  let recent := (kept.find? deferralId).any fun d => deferredAt - 5 * IsoTime.minute < d.deferredAt
  (.ok (), { c with
    deferrals :=
      if coalesced && recent then kept
      else kept.upsert ⟨deferralId, jobId, failureCode, deferredAt⟩
        (fun d => { d with deferredAt := deferredAt }) fun _ => rfl })

/-! ## Retention -/

/-- The deletions of `install_scheduler_schema` at `installedAt`. -/
def pruneLedgers (installedAt : ℤ) (c : Capacity) : Capacity :=
  { c with
    requests := c.requests.delete fun u => u.reservedAt ≤ installedAt - IsoTime.day
    deferrals := c.deferrals.delete fun d => d.deferredAt ≤ installedAt - IsoTime.day
    workload := c.workload.delete fun w =>
      w.quotaDay < P.localDay PACIFIC (installedAt - BACKFILL_FORECAST_DAYS * IsoTime.day) }

/-! ## A ledger to run the model on -/

/-- One LIVE request on each of the seven days before day 7. -/
def sevenDayHistory : Capacity :=
  { Capacity.empty with
    workload :=
      ⟨(List.range 7).map fun d => ⟨d, 12, "account", "gemini_quota", .liveOperational, 1, 0⟩,
        by decide⟩ }

end Xauusd.Scheduler
