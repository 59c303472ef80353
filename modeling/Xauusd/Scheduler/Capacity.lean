/-
  The capacity tables of the scheduler (`news/scheduler/state.py`): the request
  ledgers of the accounts, and the state of the shared provider governor.
-/
import Xauusd.Scheduler.Types

namespace Xauusd.Scheduler

/-! ## Vocabularies -/

inductive WorkloadClass where
  | liveOperational
  | contractBackfill
  deriving DecidableEq, Repr

def WorkloadClass.text : WorkloadClass → String
  | liveOperational => "LIVE_OPERATIONAL"
  | contractBackfill => "CONTRACT_BACKFILL"

def REQUEST_WORKLOADS : List WorkloadClass := [.liveOperational, .contractBackfill]

/-- `WorkProvenance.workload_class` -/
def WorkProvenance.workloadClass (p : WorkProvenance) : WorkloadClass :=
  if p.workLane = .contractBackfill then .contractBackfill else .liveOperational

inductive ProviderOutcome where
  | succeeded
  | throttled
  | failed
  deriving DecidableEq, Repr

def ProviderOutcome.text : ProviderOutcome → String
  | succeeded => "PROVIDER_SUCCEEDED"
  | throttled => "PROVIDER_THROTTLED"
  | failed => "PROVIDER_FAILED"

def PROVIDER_OUTCOMES : List ProviderOutcome := [.succeeded, .throttled, .failed]

inductive ProviderTaskClass where
  | annotation
  | impact
  | titleRepair
  | embedding
  | dailyBrief
  deriving DecidableEq, Repr

def ProviderTaskClass.text : ProviderTaskClass → String
  | annotation => "ANNOTATION"
  | impact => "IMPACT"
  | titleRepair => "TITLE_REPAIR"
  | embedding => "EMBEDDING"
  | dailyBrief => "DAILY_BRIEF"

/-! ## Rows -/

/-- A row of `news_ai_account_daily_usage_v1`; a quota day is a day number. -/
structure DailyUsage where
  quotaDay : ℤ
  accountId : String
  modelFamily : String
  requestCount : ℕ
  updatedAt : ℤ
  deriving DecidableEq, Repr

def DailyUsage.key (u : DailyUsage) : ℤ × String × String :=
  (u.quotaDay, u.accountId, u.modelFamily)

/-- A row of `news_ai_account_minute_usage_v1`; a bucket is the instant its
    minute starts at. -/
structure MinuteUsage where
  minuteBucket : ℤ
  accountId : String
  modelFamily : String
  requestCount : ℕ
  inputTokenCount : ℕ
  updatedAt : ℤ
  deriving DecidableEq, Repr

def MinuteUsage.key (u : MinuteUsage) : ℤ × String × String :=
  (u.minuteBucket, u.accountId, u.modelFamily)

/-- A row of `news_ai_account_request_usage_v1`. -/
structure RequestUsage where
  usageId : String
  accountId : String
  modelFamily : String
  requestCount : ℕ
  inputTokenCount : ℕ
  reservedAt : ℤ
  attemptedAt : Option ℤ
  providerOutcome : Option ProviderOutcome
  providerHttpStatus : Option ℤ
  providerCompletedAt : Option ℤ
  vectorsCommittedAt : Option ℤ
  providerPromptTokenCount : Option ℤ
  providerCandidatesTokenCount : Option ℤ
  providerTotalTokenCount : Option ℤ
  requestedModel : String
  purpose : Option String
  promptContract : Option String
  estimatorVersion : Option String
  baseEstimatedInputTokens : Option ℕ
  admittedInputTokens : Option ℕ
  calibrationProviderModelVersion : Option String
  providerModelVersion : Option String
  workloadClass : WorkloadClass
  deriving DecidableEq, Repr

/-- A row of `news_ai_quota_day_workload_v1`. -/
structure QuotaDayWorkload where
  quotaDay : ℤ
  hourBucket : ℕ
  accountId : String
  quotaAuthority : String
  workloadClass : WorkloadClass
  requestCount : ℕ
  updatedAt : ℤ
  deriving DecidableEq, Repr

def QuotaDayWorkload.key (w : QuotaDayWorkload) : ℤ × ℕ × String × String × WorkloadClass :=
  (w.quotaDay, w.hourBucket, w.accountId, w.quotaAuthority, w.workloadClass)

/-- What the scheduler reads of a row of `news_ai_scheduler_deferrals_v1`. -/
structure SchedulerDeferral where
  deferralId : String
  jobId : String
  failureCode : String
  deferredAt : ℤ
  deriving DecidableEq, Repr

/-- A row of `news_ai_provider_dispatch_state_v1`. -/
structure DispatchState where
  providerScope : String
  nextEligibleAt : ℤ
  intervalMs : ℕ
  successStreak : ℕ
  throttleCount : ℕ
  cooldownUntil : Option ℤ
  lastOutcome : Option String
  updatedAt : ℤ
  deriving DecidableEq, Repr

/-- `CHECK(interval_ms BETWEEN 120 AND 5000)` -/
def DispatchState.check (d : DispatchState) : Bool := 120 ≤ d.intervalMs && d.intervalMs ≤ 5000

/-- The pressure of a task class, as `last_pressure_json` holds it; a member
    that the text lacks reads as 0. -/
structure Pressure where
  dependencyFanout : ℤ
  oldestAgeMs : ℤ
  retryOverdueMs : ℤ
  backlog : ℤ
  drainGap : ℤ
  deriving DecidableEq, Repr

/-- A row of `news_ai_provider_dispatch_task_state_v1`. -/
structure DispatchTaskState where
  taskClass : ProviderTaskClass
  lastRequestedAt : ℤ
  demandUntil : ℤ
  lastDispatchedAt : Option ℤ
  lastPressure : Pressure
  deriving DecidableEq, Repr

/-- The four request ledgers, the deferrals and the governor's two tables. -/
structure Capacity where
  daily : Table DailyUsage.key
  minute : Table MinuteUsage.key
  requests : Table RequestUsage.usageId
  workload : Table QuotaDayWorkload.key
  deferrals : Table SchedulerDeferral.deferralId
  dispatch : Table DispatchState.providerScope
  dispatchTasks : Table DispatchTaskState.taskClass

def Capacity.empty : Capacity := ⟨.empty, .empty, .empty, .empty, .empty, .empty, .empty⟩

/-- The four request ledgers. -/
def Capacity.ledgers (c : Capacity) : Table DailyUsage.key × Table MinuteUsage.key ×
    Table RequestUsage.usageId × Table QuotaDayWorkload.key :=
  (c.daily, c.minute, c.requests, c.workload)

end Xauusd.Scheduler
