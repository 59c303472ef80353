/-
  The shared provider governor (`news/scheduler/state.py`): one dispatch slot
  at a time for all tasks of the provider.

  * `reserveProviderDispatchLocked` grants a slot to the selected task class
    once the provider is eligible again;
  * `recordProviderDispatchOutcome` adapts the interval and the cooldown to
    what the provider answered.

  The pressures are computed in exact arithmetic, where the source truncates a
  double number of milliseconds.
-/
import Xauusd.Scheduler.Capacity

namespace Xauusd.Scheduler

def GOOGLE_PROVIDER_SCOPE : String := "GOOGLE_GENERATIVE_LANGUAGE"
def PROVIDER_DISPATCH_INITIAL_INTERVAL_MS : ℕ := 250
def PROVIDER_DISPATCH_MIN_INTERVAL_MS : ℕ := 120
def PROVIDER_DISPATCH_MAX_INTERVAL_MS : ℕ := 5000
def PROVIDER_DISPATCH_DEMAND_TTL : ℤ := 2 * IsoTime.second

/-- An interval in microseconds. -/
def intervalOf (intervalMs : ℕ) : ℤ := intervalMs * 1000

/-! ## Demand -/

/-- `_provider_task_class` -/
def providerTaskClass (providerTask : String) : ProviderTaskClass :=
  let normalized := (Text.upper (Text.strip providerTask)).map fun c => if c = '-' then '_' else c
  let has (word : String) := normalized.toList.tails.any word.toList.isPrefixOf
  if has "DAILY" && has "BRIEF" then .dailyBrief
  else if has "EMBEDDING" then .embedding
  else if has "IMPACT" then .impact
  else if has "TITLE" || has "TRANSLATION" then .titleRepair
  else ProviderTaskClass.annotation

/-- The task type of which a class reads the queue. -/
def ProviderTaskClass.taskType : ProviderTaskClass → TaskType
  | annotation => TaskType.activeAnnotation
  | titleRepair => .titleTranslation
  | impact | embedding | dailyBrief => .activeImpact

/-- The jobs that a class counts as its backlog. -/
def ProviderTaskClass.demands (c : ProviderTaskClass) (now : ℤ) (j : Job) : Bool :=
  j.taskType = c.taskType && (j.state = .queued || j.state = .leased || j.state = .backingOff) &&
    (j.state = .leased || decide (j.availableAt ≤ now)) &&
    (c ≠ .embedding || j.lastError.any fun e =>
      Text.like "NEWS_EMBEDDING_%" e || e = "PROVIDER_DISPATCH_DEFERRED")

/-- `max(0, int((now - t).total_seconds() * 1000))` -/
def elapsedMs (now t : ℤ) : ℤ := max 0 ((now - t) / 1000)

/-- `_provider_pressure` -/
def providerPressure (jobs : List Job) (tasks : Table DispatchTaskState.taskClass)
    (taskClass : ProviderTaskClass) (now : ℤ) : Pressure :=
  match taskClass with
  | .dailyBrief =>
    let stored := (tasks.find? .dailyBrief).map (·.lastPressure) |>.getD ⟨0, 0, 0, 0, 0⟩
    { dependencyFanout := max 0 stored.dependencyFanout
      oldestAgeMs := max 0 stored.oldestAgeMs
      retryOverdueMs := max 0 stored.retryOverdueMs
      backlog := max 1 stored.backlog
      drainGap := max 0 stored.drainGap }
  | c =>
    let rows := jobs.filter (c.demands now)
    let backlog : ℤ := max 1 rows.length
    let completed := jobs.countP fun j => j.taskType = c.taskType && j.state = .completed &&
      j.completedAt.any fun t => now - 15 * IsoTime.minute ≤ t
    { dependencyFanout := if c = .embedding then rows.length else 0
      oldestAgeMs := elapsedMs now (((rows.map (·.createdAt)).min?).getD now)
      retryOverdueMs := elapsedMs now (((rows.map (·.availableAt)).min?).getD now)
      backlog := backlog
      drainGap := max 0 (backlog - completed) }

/-- `_register_provider_demand` -/
def registerProviderDemand (jobs : List Job) (taskClass : ProviderTaskClass) (now : ℤ)
    (pressure : Option Pressure) (c : Capacity) : Capacity :=
  let pressure := pressure.getD (providerPressure jobs c.dispatchTasks taskClass now)
  { c with
    dispatchTasks := c.dispatchTasks.upsert
      ⟨taskClass, now, now + PROVIDER_DISPATCH_DEMAND_TTL, none, pressure⟩
      (fun row => { row with
        lastRequestedAt := now
        demandUntil := now + PROVIDER_DISPATCH_DEMAND_TTL
        lastPressure := pressure }) fun _ => rfl }

/-- One pressure is nowhere below another and somewhere above it. -/
def Pressure.dominates (p q : Pressure) : Bool :=
  let ge := q.dependencyFanout ≤ p.dependencyFanout ∧ q.oldestAgeMs ≤ p.oldestAgeMs ∧
    q.retryOverdueMs ≤ p.retryOverdueMs ∧ q.backlog ≤ p.backlog ∧ q.drainGap ≤ p.drainGap
  decide (ge ∧ p ≠ q)

/-- `(last_dispatched_at is not None, last_dispatched_at or "", task_class)` -/
def DispatchTaskState.turnBefore (a b : DispatchTaskState) : Bool :=
  let turn (t : DispatchTaskState) : List ℤ := [if t.lastDispatchedAt.isSome then 1 else 0,
    t.lastDispatchedAt.getD 0]
  decide (turn a < turn b ∨ turn a = turn b ∧ a.taskClass.text ≤ b.taskClass.text)

/-- The task states with current demand, their pressures brought up to date. -/
def Capacity.candidates (c : Capacity) (jobs : List Job) (now : ℤ) : List DispatchTaskState :=
  (c.dispatchTasks.rows.filter fun t => now ≤ t.demandUntil).map fun t =>
    { t with lastPressure := providerPressure jobs c.dispatchTasks t.taskClass now }

/-- The pressures that `_selected_provider_task` writes back. -/
def Capacity.refreshPressures (c : Capacity) (jobs : List Job) (now : ℤ) : Capacity :=
  { c with
    dispatchTasks := c.dispatchTasks.update (fun t => now ≤ t.demandUntil)
      (fun t => { t with lastPressure := providerPressure jobs c.dispatchTasks t.taskClass now })
      fun _ => rfl }

/-- `_selected_provider_task`: of the candidates that none dominates, the one
    that has waited longest for a slot. -/
def Capacity.selectedProviderTask (c : Capacity) (jobs : List Job) (now : ℤ) :
    Outcome ProviderTaskClass :=
  let candidates := c.candidates jobs now
  let frontier := candidates.filter fun t =>
    !(candidates.any fun t' => t'.lastPressure.dominates t.lastPressure)
  match Table.firstBy DispatchTaskState.turnBefore frontier with
  | some t => .ok t.taskClass
  | none => .error (.valueError "min() iterable argument is empty")

/-! ## Slots -/

/-- `_provider_dispatch_row` -/
def Capacity.providerDispatchRow (c : Capacity) : Option DispatchState :=
  c.dispatch.find? GOOGLE_PROVIDER_SCOPE

/-- The instant from which a slot may be granted. -/
def DispatchState.eligibleAt (row : DispatchState) (now : ℤ) : ℤ :=
  max row.nextEligibleAt (row.cooldownUntil.getD now)

/-- The row that the provider has before its first slot. -/
def firstDispatch (now : ℤ) : DispatchState where
  providerScope := GOOGLE_PROVIDER_SCOPE
  nextEligibleAt := now
  intervalMs := PROVIDER_DISPATCH_INITIAL_INTERVAL_MS
  successStreak := 0
  throttleCount := 0
  cooldownUntil := none
  lastOutcome := none
  updatedAt := now

/-- The statements that grant a slot to `taskClass` at `now`. -/
def Capacity.grantDispatch (c : Capacity) (row : DispatchState) (taskClass : ProviderTaskClass)
    (now : ℤ) : Capacity :=
  let granted (d : DispatchState) : DispatchState :=
    { d with
      nextEligibleAt := now + intervalOf row.intervalMs
      lastOutcome := some "DISPATCHED"
      updatedAt := now }
  { c with
    dispatch := c.dispatch.upsert
      (granted { firstDispatch now with intervalMs := row.intervalMs }) granted fun _ => rfl
    dispatchTasks := c.dispatchTasks.update (fun t => t.taskClass = taskClass)
      (fun t => { t with lastDispatchedAt := some now }) fun _ => rfl }

/-- `_reserve_provider_dispatch_locked`: whether the slot is granted, and the
    instant of the next one. -/
def reserveProviderDispatchLocked (jobs : List Job) (providerTask : String) (now : ℤ)
    (c : Capacity) : Outcome ((Bool × ℤ) × Capacity) := do
  let taskClass := providerTaskClass providerTask
  let c := registerProviderDemand jobs taskClass now none c
  let row := c.providerDispatchRow.getD (firstDispatch now)
  if now < row.eligibleAt now then return ((false, row.eligibleAt now), c)
  let selected ← c.selectedProviderTask jobs now
  let c := c.refreshPressures jobs now
  if selected ≠ taskClass then return ((false, now + intervalOf row.intervalMs), c)
  if !row.check then throw .integrityError
  return ((true, now + intervalOf row.intervalMs), c.grantDispatch row taskClass now)

/-- The row that a slot is granted on. -/
def Capacity.dispatchRow (c : Capacity) (now : ℤ) : DispatchState :=
  c.providerDispatchRow.getD (firstDispatch now)

/-- What a reservation of a slot can do: leave the provider's row, or grant a
    slot on it, once it is eligible. -/
theorem reserveProviderDispatchLocked_cases {jobs : List Job} {c c' : Capacity} {providerTask : String} {now next : ℤ} {granted : Bool}
    (h : reserveProviderDispatchLocked jobs providerTask now c = .ok ((granted, next), c')) :
    (granted = false ∧ c'.dispatch = c.dispatch ∧ c'.ledgers = c.ledgers) ∨
      (granted = true ∧ (c.dispatchRow now).nextEligibleAt ≤ now ∧
        (c.dispatchRow now).check = true ∧ ∃ (taskClass : ProviderTaskClass) (d : Capacity),
          d.dispatch = c.dispatch ∧ d.ledgers = c.ledgers ∧
            c' = d.grantDispatch (c.dispatchRow now) taskClass now) := by
  simp only [reserveProviderDispatchLocked, bind, pure, Except.pure, throw, throwThe,
    MonadExceptOf.throw] at h
  have hrow : (registerProviderDemand jobs (providerTaskClass providerTask) now none
      c).providerDispatchRow.getD (firstDispatch now) = c.dispatchRow now := rfl
  rw [hrow] at h
  split at h
  · simp only [Except.ok.injEq, Prod.mk.injEq] at h
    exact .inl ⟨h.1.1.symm, h.2 ▸ rfl, h.2 ▸ rfl⟩
  · next heligible =>
    obtain ⟨selected, -, h⟩ := Outcome.bind_eq_ok.1 h
    split at h
    · simp only [Except.ok.injEq, Prod.mk.injEq] at h
      exact .inl ⟨h.1.1.symm, h.2 ▸ rfl, h.2 ▸ rfl⟩
    · simp only [Except.bind, Outcome.ite_error_eq_ok, Except.ok.injEq, Prod.mk.injEq] at h
      obtain ⟨hcheck, ⟨hgranted, -⟩, hc'⟩ := h
      have hle : (c.dispatchRow now).nextEligibleAt ≤ now :=
        (le_max_left _ _).trans (not_lt.1 heligible)
      exact .inr ⟨hgranted.symm, hle, by simpa using hcheck, _,
        (registerProviderDemand jobs _ now none c).refreshPressures jobs now, rfl, rfl, hc'.symm⟩

/-! ## Outcomes -/

/-- `round(9 * n / 10)`, half to even -/
def roundNineTenths (n : ℕ) : ℕ :=
  let (q, r) := (9 * n / 10, 9 * n % 10)
  if r < 5 then q else if 5 < r then q + 1 else if q % 2 = 0 then q else q + 1

/-- `max(1, min(86_400, retry_after_seconds))`, in microseconds -/
def retryAfterWait (retryAfterSeconds : ℤ) : ℤ :=
  max 1 (min 86400 retryAfterSeconds) * IsoTime.second

/-- The interval after a throttle. -/
def throttledInterval (intervalMs : ℕ) : ℕ :=
  min PROVIDER_DISPATCH_MAX_INTERVAL_MS (max PROVIDER_DISPATCH_INITIAL_INTERVAL_MS (intervalMs * 2))

/-- The interval after a success. -/
def succeededInterval (intervalMs : ℕ) : ℕ :=
  max PROVIDER_DISPATCH_MIN_INTERVAL_MS (roundNineTenths intervalMs)

/-- The wait that an outcome imposes: a throttle's, or that of a failure with
    `Retry-After`. -/
def DispatchState.wait (row : DispatchState) (outcome : ProviderOutcome)
    (retryAfterSeconds : Option ℤ) : Option ℤ :=
  match outcome, retryAfterSeconds with
  | .throttled, some s | .failed, some s => some (retryAfterWait s)
  | .throttled, none => some (intervalOf (throttledInterval row.intervalMs))
  | _, _ => none

/-- The row after an outcome. -/
def DispatchState.recorded (row : DispatchState) (outcome : ProviderOutcome)
    (retryAfterSeconds : Option ℤ) (now : ℤ) : DispatchState :=
  let row' : DispatchState :=
    match outcome, row.wait outcome retryAfterSeconds with
    | .throttled, some wait => { row with
        intervalMs := throttledInterval row.intervalMs
        successStreak := 0
        throttleCount := row.throttleCount + 1
        cooldownUntil := some (now + wait)
        nextEligibleAt := max row.nextEligibleAt (now + wait) }
    | .failed, some wait => { row with
        successStreak := 0
        cooldownUntil := some (now + wait)
        nextEligibleAt := max row.nextEligibleAt (now + wait) }
    | .succeeded, _ =>
      if row.cooldownUntil.all fun t => t ≤ now then
        { row with
          intervalMs := succeededInterval row.intervalMs
          successStreak := row.successStreak + 1
          cooldownUntil := none }
      else { row with successStreak := 0 }
    | _, _ => { row with successStreak := 0 }
  { row' with lastOutcome := some outcome.text, updatedAt := now }

/-- The row `d` with all columns but its scope from `row`. -/
def DispatchState.replacing (row d : DispatchState) : DispatchState :=
  { row with providerScope := d.providerScope }

theorem DispatchState.replacing_scope (row d : DispatchState) :
    (row.replacing d).providerScope = d.providerScope := rfl

/-- `record_provider_dispatch_outcome` -/
def recordProviderDispatchOutcome (outcome : String) (retryAfterSeconds : Option ℤ) (now : ℤ)
    (c : Capacity) : Outcome Unit × Capacity :=
  match ofText? ProviderOutcome.text PROVIDER_OUTCOMES outcome with
  | none => (.error (.valueError "provider dispatch outcome is not controlled"), c)
  | some outcome =>
    match c.providerDispatchRow with
    | none => (.ok (), c)
    | some row =>
      if !(row.recorded outcome retryAfterSeconds now).check then (.error .integrityError, c)
      else (.ok (), { c with
        dispatch := c.dispatch.update (fun d => d.providerScope = GOOGLE_PROVIDER_SCOPE)
          (row.recorded outcome retryAfterSeconds now).replacing (DispatchState.replacing_scope _) })

/-- `reserve_provider_dispatch` -/
def reserveProviderDispatch (jobs : List Job) (providerTask : String) (now : ℤ) (c : Capacity) :
    Outcome (Bool × ℤ) × Capacity :=
  match reserveProviderDispatchLocked jobs providerTask now c with
  | .error e => (.error e, c)
  | .ok (decision, c') => (.ok decision, c')

/-- `register_provider_dispatch_demand` -/
def registerProviderDispatchDemand (jobs : List Job) (providerTask : String) (now : ℤ)
    (pressure : Option Pressure) (c : Capacity) : Outcome Unit × Capacity :=
  (.ok (), registerProviderDemand jobs (providerTaskClass providerTask) now pressure c)

end Xauusd.Scheduler
