/-
  The cooldown of a throttled pool.

  The health of a pool and model is one row, and every outcome that is recorded
  overwrites it.  A request that was under way when another one was throttled
  may so end the cooldown.

  * `CoolsUntil`: the row holds a cooldown that lasts up to an instant;
  * `reserve_cools`: while it lasts, nothing is reserved;
  * `Lasting`: an outcome recorded while the pool cools is another throttle, or
    the failure that reaches the threshold, and its cooldown ends no earlier;
  * `lasting_iff`: **what such an outcome does, and no other**: the pool stays
    closed as long as it was;
  * `cooldown_kept`: **a throttled pool stays closed over every run of such
    calls**.
-/
import Xauusd.Pool.TokenCeiling

namespace Xauusd.Pool

variable {P : Platform} {db : PoolDb} {policy : CapacityPolicy} {report : FinishReport}

/-! ## The gate -/

/-- The pool and model cool down up to an instant at least. -/
def PoolDb.CoolsUntil (db : PoolDb) (k : String × String) (t : ℤ) : Prop :=
  ∃ h, db.health.find? k = some h ∧ h.health = .cooldown ∧ ∃ u, h.cooldownUntil = some u ∧ t ≤ u

/-- The key of a policy's health. -/
def CapacityPolicy.pair (policy : CapacityPolicy) : String × String := (policy.credentialPoolId, policy.modelId)

theorem coolsAt_of_coolsUntil {k : String × String} {t now : ℤ} (h : db.CoolsUntil k t) (hlt : now < t) :
    (db.health.find? k).any (·.coolsAt now) = true := by
  obtain ⟨row, hrow, hhealth, u, hu, hle⟩ := h
  have hnow : now < u := hlt.trans_le hle
  simp [hrow, PoolHealth.coolsAt, hhealth, hu, hnow]

theorem snapshot_cools (P : Platform) (db : PoolDb) (policy : CapacityPolicy) (estimatedInputTokens : ℕ) {now : ℤ}
    (h : (db.health.find? policy.pair).any (·.coolsAt now) = true) :
    (capacitySnapshot P policy estimatedInputTokens now db).available = false := by
  have hgate : (db.health.find? (policy.credentialPoolId, policy.modelId)).any (·.coolsAt now) = true := h
  simp only [capacitySnapshot, hgate, if_true]

/-- While the pool cools, nothing is reserved. -/
theorem reserve_cools {c : ReserveCall} {t : ℤ} (h : db.CoolsUntil c.policy.pair t) (hlt : c.now < t) :
    reserveAssistantCapacity P c db = (.ok none, db) := by
  have hclosed := snapshot_cools P (db.abandonExpired c.now) c.policy c.estimatedInputTokens
    (coolsAt_of_coolsUntil h hlt)
  simp [reserveAssistantCapacity, hclosed]

/-! ## Recording an outcome -/

/-- The outcome is recorded: its code is well formed, and the reservation is in
    flight. -/
def Reservation.Recorded (r : Reservation) (report : FinishReport) (db : PoolDb) : Prop :=
  (report.failureCode.any fun code => !isFailureCode code) = false ∧
    db.reservations.hits (fun row => row.reservationId = r.reservationId && row.state = .inFlight) = 1

instance (r : Reservation) (report : FinishReport) (db : PoolDb) : Decidable (r.Recorded report db) := by
  unfold Reservation.Recorded; infer_instance

theorem finish_of_recorded {r : Reservation} (h : r.Recorded report db) (k : String × String) :
    (finishReservation r report db).2.health.find? k = (db.recordHealth r.policy report).health.find? k := by
  unfold finishReservation
  rw [if_neg (by simp [h.1]), if_neg (not_not.2 h.2)]
  unfold PoolDb.recordHealth
  split
  · rfl
  · split
    · rfl
    · rfl

theorem finish_of_not_recorded {r : Reservation} (h : ¬ r.Recorded report db) :
    (finishReservation r report db).2 = db := by
  unfold finishReservation
  split
  · rfl
  · next hcode =>
    rw [if_pos]
    intro hhits
    exact h ⟨by simpa using hcode, hhits⟩

/-- The health that an outcome leaves, if it leaves one. -/
def FinishReport.healthAfter (report : FinishReport) (policy : CapacityPolicy) (prior : Option PoolHealth) :
    Option PoolHealth :=
  if report.state = .succeeded then
    some ((prior.map (PoolHealth.recover report.now)).getD (.healthy policy report.now))
  else if report.affectsHealth then
    some ((prior.map (PoolHealth.overwrite (.failed policy report prior))).getD (.failed policy report prior))
  else prior

theorem recordHealth_find? (policy : CapacityPolicy) (report : FinishReport) (db : PoolDb) (k : String × String) :
    (db.recordHealth policy report).health.find? k =
      if k = policy.pair then report.healthAfter policy (db.health.find? k) else db.health.find? k := by
  unfold PoolDb.recordHealth FinishReport.healthAfter
  by_cases hstate : report.state = .succeeded
  · rw [if_pos hstate, if_pos hstate]
    exact Table.find?_upsert _ k
  · rw [if_neg hstate, if_neg hstate]
    by_cases haffects : report.affectsHealth = true
    · rw [if_pos haffects, if_pos haffects]
      dsimp only
      rw [Table.find?_upsert]
      by_cases hk : k = policy.pair
      · subst hk
        rfl
      · rw [if_neg hk]
        exact if_neg hk
    · rw [if_neg haffects, if_neg haffects]
      exact (ite_self _).symm

/-- A throttle. -/
def FinishReport.throttles (report : FinishReport) : Prop :=
  report.state ≠ .succeeded ∧ report.affectsHealth = true ∧ report.providerHttpStatus = some 429

/-- The end of the cooldown that a report starts. -/
def FinishReport.cooledUntil (report : FinishReport) (policy : CapacityPolicy) : ℤ :=
  report.now + policy.cooldownSeconds * IsoTime.second

/-- After a failure, the pool cools exactly if the failure cools it down. -/
theorem cools_failed (policy : CapacityPolicy) (prior : Option PoolHealth) (hstate : report.state ≠ .succeeded) (haffects : report.affectsHealth = true) :
    ∃ h, report.healthAfter policy prior = some h ∧
      h.health = (if report.coolsDown policy ((prior.map (·.consecutiveFailures)).getD 0 + 1) then .cooldown else .degraded) ∧
      h.cooldownUntil = (if report.coolsDown policy ((prior.map (·.consecutiveFailures)).getD 0 + 1) then
        some (report.cooledUntil policy) else none) := by
  unfold FinishReport.healthAfter
  rw [if_neg hstate, if_pos haffects]
  cases prior with
  | none => exact ⟨_, rfl, rfl, rfl⟩
  | some h => exact ⟨_, rfl, rfl, rfl⟩

theorem coolsUntil_throttle {r : Reservation} (h : r.Recorded report db) (hthrottles : report.throttles) :
    (finishReservation r report db).2.CoolsUntil r.policy.pair (report.cooledUntil r.policy) := by
  obtain ⟨hstate, haffects, hstatus⟩ := hthrottles
  obtain ⟨row, hrow, hhealth, huntil⟩ := cools_failed r.policy (db.health.find? r.policy.pair)
    hstate haffects
  have hcools : ∀ n, report.coolsDown r.policy n = true := by simp [FinishReport.coolsDown, hstatus]
  rw [hcools] at hhealth huntil
  refine ⟨row, ?_, hhealth, _, huntil, le_rfl⟩
  rw [finish_of_recorded h, recordHealth_find?, if_pos rfl, hrow]

/-! ## Outcomes that keep a cooldown -/

/-- An outcome that is recorded while its pool cools leaves the health alone, or
    starts a cooldown that ends no earlier. -/
def Reservation.Lasting (r : Reservation) (report : FinishReport) (db : PoolDb) : Prop :=
  r.Recorded report db → ∀ h ∈ db.health.find? r.policy.pair, h.coolsAt report.now = true →
    report.state ≠ .succeeded ∧ (report.affectsHealth = true →
      report.coolsDown r.policy (h.consecutiveFailures + 1) = true ∧
        ∀ u ∈ h.cooldownUntil, u ≤ report.cooledUntil r.policy)

instance (r : Reservation) (report : FinishReport) (db : PoolDb) : Decidable (r.Lasting report db) := by
  unfold Reservation.Lasting; infer_instance

/-- The pool stays closed as long as it was. -/
theorem coolsUntil_finish {r : Reservation} {k : String × String} {t : ℤ} (hlasting : r.Lasting report db)
    (h : db.CoolsUntil k t) (hlt : report.now < t) : (finishReservation r report db).2.CoolsUntil k t := by
  by_cases hrecorded : r.Recorded report db
  · obtain ⟨row, hrow, hhealth, u, hu, hle⟩ := h
    unfold PoolDb.CoolsUntil
    rw [finish_of_recorded hrecorded, recordHealth_find?]
    split
    · next hk =>
      subst hk
      have hcools : row.coolsAt report.now = true := by
        have hnow : report.now < u := hlt.trans_le hle
        simp [PoolHealth.coolsAt, hhealth, hu, hnow]
      obtain ⟨hstate, hlast⟩ := hlasting hrecorded row hrow hcools
      by_cases haffects : report.affectsHealth = true
      · obtain ⟨hcool, hlast⟩ := hlast haffects
        obtain ⟨after, hafter, hhealth', huntil⟩ := cools_failed r.policy (some row) hstate haffects
        simp only [Option.map_some, Option.getD_some, hcool, if_true] at hhealth' huntil
        exact ⟨after, by rw [hrow, hafter], hhealth', _, huntil, hle.trans (hlast u hu)⟩
      · have hnone : report.healthAfter r.policy (some row) = some row := by
          simp [FinishReport.healthAfter, hstate, haffects]
        exact ⟨row, by rw [hrow, hnone], hhealth, u, hu, hle⟩
    · exact ⟨row, hrow, hhealth, u, hu, hle⟩
  · rw [finish_of_not_recorded hrecorded]
    exact h

/-- **One outcome**: it keeps the cooldown of its pool exactly if it is lasting. -/
theorem lasting_iff {r : Reservation} {h : PoolHealth} {u : ℤ} (hrow : db.health.find? r.policy.pair = some h)
    (hhealth : h.health = .cooldown) (hu : h.cooldownUntil = some u) (hlt : report.now < u) :
    r.Lasting report db ↔ (finishReservation r report db).2.CoolsUntil r.policy.pair u := by
  constructor
  · exact fun hlasting => coolsUntil_finish hlasting ⟨h, hrow, hhealth, u, hu, le_rfl⟩ hlt
  · intro hcools hrecorded h' hrow' _
    obtain rfl := Option.some.inj (hrow.symm.trans hrow')
    obtain ⟨after, hafter, hcool, u', hu', hle⟩ := hcools
    rw [finish_of_recorded hrecorded, recordHealth_find?, if_pos rfl, hrow] at hafter
    have hstate : report.state ≠ .succeeded := by
      intro hstate
      simp only [FinishReport.healthAfter, hstate, if_true, Option.map_some, Option.getD_some, Option.some.injEq] at hafter
      rw [← hafter] at hcool
      cases hcool
    refine ⟨hstate, fun haffects => ?_⟩
    obtain ⟨after', hafter', hcool', huntil⟩ := cools_failed r.policy (some h) hstate haffects
    obtain rfl := Option.some.inj (hafter.symm.trans hafter')
    simp only [Option.map_some, Option.getD_some] at hcool' huntil
    by_cases hdown : report.coolsDown r.policy (h.consecutiveFailures + 1) = true
    · refine ⟨hdown, ?_⟩
      rintro u'' hu''
      rw [if_pos hdown, hu'] at huntil
      obtain rfl := Option.some.inj huntil
      obtain rfl := Option.some.inj (hu.symm.trans hu'')
      exact hle
    · rw [if_neg hdown, hu'] at huntil
      cases huntil

/-! ## Runs -/

/-- The call is no outcome, or a lasting one. -/
def PoolAction.Lasting (s : PoolState) : PoolAction → Prop
  | finish i report => ∀ a ∈ s.held[i]?, a.reservation.Lasting report s.db
  | _ => True

instance (s : PoolState) : (action : PoolAction) → Decidable (action.Lasting s)
  | .finish i report => inferInstanceAs (Decidable (∀ a ∈ s.held[i]?, a.reservation.Lasting report s.db))
  | .reserve _ | .confirm .. => .isTrue trivial

theorem reserve_health (P : Platform) (c : ReserveCall) (db : PoolDb) :
    (reserveAssistantCapacity P c db).2.health = db.health := by
  unfold reserveAssistantCapacity
  dsimp only
  split
  · rfl
  · split
    · rfl
    · rfl

theorem confirm_health (P : Platform) (a : Accountant) (usage : ModelRequestUsage) (now : ℤ) (db : PoolDb) :
    (a.reserve P usage now db).2.2.health = db.health := by
  by_cases hopen : a.confirmed = false ∧ usage.model = a.reservation.modelId ∧ Text.strip usage.purpose ≠ ""
  · rw [(reserve_of_open P now db hopen.1 hopen.2).2.1]
    unfold confirmReservedTokens
    split
    · rfl
    · dsimp only
      split
      · rfl
      · split
        · rfl
        · split
          · rfl
          · split
            · rfl
            · rfl
  · rw [(reserve_of_closed hopen).2]

theorem coolsUntil_of_health {db' : PoolDb} {k : String × String} {t : ℤ} (hhealth : db'.health = db.health)
    (h : db.CoolsUntil k t) : db'.CoolsUntil k t := by
  unfold PoolDb.CoolsUntil
  rw [hhealth]
  exact h

theorem coolsUntil_step {s : PoolState} {action : PoolAction} {k : String × String} {t : ℤ}
    (haction : action.now < t) (hlasting : action.Lasting s) (h : s.db.CoolsUntil k t) :
    (step P s action).2.db.CoolsUntil k t := by
  cases action with
  | reserve c =>
    have hhealth := reserve_health P c s.db
    simp only [step]
    split
    · next heq => exact coolsUntil_of_health (by rw [← hhealth, heq]) h
    · next heq => exact coolsUntil_of_health (by rw [← hhealth, heq]) h
  | confirm i usage now =>
    simp only [step]
    split
    · exact h
    · exact coolsUntil_of_health (confirm_health P _ usage now s.db) h
  | finish i report =>
    simp only [step]
    split
    · exact h
    · next a ha => exact coolsUntil_finish (hlasting a ha) h haction

/-- **A throttled pool stays closed for its cooldown.**  A reservation is
    throttled, and the calls that follow are lasting and not after the next
    reservation on the pool and model; then this one is refused until the
    cooldown is over. -/
theorem cooldown_kept (P : Platform) (before after : List PoolAction) (i : ℕ) (report : FinishReport)
    (a : Accountant) (c : ReserveCall)
    (ha : (Machine.run (step P) PoolState.initial before).held[i]? = some a)
    (hrecorded : a.reservation.Recorded report (Machine.run (step P) PoolState.initial before).db)
    (hthrottles : report.throttles)
    (hlasting : Machine.Along (step P) PoolAction.Lasting
      (Machine.run (step P) PoolState.initial (before ++ [.finish i report])) after)
    (hclock : ∀ x ∈ after, x.now ≤ c.now)
    (hpair : c.policy.pair = a.reservation.policy.pair)
    (hlt : c.now < report.cooledUntil a.reservation.policy) :
    (step P (Machine.run (step P) PoolState.initial (before ++ [.finish i report] ++ after)) (.reserve c)).1 =
      .reserved (.ok none) := by
  have hthrottled : (Machine.run (step P) PoolState.initial (before ++ [.finish i report])).db.CoolsUntil
      c.policy.pair (report.cooledUntil a.reservation.policy) := by
    rw [Machine.run_append, Machine.run_cons, Machine.run_nil, hpair]
    simp only [step, ha]
    exact coolsUntil_throttle hrecorded hthrottles
  have hcools := Machine.run_invariant
    (I := fun s : PoolState => s.db.CoolsUntil c.policy.pair (report.cooledUntil a.reservation.policy))
    (C := fun (s : PoolState) (x : PoolAction) => x.Lasting s ∧ x.now ≤ c.now)
    (fun s x hx hs => coolsUntil_step (hx.2.trans_lt hlt) hx.1 hs)
    (hlasting.and (Machine.along_of_mem hclock _)) hthrottled
  rw [Machine.run_append]
  simp only [step, reserve_cools hcools hlt]

/-- A throttle, so many seconds after the hour. -/
def sampleThrottle (seconds : ℤ) : FinishReport :=
  ⟨.throttled, IsoTime.hour + seconds * IsoTime.second, some 429, some "PROVIDER_HTTP_429", true⟩

/-- A request of 10 tokens. -/
def smallCall (reservationId : String) (seconds : ℤ) : ReserveCall :=
  { sampleCall reservationId seconds with estimatedInputTokens := 10 }

/-- Two small requests are under way. -/
def twoSmall : List PoolAction := [.reserve (smallCall "r1" 0), .reserve (smallCall "r2" 0)]

/-- Both are throttled. -/
theorem cooldown_kept_throttled :
    (step Platform.winter (Machine.run (step Platform.winter) PoolState.initial
      (twoSmall ++ [.finish 0 (sampleThrottle 1)] ++ [.finish 1 (sampleThrottle 2)]))
      (.reserve (smallCall "r3" 60))).1 = .reserved (.ok none) :=
  cooldown_kept Platform.winter twoSmall [.finish 1 (sampleThrottle 2)] 0 (sampleThrottle 1)
    ⟨(smallCall "r1" 0).reservation, false⟩ (smallCall "r3" 60) (by decide) (by decide)
    ⟨by decide, rfl, rfl⟩ (by decide) (by simp [PoolAction.now, sampleThrottle, smallCall, sampleCall, IsoTime.second])
    rfl (by decide)

/-- **The other one succeeds**, and the pool is open two seconds after the
    throttle. -/
theorem cooldown_overwritten :
    (sampleThrottle 1).throttles ∧
      (smallCall "r1" 0).reservation.Recorded (sampleThrottle 1)
        (Machine.run (step Platform.winter) PoolState.initial twoSmall).db ∧
      (smallCall "r3" 3).now < (sampleThrottle 1).cooledUntil samplePolicy ∧
      ∃ r, (step Platform.winter (Machine.run (step Platform.winter) PoolState.initial
        (twoSmall ++ [.finish 0 (sampleThrottle 1),
          .finish 1 ⟨.succeeded, IsoTime.hour + 2 * IsoTime.second, none, none, false⟩]))
        (.reserve (smallCall "r3" 3))).1 = .reserved (.ok (some r)) :=
  ⟨⟨by decide, rfl, rfl⟩, by decide, by decide, (smallCall "r3" 3).reservation, rfl⟩

end Xauusd.Pool
