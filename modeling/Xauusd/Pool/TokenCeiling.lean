/-
  The token ceiling of Assistant requests.

  A confirmation admits more tokens than were estimated if they fit the rolling
  minute.  The minute it reads ends where the minute of the reservation starts,
  not where the confirmation takes place: what was reserved in between is not
  counted, and what has left the window in between still is.

  * `Kept`: whatever the actual count, a confirmation that succeeds leaves the
    tokens of the trailing 60 seconds within the soft limit;
  * `Covered`: what has come in since the start of the reservation's minute fits
    what has left the window since then, and what the correction leaves free;
  * `reserve_unchanged`: a confirmation that fails changes nothing;
  * `token_ceiling_iff`: **over every run, the ceiling is kept exactly where the
    reservation is covered**.
-/
import Xauusd.Pool.Capacity

namespace Xauusd.Pool

variable {P : Platform} {db : PoolDb} {a : Accountant} {now : ℤ}

/-! ## The rolling minute -/

/-- The tokens of a policy's pool and shared models, as entries of a window. -/
def PoolDb.tokenEntries (db : PoolDb) (policy : CapacityPolicy) : List (ℤ × ℕ) :=
  (db.requests.rows.filter (·.inScope policy.credentialPoolId policy.sharedModelIds)).map
    fun u => (u.reservedAt, u.inputTokenCount)

/-- The tokens that `_usage` counts are a window's load. -/
theorem usage_tokens (P : Platform) (db : PoolDb) (policy : CapacityPolicy) (t : ℤ) :
    (db.usage P policy.credentialPoolId policy.sharedModelIds t).2.2 =
      Window.load IsoTime.minute (db.tokenEntries policy) t := by
  simp only [PoolDb.usage, PoolDb.rollingAccountUsage, Window.load, PoolDb.tokenEntries, List.filter_map,
    List.map_map, List.filter_filter]
  simp [Function.comp_def, Bool.and_comm]

def CapacityPolicy.softTpm (policy : CapacityPolicy) : ℕ := softLimit policy.tpmLimit policy.softCapBasisPoints

/-! ## Confirming -/

/-- Whatever the actual count, if its confirmation succeeds, then the tokens
    reserved in the trailing 60 seconds and the correction are within the limit. -/
def Accountant.Kept (P : Platform) (a : Accountant) (now : ℤ) (db : PoolDb) : Prop :=
  ∀ usage : ModelRequestUsage, (a.reserve P usage now db).1 = .ok true →
    (a.reservation.estimatedInputTokens : ℤ) < usage.inputTokens →
      Window.load IsoTime.minute (db.tokenEntries a.reservation.policy) now +
          (usage.inputTokens - a.reservation.estimatedInputTokens) ≤
        (a.reservation.policy.softTpm : ℤ)

/-- A correction is considered: the accountant has not confirmed, and its
    reservation is in flight. -/
def Accountant.Considered (a : Accountant) (db : PoolDb) (row : CapacityReservation) : Prop :=
  a.confirmed = false ∧ db.reservations.find? a.reservation.reservationId = some row ∧ row.state = .inFlight

/-- What the soft limit leaves free at the start of the reservation's minute. -/
def Accountant.free (a : Accountant) (db : PoolDb) (row : CapacityReservation) : ℕ :=
  a.reservation.policy.softTpm - Window.load IsoTime.minute (db.tokenEntries a.reservation.policy) row.minuteBucket

/-- The largest correction: what is free, up to the largest actual count. -/
def Accountant.room (a : Accountant) (db : PoolDb) (row : CapacityReservation) : ℕ :=
  min (a.free db row) (MAX_ACTUAL_INPUT_TOKENS - a.reservation.estimatedInputTokens)

/-- Where there is room for a correction: the tokens reserved since the
    reservation's minute began, and the largest correction, are no more than the
    tokens that have left the window since then, and what is free. -/
def Accountant.Covered (a : Accountant) (now : ℤ) (db : PoolDb) : Prop :=
  ∀ row, a.Considered db row → 0 < a.room db row →
    let entries := db.tokenEntries a.reservation.policy
    Window.between entries row.minuteBucket now + a.room db row ≤
      Window.between entries (row.minuteBucket - IsoTime.minute) (now - IsoTime.minute) + a.free db row

/-- The two windows of a confirmation. -/
theorem load_now (db : PoolDb) (policy : CapacityPolicy) {t : ℤ} (h : t ≤ now) :
    Window.load IsoTime.minute (db.tokenEntries policy) now +
        Window.between (db.tokenEntries policy) (t - IsoTime.minute) (now - IsoTime.minute) =
      Window.load IsoTime.minute (db.tokenEntries policy) t + Window.between (db.tokenEntries policy) t now :=
  Window.load_add_between (by decide) h

/-- When a correction is granted. -/
theorem confirm_true_iff {r : Reservation} {actual : ℤ} (hlt : (r.estimatedInputTokens : ℤ) < actual) :
    (confirmReservedTokens P r actual now db).1 = .ok true ↔
      1 ≤ actual ∧ actual ≤ MAX_ACTUAL_INPUT_TOKENS ∧
        ∃ row, db.reservations.find? r.reservationId = some row ∧ row.state = .inFlight ∧
          Window.load IsoTime.minute (db.tokenEntries r.policy) row.minuteBucket +
            (actual - r.estimatedInputTokens) ≤ (r.policy.softTpm : ℤ) := by
  unfold confirmReservedTokens
  by_cases hrange : 1 ≤ actual ∧ actual ≤ MAX_ACTUAL_INPUT_TOKENS
  · rw [if_neg (not_not.2 hrange)]
    dsimp only
    rw [if_neg (by omega)]
    cases hrow : db.reservations.find? r.reservationId with
    | none => simp
    | some row =>
      have hfits : ¬ softLimit r.policy.tpmLimit r.policy.softCapBasisPoints <
            (db.usage P r.policy.credentialPoolId r.policy.sharedModelIds row.minuteBucket).2.2 +
              (actual.toNat - r.estimatedInputTokens) ↔
          Window.load IsoTime.minute (db.tokenEntries r.policy) row.minuteBucket +
            (actual - r.estimatedInputTokens) ≤ (r.policy.softTpm : ℤ) := by
        rw [usage_tokens, CapacityPolicy.softTpm]
        omega
      by_cases hstate : row.state = .inFlight
      · by_cases hsoft : softLimit r.policy.tpmLimit r.policy.softCapBasisPoints <
            (db.usage P r.policy.credentialPoolId r.policy.sharedModelIds row.minuteBucket).2.2 +
              (actual.toNat - r.estimatedInputTokens)
        · simp [hstate, hsoft, ← hfits]
        · simp [hstate, hsoft, ← hfits, hrange]
      · simp [hstate]
  · rw [if_pos hrange]
    simp only [reduceCtorEq, false_iff]
    rintro ⟨hpos, hmax, -⟩
    exact hrange ⟨hpos, hmax⟩

/-- An accountant that has not confirmed does what the confirmation does. -/
theorem reserve_of_open (P : Platform) (now : ℤ) (db : PoolDb) {usage : ModelRequestUsage} (hdone : a.confirmed = false)
    (husage : usage.model = a.reservation.modelId ∧ Text.strip usage.purpose ≠ "") :
    (a.reserve P usage now db).1 = (confirmReservedTokens P a.reservation usage.inputTokens now db).1 ∧
      (a.reserve P usage now db).2.2 = (confirmReservedTokens P a.reservation usage.inputTokens now db).2 ∧
      ((a.reserve P usage now db).1 ≠ .ok true → (a.reserve P usage now db).2.1 = a) := by
  obtain ⟨r, confirmed⟩ := a
  obtain rfl : confirmed = false := hdone
  unfold Accountant.reserve
  rw [if_neg Bool.false_ne_true, if_neg (by simpa using husage)]
  rcases hconfirm : confirmReservedTokens P r usage.inputTokens now db with ⟨outcome, db'⟩
  cases outcome with
  | error e => exact ⟨rfl, rfl, fun _ => rfl⟩
  | ok confirmed =>
    refine ⟨rfl, rfl, ?_⟩
    cases confirmed with
    | true => exact fun h => absurd rfl h
    | false => exact fun _ => rfl

/-- An accountant that has confirmed, or is asked about another model, refuses. -/
theorem reserve_of_closed {usage : ModelRequestUsage}
    (h : ¬ (a.confirmed = false ∧ usage.model = a.reservation.modelId ∧ Text.strip usage.purpose ≠ "")) :
    (a.reserve P usage now db).1 ≠ .ok true ∧ (a.reserve P usage now db).2 = (a, db) := by
  unfold Accountant.reserve
  by_cases hdone : a.confirmed = true
  · simp [hdone]
  · rw [if_neg hdone, if_pos]
    · simp
    · by_contra husage
      rw [Bool.not_eq_true] at hdone
      exact h ⟨hdone, by simpa using husage⟩

theorem reserve_true_iff {usage : ModelRequestUsage} (hlt : (a.reservation.estimatedInputTokens : ℤ) < usage.inputTokens) :
    (a.reserve P usage now db).1 = .ok true ↔
      usage.model = a.reservation.modelId ∧ Text.strip usage.purpose ≠ "" ∧
        1 ≤ usage.inputTokens ∧ usage.inputTokens ≤ MAX_ACTUAL_INPUT_TOKENS ∧
        ∃ row, a.Considered db row ∧
          Window.load IsoTime.minute (db.tokenEntries a.reservation.policy) row.minuteBucket +
            (usage.inputTokens - a.reservation.estimatedInputTokens) ≤ (a.reservation.policy.softTpm : ℤ) := by
  by_cases hopen : a.confirmed = false ∧ usage.model = a.reservation.modelId ∧ Text.strip usage.purpose ≠ ""
  · rw [(reserve_of_open P now db hopen.1 hopen.2).1, confirm_true_iff hlt]
    simp [Accountant.Considered, hopen, and_assoc]
  · refine iff_of_false (reserve_of_closed hopen).1 ?_
    rintro ⟨hmodel, hpurpose, -, -, row, hrow, -⟩
    exact hopen ⟨hrow.1, hmodel, hpurpose⟩

theorem confirm_unchanged {r : Reservation} {actual : ℤ} (h : (confirmReservedTokens P r actual now db).1 ≠ .ok true) :
    (confirmReservedTokens P r actual now db).2 = db := by
  unfold confirmReservedTokens at h ⊢
  split
  · rfl
  · next hrange =>
    rw [if_neg hrange] at h
    dsimp only at h ⊢
    split
    · rfl
    · next hle =>
      rw [if_neg hle] at h
      split
      · rfl
      · next row hrow =>
        rw [hrow] at h
        dsimp only at h
        split
        · rfl
        · next hstate =>
          rw [if_neg hstate] at h
          split
          · rfl
          · next hsoft =>
            rw [if_neg hsoft] at h
            exact absurd rfl h

/-- **A confirmation that fails changes nothing.** -/
theorem reserve_unchanged (P : Platform) (a : Accountant) (usage : ModelRequestUsage) (now : ℤ) (db : PoolDb)
    (h : (a.reserve P usage now db).1 ≠ .ok true) : (a.reserve P usage now db).2 = (a, db) := by
  by_cases hopen : a.confirmed = false ∧ usage.model = a.reservation.modelId ∧ Text.strip usage.purpose ≠ ""
  · obtain ⟨houtcome, hdb, hsame⟩ := reserve_of_open P now db hopen.1 hopen.2
    rw [Prod.ext_iff]
    exact ⟨hsame h, hdb.trans (confirm_unchanged (houtcome ▸ h))⟩
  · exact (reserve_of_closed hopen).2

/-- **One confirmation**: the ceiling is kept exactly where it is covered. -/
theorem kept_iff_covered (hbucket : ∀ row ∈ db.reservations, row.minuteBucket ≤ now) :
    a.Kept P now db ↔ a.Covered now db := by
  constructor
  · intro hkept row hrow hroom
    have htwo := load_now db a.reservation.policy
      (hbucket row (Table.find?_eq_some_iff.1 hrow.2.1).1)
    -- the largest correction there is
    have hmax := hkept ⟨a.reservation.modelId, "answer", a.reservation.estimatedInputTokens + a.room db row⟩
    rw [reserve_true_iff (by simpa using hroom)] at hmax
    have hfree : a.room db row ≤ a.free db row := min_le_left _ _
    have hcap : a.room db row ≤ MAX_ACTUAL_INPUT_TOKENS - a.reservation.estimatedInputTokens := min_le_right _ _
    have hpurpose : Text.strip "answer" ≠ "" := by decide
    have hle := hmax ⟨rfl, hpurpose, by simp only; omega, by simp only; omega, row, hrow, by
      simp only [Accountant.free] at hfree ⊢
      omega⟩ (by simpa using hroom)
    simp only [Accountant.free] at hfree hle ⊢
    omega
  · intro hcovered usage hok hlt
    obtain ⟨-, -, hpos, hmax, row, hrow, hfits⟩ := (reserve_true_iff hlt).1 hok
    have htwo := load_now db a.reservation.policy
      (hbucket row (Table.find?_eq_some_iff.1 hrow.2.1).1)
    have hroom : usage.inputTokens - a.reservation.estimatedInputTokens ≤ (a.room db row : ℤ) := by
      simp only [Accountant.room, Accountant.free]
      omega
    have hle := hcovered row hrow (by omega)
    simp only [Accountant.free] at hle
    omega

/-! ## Runs -/

theorem minuteBucket_le (t : ℤ) : Scheduler.minuteBucket t ≤ t :=
  Int.ediv_mul_le t (by decide)

/-- No reservation's minute starts after an instant. -/
def PoolDb.Started (db : PoolDb) (t : ℤ) : Prop := ∀ row ∈ db.reservations, row.minuteBucket ≤ t

theorem started_reserve {c : ReserveCall} {t : ℤ} (h : db.Started t) (hc : c.now ≤ t) :
    (reserveAssistantCapacity P c db).2.Started t := by
  unfold reserveAssistantCapacity
  dsimp only
  split
  · exact h
  · split
    · exact h
    · refine Table.forall_insertIgnore ?_ ((minuteBucket_le c.now).trans hc)
      exact Table.forall_update (CapacityReservation.abandoned_id c.now) h fun row _ _ hrow => hrow

theorem started_confirm {usage : ModelRequestUsage} {t : ℤ} (h : db.Started t) :
    (a.reserve P usage now db).2.2.Started t := by
  by_cases hopen : a.confirmed = false ∧ usage.model = a.reservation.modelId ∧ Text.strip usage.purpose ≠ ""
  · rw [(reserve_of_open P now db hopen.1 hopen.2).2.1]
    unfold confirmReservedTokens
    split
    · exact h
    · dsimp only
      split
      · exact h
      · split
        · exact h
        · split
          · exact h
          · split
            · exact h
            · exact Table.forall_update (CapacityReservation.corrected_id usage.inputTokens.toNat) h
                fun row _ _ hrow => hrow
  · rw [(reserve_of_closed hopen).2]
    exact h

theorem recordHealth_reservations (policy : CapacityPolicy) (report : FinishReport) (db : PoolDb) :
    (db.recordHealth policy report).reservations = db.reservations := by
  unfold PoolDb.recordHealth
  split
  · rfl
  · split
    · rfl
    · rfl

theorem started_finish {r : Reservation} {report : FinishReport} {t : ℤ} (h : db.Started t) :
    (finishReservation r report db).2.Started t := by
  unfold finishReservation
  split
  · exact h
  · split
    · exact h
    · rw [PoolDb.Started, recordHealth_reservations]
      exact Table.forall_update (CapacityReservation.finished_id report) h fun row _ _ hrow => hrow

theorem started_step {s : PoolState} {action : PoolAction} {t : ℤ} (h : s.db.Started t) (haction : action.now ≤ t) :
    (step P s action).2.db.Started t := by
  cases action with
  | reserve c =>
    have hreserve := started_reserve (P := P) h haction
    simp only [step]
    split
    · next heq => rwa [heq] at hreserve
    · next heq => rwa [heq] at hreserve
  | confirm i usage now =>
    simp only [step]
    split
    · exact h
    · exact started_confirm h
  | finish i report =>
    simp only [step]
    split
    · exact h
    · exact started_finish h

/-- **The token ceiling.**  After any calls, at any instant that is not before
    them: every accountant keeps the ceiling, whatever the actual count, exactly
    where its reservation is covered; and a confirmation that does not succeed
    changes nothing. -/
theorem token_ceiling_iff (P : Platform) (actions : List PoolAction) (now : ℤ) (hnow : ∀ x ∈ actions, x.now ≤ now) :
    let s := Machine.run (step P) PoolState.initial actions
    ∀ a ∈ s.held, (a.Kept P now s.db ↔ a.Covered now s.db) ∧
      ∀ usage, (a.reserve P usage now s.db).1 ≠ .ok true → (a.reserve P usage now s.db).2 = (a, s.db) := by
  intro s a _
  have hstarted : s.db.Started now :=
    Machine.run_invariant (I := fun s : PoolState => s.db.Started now) (fun s x hx hs => started_step hs hx)
      (Machine.along_of_mem hnow _) fun row hrow => absurd hrow (Table.not_mem_empty row)
  exact ⟨kept_iff_covered hstarted, fun usage => reserve_unchanged P a usage now s.db⟩

/-- 2000 tokens a minute, of which 1600 are used. -/
def samplePolicy : CapacityPolicy where
  credentialPoolId := "pool-a"
  modelId := "large-model"
  sharedModelIds := ["large-model"]
  rpdLimit := 1000
  rpmLimit := 100
  tpmLimit := 2000
  softCapBasisPoints := 8000
  maxInFlight := 2
  reservationTtlSeconds := 180
  cooldownSeconds := 60
  failureCooldownThreshold := 2

/-- A request of 1000 tokens, so many seconds after the hour. -/
def sampleCall (reservationId : String) (seconds : ℤ) : ReserveCall where
  policy := samplePolicy
  profileId := "large-v1"
  profileModelId := "large-model"
  servicePriority := .interactive
  estimatedInputTokens := 1000
  now := IsoTime.hour + seconds * IsoTime.second
  reservationId := reservationId

theorem token_ceiling_on_the_minute :
    Accountant.Kept Platform.winter ⟨(sampleCall "r1" 0).reservation, false⟩ IsoTime.hour
      (Machine.run (step Platform.winter) PoolState.initial [.reserve (sampleCall "r1" 0)]).db := by
  refine (token_ceiling_iff Platform.winter [.reserve (sampleCall "r1" 0)] IsoTime.hour (by simp [PoolAction.now, sampleCall])
    _ (by decide)).1.2 ?_
  rintro row ⟨-, hrow, -⟩ -
  obtain rfl : (sampleCall "r1" 0).row Platform.winter = row := Option.some.inj hrow
  decide

/-- **Half a minute later**, 1700 tokens are confirmed. -/
theorem token_ceiling_exceeded :
    let s := Machine.run (step Platform.winter) PoolState.initial [.reserve (sampleCall "r1" 30)]
    let now := IsoTime.hour + 31 * IsoTime.second
    ∃ a ∈ s.held, (a.reserve Platform.winter ⟨"large-model", "assistant-chat", 1700⟩ now s.db).1 = .ok true ∧
      a.reservation.policy.softTpm = 1600 ∧
      Window.load IsoTime.minute (s.db.tokenEntries a.reservation.policy) now + (1700 - 1000) = 1700 :=
  ⟨⟨(sampleCall "r1" 30).reservation, false⟩, by decide⟩

end Xauusd.Pool
