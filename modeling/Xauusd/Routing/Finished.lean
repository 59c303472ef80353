/-
  What an execution leaves in the pool (`assistant/capacity.py`).

  * `finish_ends`: a finished reservation is not in flight;
  * `Episode`: what a part of an execution does to the reservations it draws;
  * `execute_closes`: **however an execution ends, none of its reservations is
    in flight after it, and there are at most 128 of them**.
-/
import Xauusd.Routing.Receipt

namespace Xauusd.Routing

open Pool (PoolDb Reservation FinishReport CapacityReservation ReservationState reserveAssistantCapacity
  finishReservation isFailureCode)

/-! ## Failure codes -/

/-- The characters of a failure code. -/
def codeChar (c : Char) : Bool := ('A' ≤ c && c ≤ 'Z') || ('0' ≤ c && c ≤ '9') || c = '_'

theorem codeChar_digit {c : Char} (h : c.isDigit = true) : codeChar c = true := by
  simp only [Char.isDigit, Bool.and_eq_true, decide_eq_true_eq] at h
  have hdigit : '0' ≤ c ∧ c ≤ '9' := h
  simp [codeChar, hdigit]

/-- The code of a status of three digits is one. -/
theorem isFailureCode_http {status : ℤ} (h : 100 ≤ status ∧ status ≤ 999) :
    isFailureCode ("PROVIDER_HTTP_" ++ toString status) = true := by
  obtain ⟨n, rfl⟩ := Int.eq_ofNat_of_zero_le (le_trans (by decide) h.1)
  have hlt : n < 10 ^ 3 := by omega
  have hchars : (toString (n : ℤ)).toList = Nat.toDigits 10 n := by
    rw [Int.toString_eq_repr, Int.repr_eq_if, if_pos (Int.natCast_nonneg n), Int.toNat_natCast, Nat.toList_repr]
  have hlength : (Nat.toDigits 10 n).length ≤ 3 := (Nat.length_toDigits_le_iff (by decide) (by decide)).2 hlt
  have hall : ∀ c ∈ Nat.toDigits 10 n, codeChar c = true := fun c hc =>
    codeChar_digit (Nat.isDigit_of_mem_toDigits (by decide) (by decide) hc)
  have hstem : "PROVIDER_HTTP_".toList.all codeChar = true := by decide +kernel
  have hstem_length : "PROVIDER_HTTP_".toList.length = 14 := by decide
  unfold isFailureCode Text.len
  rw [String.toList_append, hchars, List.length_append, hstem_length]
  simp only [Bool.and_eq_true, decide_eq_true_eq]
  refine ⟨⟨List.all_eq_true.2 ?_, by omega⟩, by omega⟩
  intro c hc
  rcases List.mem_append.1 hc with hc | hc
  · exact List.all_eq_true.1 hstem c hc
  · exact hall c hc

/-! ## Episodes -/

/-- What a part of an execution does to the reservations: one whose id it draws
    was there before it, and not in flight unless it was, or is one of its own
    and is not in flight. -/
def Episode (drawn : String → Prop) (ids : List String) (before after : PoolDb) : Prop :=
  ∀ row ∈ after.reservations, drawn row.reservationId →
    (∃ row₀ ∈ before.reservations, row₀.reservationId = row.reservationId ∧
      (row.state = .inFlight → row₀.state = .inFlight)) ∨
    row.reservationId ∈ ids ∧ row.state ≠ .inFlight

section
variable {drawn : String → Prop} {ids ids' : List String} {a b c : PoolDb}

theorem Episode.refl (drawn : String → Prop) (a : PoolDb) : Episode drawn [] a a :=
  fun row hrow _ => .inl ⟨row, hrow, rfl, id⟩

/-- One after another. -/
theorem Episode.trans (hab : Episode drawn ids a b) (hbc : Episode drawn ids' b c) :
    Episode drawn (ids ++ ids') a c := by
  intro row hrow hdrawn
  rcases hbc row hrow hdrawn with ⟨row₁, hrow₁, hid, hstate⟩ | ⟨hmem, hstate⟩
  · rcases hab row₁ hrow₁ (hid ▸ hdrawn) with ⟨row₀, hrow₀, hid₀, hstate₀⟩ | ⟨hmem, hended⟩
    · exact .inl ⟨row₀, hrow₀, hid₀.trans hid, fun h => hstate₀ (hstate h)⟩
    · exact .inr ⟨List.mem_append_left _ (hid ▸ hmem), fun h => hended (hstate h)⟩
  · exact .inr ⟨List.mem_append_right _ hmem, hstate⟩

end

/-! ## The reservation of an attempt -/

/-- The rows after a part that draws one id, until it is finished. -/
def Holding (drawn : String → Prop) (id : String) (before after : PoolDb) : Prop :=
  ∀ row ∈ after.reservations, drawn row.reservationId →
    (∃ row₀ ∈ before.reservations, row₀.reservationId = row.reservationId ∧
      (row.state = .inFlight → row₀.state = .inFlight)) ∨
    row.reservationId = id

section
variable {P : Platform} {drawn : String → Prop}

/-- The sweep puts nothing in flight. -/
theorem abandonExpired_episode (now : ℤ) (db : PoolDb) : Episode drawn [] db (db.abandonExpired now) := by
  intro row hrow _
  obtain ⟨row₀, hrow₀, rfl⟩ := (Table.mem_update (CapacityReservation.abandoned_id now)).1 hrow
  refine .inl ⟨row₀, hrow₀, ?_⟩
  split
  · exact ⟨rfl, fun h => by cases h⟩
  · exact ⟨rfl, id⟩

/-- A reservation that is refused leaves the database. -/
theorem reserve_refused {call : Pool.ReserveCall} {db : PoolDb}
    (h : ∀ r, (reserveAssistantCapacity P call db).1 ≠ .ok (some r)) :
    (reserveAssistantCapacity P call db).2 = db := by
  unfold reserveAssistantCapacity at h ⊢
  dsimp only at h ⊢
  split
  · rfl
  · next havailable =>
    rw [if_neg havailable] at h
    split
    · rfl
    · next hclash =>
      rw [if_neg hclash] at h
      exact absurd rfl (h _)

/-- One that is granted adds its row. -/
theorem reserve_holding (drawn : String → Prop) {call : Pool.ReserveCall} {db db' : PoolDb} {r : Reservation}
    (h : reserveAssistantCapacity P call db = (.ok (some r), db')) :
    r.reservationId = call.reservationId ∧ Holding drawn call.reservationId db db' := by
  unfold reserveAssistantCapacity at h
  dsimp only at h
  split at h
  · cases h
  · split at h
    · cases h
    · cases h
      refine ⟨rfl, fun row hrow hdrawn => ?_⟩
      have hsplit : ∀ row ∈ (call.insert P (db.abandonExpired call.now)).reservations,
          row ∈ (db.abandonExpired call.now).reservations ∨ row.reservationId = call.reservationId :=
        Table.forall_insertIgnore (fun row hrow => .inl hrow) (.inr rfl)
      rcases hsplit row hrow with hold | hnew
      · rcases abandonExpired_episode call.now db row hold hdrawn with h | ⟨hmem, -⟩
        · exact .inl h
        · cases hmem
      · exact .inr hnew

/-- **A finished reservation is not in flight**, and the others are as they
    were. -/
theorem finish_ends (r : Reservation) {report : FinishReport} (db : PoolDb) (hstate : report.state ≠ .inFlight)
    (hcode : report.failureCode.all isFailureCode = true) :
    (finishReservation r report db).1 = .ok () ∧
      ∀ row ∈ (finishReservation r report db).2.reservations,
        (row ∈ db.reservations ∨ row.state ≠ .inFlight ∧
          ∃ row₀ ∈ db.reservations, row₀.reservationId = row.reservationId) ∧
        (row.reservationId = r.reservationId → row.state ≠ .inFlight) := by
  have hvalid : (report.failureCode.any fun code => !isFailureCode code) = false := by
    cases hf : report.failureCode with
    | none => rfl
    | some code => simpa [hf] using hcode
  set own : CapacityReservation → Bool := fun row => row.reservationId = r.reservationId && row.state = .inFlight
    with hown
  have hkey : ∀ row, own row = true → row.reservationId = r.reservationId := by
    intro row h
    simp only [hown, Bool.and_eq_true, decide_eq_true_eq] at h
    exact h.1
  unfold finishReservation
  rw [hvalid]
  simp only [Bool.false_eq_true, ↓reduceIte]
  split
  · next hhits =>
    -- there is none in flight to finish
    have hzero : db.reservations.hits own = 0 := by
      have hle : db.reservations.hits own ≤ 1 := Table.hits_le_one hkey
      rcases Nat.le_one_iff_eq_zero_or_eq_one.1 hle with hzero | hone
      · exact hzero
      · exact absurd hone hhits
    refine ⟨rfl, fun row hrow => ⟨.inl hrow, fun hid hflight => ?_⟩⟩
    have hfalse : own row = false := Table.hits_eq_zero_iff.1 hzero row hrow
    simp [hown, hid, hflight] at hfalse
  · refine ⟨rfl, fun row hrow => ?_⟩
    have hrow : row ∈ db.reservations.update own (CapacityReservation.finished report)
        (CapacityReservation.finished_id report) := by
      unfold PoolDb.recordHealth at hrow
      split at hrow
      · exact hrow
      · split at hrow
        · exact hrow
        · exact hrow
    obtain ⟨row₀, hrow₀, rfl⟩ := (Table.mem_update _).1 hrow
    split
    · exact ⟨.inr ⟨hstate, row₀, hrow₀, rfl⟩, fun _ => hstate⟩
    · next hother =>
      refine ⟨.inl hrow₀, fun hid hflight => hother ?_⟩
      simp [hown, hid, hflight]

end

/-! ## Loops -/

/-- What is asked of an invocation: a status is one of HTTP, and no reservation
    of the execution is made or put in flight by it. -/
structure Host.Metered {τ : Type} (host : Host τ) : Prop where
  statuses : ∀ call profile credential level accountant db status,
    (host.invoke call profile credential level accountant db).1 = .httpError status → 100 ≤ status ∧ status ≤ 999
  kept : ∀ call profile credential level accountant db,
    Episode (fun id => ∃ n, host.reservationId n = id) [] db
      (host.invoke call profile credential level accountant db).2.2

/-- From a state of the loops: what was drawn since is finished, and the
    attempts made since count it. -/
def Loop.Closes {τ : Type} (drawn : String → Prop) (st₀ : LoopState) : Loop τ → Prop
  | .go st => ∃ ids, Episode drawn ids st₀.db st.db ∧ st₀.attempts + ids.length = st.attempts ∧
      st.attempts ≤ MAX_ASSISTANT_CAPACITY_ATTEMPTS
  | .stop _ db => ∃ ids, Episode drawn ids st₀.db db ∧
      st₀.attempts + ids.length ≤ MAX_ASSISTANT_CAPACITY_ATTEMPTS

section
variable {τ : Type} {P : Platform} {host : Host τ} {r : Route} {drawn : String → Prop}

theorem Loop.closes_trans {st₀ st : LoopState} {ids : List String} {loop : Loop τ}
    (hids : Episode drawn ids st₀.db st.db) (hcount : st₀.attempts + ids.length = st.attempts)
    (h : loop.Closes drawn st) : loop.Closes drawn st₀ := by
  cases loop with
  | go st' =>
    obtain ⟨ids', hids', hcount', hle⟩ := h
    refine ⟨ids ++ ids', hids.trans hids', ?_, hle⟩
    rw [List.length_append]
    omega
  | stop outcome db =>
    obtain ⟨ids', hids', hle⟩ := h
    refine ⟨ids ++ ids', hids.trans hids', ?_⟩
    rw [List.length_append]
    omega

/-- The reservation of an attempt is finished before the loops go on. -/
theorem finishThen_closes {reservation : Reservation} {report : FinishReport} {st₀ st : LoopState}
    {next : LoopState → Loop τ} (hholding : Holding drawn reservation.reservationId st₀.db st.db)
    (hstate : report.state ≠ .inFlight) (hcode : report.failureCode.all isFailureCode = true)
    (h : ∀ db, Episode drawn [reservation.reservationId] st₀.db db →
      (next { st with db := db }).Closes drawn st₀) :
    (finishThen reservation report st next).Closes drawn st₀ := by
  obtain ⟨hok, hrows⟩ := finish_ends reservation st.db hstate hcode
  unfold finishThen
  rcases hfinish : finishReservation reservation report st.db with ⟨outcome, db⟩
  rw [hfinish] at hok hrows
  dsimp only at hok hrows
  subst hok
  refine h db fun row hrow hdrawn => ?_
  obtain ⟨hfrom, hended⟩ := hrows row hrow
  by_cases hid : row.reservationId = reservation.reservationId
  · exact .inr ⟨by simp [hid], hended hid⟩
  · rcases hfrom with hold | ⟨hflight, row₁, hrow₁, hid₁⟩
    · rcases hholding row hold hdrawn with hbefore | hown
      · exact .inl hbefore
      · exact absurd hown hid
    · rcases hholding row₁ hrow₁ (hid₁ ▸ hdrawn) with ⟨row₀, hrow₀, hid₀, -⟩ | hown
      · exact .inl ⟨row₀, hrow₀, hid₀.trans hid₁, fun h => absurd h hflight⟩
      · exact absurd (hid₁ ▸ hown) hid

/-- What follows a call ends, or goes on, with its reservation finished. -/
theorem settle_closes {profileIndex : ℕ} {profile : ModelProfile} {policy : CapacityPolicy}
    {credential : ApiCredential} {reservation : Reservation} {now : ℤ} {st₀ st : LoopState}
    {retry : LoopState → Loop τ} {invocation : Invocation τ}
    (hholding : Holding drawn reservation.reservationId st₀.db st.db)
    (hattempts : st₀.attempts + 1 = st.attempts ∧ st.attempts ≤ MAX_ASSISTANT_CAPACITY_ATTEMPTS)
    (hstatus : ∀ status, invocation = .httpError status → 100 ≤ status ∧ status ≤ 999)
    (hretry : ∀ st', st'.attempts ≤ MAX_ASSISTANT_CAPACITY_ATTEMPTS → (retry st').Closes drawn st') :
    (settle r profileIndex profile policy credential reservation now st retry invocation).Closes drawn st₀ := by
  have hgo : ∀ st', st'.attempts = st.attempts → Episode drawn [reservation.reservationId] st₀.db st'.db →
      (Loop.go st' : Loop τ).Closes drawn st₀ := by
    intro st' hsame hids
    exact ⟨_, hids, by simpa [hsame] using hattempts.1, hsame ▸ hattempts.2⟩
  have hstop : ∀ outcome db, Episode drawn [reservation.reservationId] st₀.db db →
      (Loop.stop outcome db : Loop τ).Closes drawn st₀ := by
    intro outcome db hids
    exact ⟨_, hids, by simpa [hattempts.1] using hattempts.2⟩
  have hcodes : ∀ code ∈ ["EXACT_TOKEN_CAPACITY_REJECTED", "PROVIDER_TRANSPORT_UNAVAILABLE", "MODEL_REQUEST_FAILED"],
      isFailureCode code = true := by decide
  unfold settle
  cases invocation with
  | value v => exact finishThen_closes hholding ReservationState.noConfusion rfl fun db hids => hstop _ _ hids
  | capacityExhausted =>
    exact finishThen_closes hholding ReservationState.noConfusion (hcodes _ (by simp)) fun db hids => hgo _ rfl hids
  | httpError status =>
    refine finishThen_closes hholding ?_ ?_ fun db hids => ?_
    · dsimp only
      split
      · exact ReservationState.noConfusion
      · exact ReservationState.noConfusion
    · simpa using isFailureCode_http (hstatus status rfl)
    · dsimp only
      split
      · exact hstop _ _ hids
      · split
        · exact hgo _ rfl hids
        · refine Loop.closes_trans hids ?_ (hretry _ hattempts.2)
          exact hattempts.1
  | transportError =>
    exact finishThen_closes hholding ReservationState.noConfusion (hcodes _ (by simp)) fun db hids => hgo _ rfl hids
  | raised e => exact finishThen_closes hholding ReservationState.noConfusion (hcodes _ (by simp)) fun db hids => hstop _ _ hids

/-- The ids that an execution draws. -/
def Host.Draws (host : Host τ) (id : String) : Prop := ∃ n, host.reservationId n = id

theorem attempt_kept (hmetered : host.Metered) (profile : ModelProfile) (credential : ApiCredential)
    (reservation : Reservation) (call : ℕ) (db : PoolDb) :
    Episode host.Draws [] db (attempt host r profile credential reservation call db).2 ∧
      ∀ status, (attempt host r profile credential reservation call db).1 = .httpError status →
        100 ≤ status ∧ status ≤ 999 := by
  unfold attempt
  split
  · exact ⟨.refl _ _, fun status h => by cases h⟩
  · next level _ =>
    have hkept := hmetered.kept call profile credential level ⟨reservation, false⟩ db
    have hstatuses := hmetered.statuses call profile credential level ⟨reservation, false⟩ db
    split
    · next hinvoke =>
      rw [hinvoke] at hkept
      split
      · exact ⟨hkept, fun status h => by cases h⟩
      · exact ⟨hkept, fun status h => by cases h⟩
    · next hinvoke =>
      rw [hinvoke] at hkept hstatuses
      exact ⟨hkept, hstatuses⟩

/-- The credentials of a pool, by induction on them: each attempt ends with its
    reservation finished. -/
theorem tryCredentials_closes (hmetered : host.Metered) {profileIndex : ℕ} {profile : ModelProfile}
    {policy : CapacityPolicy} (credentials : List ApiCredential) (st : LoopState)
    (hattempts : st.attempts ≤ MAX_ASSISTANT_CAPACITY_ATTEMPTS) :
    (tryCredentials P host r profileIndex profile policy credentials st).Closes host.Draws st := by
  induction credentials generalizing st with
  | nil => exact ⟨[], .refl _ _, rfl, hattempts⟩
  | cons credential rest ih =>
    unfold tryCredentials
    split
    · exact ⟨[], .refl _ _, rfl, hattempts⟩
    · next hroom =>
      split
      · exact ⟨[], .refl _ _, hattempts⟩
      · split
        · next hreserve =>
          have hdb := reserve_refused fun r h => by rw [hreserve] at h; cases h
          rw [hreserve] at hdb
          dsimp only at hdb
          subst hdb
          exact ⟨[], .refl _ _, hattempts⟩
        · next hreserve =>
          have hdb := reserve_refused fun r h => by rw [hreserve] at h; cases h
          rw [hreserve] at hdb
          dsimp only at hdb
          subst hdb
          exact ⟨[], .refl _ _, rfl, hattempts⟩
        · next reservation db hreserve =>
          obtain ⟨hid, hholding⟩ := reserve_holding host.Draws hreserve
          obtain ⟨hkept, hstatus⟩ := attempt_kept (r := r) hmetered profile credential reservation st.calls db
          refine settle_closes ?_ ⟨rfl, by dsimp only; omega⟩ hstatus fun st' hst' => ih st' hst'
          rw [hid]
          intro row hrow hdrawn
          rcases hkept row hrow hdrawn with ⟨row₁, hrow₁, hid₁, hstate₁⟩ | ⟨hmem, -⟩
          · rcases hholding row₁ hrow₁ (hid₁ ▸ hdrawn) with ⟨row₀, hrow₀, hid₀, hstate₀⟩ | hown
            · exact .inl ⟨row₀, hrow₀, hid₀.trans hid₁, fun h => hstate₀ (hstate₁ h)⟩
            · exact .inr (hid₁ ▸ hown)
          · cases hmem

theorem Loop.attempts_le {st₀ st : LoopState} (h : (Loop.go st : Loop τ).Closes drawn st₀) :
    st.attempts ≤ MAX_ASSISTANT_CAPACITY_ATTEMPTS := by
  obtain ⟨-, -, -, hle⟩ := h
  exact hle

/-- A loop goes on after another. -/
theorem Loop.closes_bind {st₀ : LoopState} {loop : Loop τ} {next : LoopState → Loop τ}
    (hloop : loop.Closes drawn st₀)
    (hnext : ∀ st, st.attempts ≤ MAX_ASSISTANT_CAPACITY_ATTEMPTS → (next st).Closes drawn st) :
    (match loop with
      | .go st => next st
      | .stop outcome db => .stop outcome db : Loop τ).Closes drawn st₀ := by
  cases loop with
  | go st =>
    obtain ⟨ids, hids, hcount, hle⟩ := hloop
    exact Loop.closes_trans hids hcount (hnext st hle)
  | stop outcome db => exact hloop

theorem tryPools_closes (hmetered : host.Metered) {profileIndex : ℕ} {profile : ModelProfile} (pools : List String)
    (st : LoopState) (hattempts : st.attempts ≤ MAX_ASSISTANT_CAPACITY_ATTEMPTS) :
    (tryPools P host r profileIndex profile pools st).Closes host.Draws st := by
  induction pools generalizing st with
  | nil => exact ⟨[], .refl _ _, rfl, hattempts⟩
  | cons poolId rest ih =>
    unfold tryPools
    split
    · exact ih st hattempts
    · exact Loop.closes_bind (tryCredentials_closes hmetered _ st hattempts) fun st' hst' => ih st' hst'

theorem tryProfiles_closes (hmetered : host.Metered) (profiles : List (ModelProfile × ℕ)) (st : LoopState)
    (hattempts : st.attempts ≤ MAX_ASSISTANT_CAPACITY_ATTEMPTS) :
    (tryProfiles P host r profiles st).Closes host.Draws st := by
  induction profiles generalizing st with
  | nil => exact ⟨[], .refl _ _, rfl, hattempts⟩
  | cons p rest ih =>
    unfold tryProfiles
    split
    · exact Loop.closes_trans (.refl _ _) rfl (ih { st with sawCapacityPressure := true } hattempts)
    · exact Loop.closes_bind (tryPools_closes hmetered _ st hattempts) fun st' hst' => ih st' hst'

/-- However the loops of a route end, -/
theorem route_closes (hmetered : host.Metered) (r : Route) (db : PoolDb) :
    ∃ ids, ids.length ≤ MAX_ASSISTANT_CAPACITY_ATTEMPTS ∧ Episode host.Draws ids db (r.execute P host db).2 := by
  have hcloses : (tryProfiles P host r r.plan.candidateProfiles.zipIdx ⟨db, 0, 0, false, none⟩).Closes host.Draws
      ⟨db, 0, 0, false, none⟩ := tryProfiles_closes hmetered _ _ (Nat.zero_le _)
  unfold Route.execute
  split
  · next hstop =>
    rw [hstop] at hcloses
    obtain ⟨ids, hids, hle⟩ := hcloses
    exact ⟨ids, by simpa using hle, hids⟩
  · next st hgo =>
    rw [hgo] at hcloses
    obtain ⟨ids, hids, hcount, hle⟩ := hcloses
    have hlength : ids.length ≤ MAX_ASSISTANT_CAPACITY_ATTEMPTS := by
      rw [← hcount] at hle
      simpa using hle
    split
    · exact ⟨ids, hlength, hids⟩
    · split
      · exact ⟨ids, hlength, hids⟩
      · exact ⟨ids, hlength, hids⟩

/-- **However an execution ends, every reservation that it drew and that was not
    in flight before is not in flight after it; at most 128 are new.** -/
theorem execute_closes (P : Platform) (host : Host τ) (c : ExecuteCall) (db : PoolDb) (hmetered : host.Metered) :
    ∃ ids : List String, ids.length ≤ MAX_ASSISTANT_CAPACITY_ATTEMPTS ∧
      ∀ row ∈ (executeAssistantCapacityRoute P host c db).2.reservations,
        (∃ n, host.reservationId n = row.reservationId) →
          (∃ row₀ ∈ db.reservations, row₀.reservationId = row.reservationId ∧
            (row.state = .inFlight → row₀.state = .inFlight)) ∨
          row.reservationId ∈ ids ∧ row.state ≠ .inFlight := by
  unfold executeAssistantCapacityRoute
  cases c.route with
  | error e =>
    have hsame : Episode host.Draws [] db db := .refl _ db
    exact ⟨[], Nat.zero_le _, hsame⟩
  | ok route => exact route_closes hmetered route db

end

/-- The tokens of a reservation are confirmed, and nothing else. -/
theorem reserve_kept (P : Platform) (drawn : String → Prop) (a : Pool.Accountant) (usage : Pool.ModelRequestUsage)
    (now : ℤ) (db : PoolDb) : Episode drawn [] db (a.reserve P usage now db).2.2 := by
  have hconfirm : Episode drawn [] db (Pool.confirmReservedTokens P a.reservation usage.inputTokens now db).2 := by
    unfold Pool.confirmReservedTokens
    split
    · exact .refl _ _
    · dsimp only
      split
      · exact .refl _ _
      · split
        · exact .refl _ _
        · split
          · exact .refl _ _
          · split
            · exact .refl _ _
            · intro row hrow _
              obtain ⟨row₀, hrow₀, rfl⟩ := (Table.mem_update (CapacityReservation.corrected_id _)).1 hrow
              refine .inl ⟨row₀, hrow₀, ?_⟩
              split
              · exact ⟨rfl, id⟩
              · exact ⟨rfl, id⟩
  unfold Pool.Accountant.reserve
  split
  · exact .refl _ _
  · split
    · exact .refl _ _
    · split
      · next h => rwa [h] at hconfirm
      · next h => rwa [h] at hconfirm

/-- A gateway that counts the tokens, and is throttled. -/
def throttledHost : Host Unit :=
  { sampleHost with
    invoke := fun _ profile _ _ accountant db =>
      (.httpError 429, (accountant.reserve Platform.winter ⟨profile.modelId, "assistant", 900⟩ IsoTime.hour db).2) }

theorem throttledHost_metered : throttledHost.Metered where
  statuses := by
    intro call profile credential level accountant db status h
    cases h
    exact ⟨by decide, by decide⟩
  kept := fun _ _ _ _ accountant db => reserve_kept Platform.winter _ accountant _ _ db

/-- A throttled attempt leaves its reservation throttled. -/
theorem execute_closes_throttled :
    (executeAssistantCapacityRoute Platform.winter throttledHost (sampleExecute .assistantChat) .empty).2.reservations.rows.map
        (fun row => (row.reservationId, row.state)) = [("r1", .throttled)] ∧
      ∃ ids : List String, ids.length ≤ MAX_ASSISTANT_CAPACITY_ATTEMPTS ∧
        ∀ row ∈ (executeAssistantCapacityRoute Platform.winter throttledHost (sampleExecute .assistantChat)
            .empty).2.reservations, (∃ n, throttledHost.reservationId n = row.reservationId) →
          (∃ row₀ ∈ PoolDb.empty.reservations, row₀.reservationId = row.reservationId ∧
            (row.state = .inFlight → row₀.state = .inFlight)) ∨
          row.reservationId ∈ ids ∧ row.state ≠ .inFlight :=
  ⟨by decide +kernel, execute_closes Platform.winter throttledHost (sampleExecute .assistantChat) .empty throttledHost_metered⟩

end Xauusd.Routing
