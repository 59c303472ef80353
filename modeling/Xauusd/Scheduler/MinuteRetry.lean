/-
  The retry time of a request that the minute's capacity refuses.

  The ledger's rows of the trailing minute expire sixty seconds after their
  reservation.  `_minute_capacity_next_eligible` tries these expiries in their
  order; `rolling_account_usage` counts the rows of a window that excludes its
  start.

  * `minuteCapacityNextEligible_eq`: the retry time is the first expiry of the
    ledger's rows that admits the request;
  * `rollingAccountUsage_eq`: at an instant from now on, the usage is that of
    the rows that have not expired;
  * `minuteCapacityNextEligible_exact`: the retry time admits the request, and
    no instant before does.
-/
import Xauusd.Lib.Expiry
import Xauusd.Scheduler.Quota

namespace Xauusd.Scheduler

/-- A request as the minute's limits see it. -/
structure MinuteRequest where
  accountId : String
  families : List String
  shared : Bool
  requests : ℕ
  tokens : ℤ
  requestsPerMinute : ℕ
  inputTokensPerMinute : Option ℕ

section
variable {q : MinuteRequest} {c : Capacity} {now t : ℤ}

/-- A usage to which the request can be added within both limits. -/
def MinuteRequest.within (q : MinuteRequest) (usage : ℕ × ℤ) : Bool :=
  decide (usage.1 + q.requests ≤ q.requestsPerMinute) &&
    q.inputTokensPerMinute.all fun (limit : ℕ) => decide (usage.2 + q.tokens ≤ limit)

/-- `rolling_account_usage` of the request's account and families -/
def MinuteRequest.usage (q : MinuteRequest) (c : Capacity) (t : ℤ) : ℕ × ℤ :=
  c.rollingAccountUsage q.accountId q.families t q.shared

/-- `_minute_capacity_next_eligible` of the request -/
def MinuteRequest.nextEligible (q : MinuteRequest) (c : Capacity) (now : ℤ) : Option ℤ :=
  c.minuteCapacityNextEligible q.accountId q.families now q.shared q.requests q.tokens
    q.requestsPerMinute q.inputTokensPerMinute

/-- The rows that the retry time is computed from, in the order of their
    reservation. -/
def MinuteRequest.rows (q : MinuteRequest) (c : Capacity) (now : ℤ) : List RequestUsage :=
  (c.requests.rows.filter fun u => decide (now - IsoTime.minute < u.reservedAt) &&
    u.inScope q.accountId q.families q.shared).insertionSort fun u v => u.reservedAt ≤ v.reservedAt

/-- When a row leaves the window. -/
def RequestUsage.expiresAt (u : RequestUsage) : ℤ := u.reservedAt + IsoTime.minute

/-- What rows amount to. -/
def usageOf (rows : List RequestUsage) : ℕ × ℤ :=
  ((rows.map (·.requestCount)).sum, (rows.map (·.effectiveInputTokens)).sum)

/-- The request can be added to what rows amount to. -/
def MinuteRequest.admits (q : MinuteRequest) (rows : List RequestUsage) : Bool :=
  q.within (usageOf rows)

theorem usageOf_perm {rows rows' : List RequestUsage} (h : rows.Perm rows') :
    usageOf rows = usageOf rows' :=
  Prod.ext (h.map _).sum_eq (h.map _).sum_eq

theorem MinuteRequest.mem_rows {u : RequestUsage} : u ∈ q.rows c now ↔
    u ∈ c.requests ∧ now < u.expiresAt ∧ u.inScope q.accountId q.families q.shared = true := by
  simp only [rows, List.mem_insertionSort, List.mem_filter, Bool.and_eq_true, decide_eq_true_eq,
    RequestUsage.expiresAt, sub_lt_iff_lt_add, Table.mem_rows]

theorem MinuteRequest.rows_sorted :
    (q.rows c now).Pairwise fun u v => u.expiresAt ≤ v.expiresAt := by
  have : Std.Total fun u v : RequestUsage => u.reservedAt ≤ v.reservedAt := ⟨fun _ _ => le_total _ _⟩
  have : IsTrans RequestUsage fun u v => u.reservedAt ≤ v.reservedAt := ⟨fun _ _ _ => le_trans⟩
  refine (List.pairwise_insertionSort (fun u v : RequestUsage => u.reservedAt ≤ v.reservedAt) _).imp ?_
  intro u v h
  exact Int.add_le_add_right h _

/-- The retry time is the first expiry that admits the request. -/
theorem MinuteRequest.nextEligible_eq : q.nextEligible c now =
    Expiry.firstAdmitted RequestUsage.expiresAt q.admits (q.rows c now) := by
  unfold nextEligible Capacity.minuteCapacityNextEligible Expiry.firstAdmitted
  refine congrArg (fun p => ((q.rows c now).map RequestUsage.expiresAt).find? p) ?_
  funext t
  have hremaining : Expiry.remaining RequestUsage.expiresAt (q.rows c now) t =
      (q.rows c now).filter fun u => t - IsoTime.minute < u.reservedAt := by
    refine List.filter_congr fun u _ => decide_eq_decide.2 ?_
    exact sub_lt_iff_lt_add.symm
  rw [admits, hremaining]
  cases hlimit : q.inputTokensPerMinute <;> simp only [within, hlimit] <;> rfl

/-- From now on, what counts at an instant is what has not expired, when no
    reservation lies in the future. -/
theorem MinuteRequest.usage_eq (hpast : ∀ u ∈ c.requests,
      u.inScope q.accountId q.families q.shared = true → u.reservedAt ≤ now) (ht : now ≤ t) :
    q.usage c t = usageOf (Expiry.remaining RequestUsage.expiresAt (q.rows c now) t) := by
  refine usageOf_perm ?_
  have hrows : (c.requests.rows.filter fun u => u.reservedIn (t - IsoTime.minute) t &&
      u.inScope q.accountId q.families q.shared) =
      (c.requests.rows.filter fun u => decide (now - IsoTime.minute < u.reservedAt) &&
        u.inScope q.accountId q.families q.shared).filter fun u => t < u.expiresAt := by
    rw [List.filter_filter]
    refine List.filter_congr fun u hu => ?_
    rw [Bool.eq_iff_iff]
    simp only [RequestUsage.reservedIn, RequestUsage.expiresAt, Bool.and_eq_true, decide_eq_true_eq]
    constructor
    · rintro ⟨⟨hafter, -⟩, hscope⟩
      exact ⟨decide_eq_true (by omega), by omega, hscope⟩
    · rintro ⟨hlive, -, hscope⟩
      have := hpast u hu hscope
      have := of_decide_eq_true hlive
      exact ⟨⟨by omega, by omega⟩, hscope⟩
  rw [hrows]
  exact ((List.perm_insertionSort _ _).filter _).symm

/-! ## Exactness -/

/-- The request alone is within the limits. -/
theorem MinuteRequest.admits_nil (hrequests : q.requests ≤ q.requestsPerMinute)
    (htokens : ∀ limit ∈ q.inputTokensPerMinute, q.tokens ≤ limit) :
    q.admits [] = true := by
  cases hlimit : q.inputTokensPerMinute with
  | none => simp [admits, within, usageOf, hlimit, hrequests]
  | some limit => simpa [admits, within, usageOf, hlimit, hrequests] using htokens limit hlimit

/-- A request refused now gets the first time that is within both limits. -/
theorem MinuteRequest.nextEligible_of_refused (hpast : ∀ u ∈ c.requests,
      u.inScope q.accountId q.families q.shared = true → u.reservedAt ≤ now)
    (hnil : q.admits [] = true) (hrefused : q.within (q.usage c now) = false) :
    ∃ t, q.nextEligible c now = some t ∧ now < t ∧ q.within (q.usage c t) = true ∧
      ∀ s, now ≤ s → s < t → q.within (q.usage c s) = false := by
  have hlive : ∀ u ∈ q.rows c now, now < u.expiresAt := fun u hu => (mem_rows.1 hu).2.1
  rw [usage_eq hpast le_rfl, Expiry.remaining_eq_self hlive] at hrefused
  change q.admits _ = false at hrefused
  have hne : q.rows c now ≠ [] := by
    intro hrows
    rw [hrows, hnil] at hrefused
    cases hrefused
  obtain ⟨t, ht⟩ := Expiry.firstAdmitted_isSome rows_sorted hnil hne
  obtain ⟨⟨u, hu, rfl⟩, hadmits, hbefore⟩ := Expiry.firstAdmitted_exact rows_sorted hrefused ht
  have hlater := hlive u hu
  refine ⟨_, nextEligible_eq.trans ht, hlater, ?_, fun s hs hst => ?_⟩
  · rw [usage_eq hpast hlater.le]
    exact hadmits
  · rw [usage_eq hpast hs]
    exact hbefore s hst

/-- It gets none only when nothing expires. -/
theorem MinuteRequest.rows_of_nextEligible_none (hnil : q.admits [] = true)
    (hnone : q.nextEligible c now = none) : q.rows c now = [] := by
  by_contra hne
  obtain ⟨t, ht⟩ := Expiry.firstAdmitted_isSome rows_sorted hnil hne
  rw [nextEligible_eq, ht] at hnone
  cases hnone

/-- **The retry time.** Of a ledger without reservations in the future, and for
    a request that fits the limits alone: refused now, it gets a time at which
    it is within both limits and before which it is not; it gets none only
    when the trailing minute has no row. -/
theorem MinuteRequest.nextEligible_exact (q : MinuteRequest) (c : Capacity) (now : ℤ)
    (hpast : ∀ u ∈ c.requests,
      u.inScope q.accountId q.families q.shared = true → u.reservedAt ≤ now)
    (hrequests : q.requests ≤ q.requestsPerMinute)
    (htokens : ∀ limit ∈ q.inputTokensPerMinute, q.tokens ≤ limit) :
    (q.within (q.usage c now) = false → ∃ t, q.nextEligible c now = some t ∧ now < t ∧
      q.within (q.usage c t) = true ∧ ∀ s, now ≤ s → s < t → q.within (q.usage c s) = false) ∧
    (q.nextEligible c now = none → ∀ u ∈ c.requests,
      u.inScope q.accountId q.families q.shared = true →
        u.reservedIn (now - IsoTime.minute) now = false) := by
  have hnil := admits_nil hrequests htokens
  refine ⟨nextEligible_of_refused hpast hnil, fun hnone u hu hscope => ?_⟩
  refine decide_eq_false fun h => ?_
  have hmem : u ∈ q.rows c now := by
    refine mem_rows.2 ⟨hu, ?_, hscope⟩
    rw [RequestUsage.expiresAt]
    omega
  rw [rows_of_nextEligible_none hnil hnone] at hmem
  cases hmem

/-- Two requests of ten tokens, of the seconds 0 and 30. -/
def twoRequests : Capacity :=
  let usage (usageId : String) (reservedAt : ℤ) : RequestUsage :=
    { usageId, reservedAt
      accountId := "account", modelFamily := "gemma-4-31b-it", requestCount := 1
      inputTokenCount := 10, attemptedAt := none, providerOutcome := none
      providerHttpStatus := none, providerCompletedAt := none, vectorsCommittedAt := none
      providerPromptTokenCount := none, providerCandidatesTokenCount := none
      providerTotalTokenCount := none, requestedModel := "gemma-4-31b-it", purpose := none
      promptContract := none, estimatorVersion := none, baseEstimatedInputTokens := none
      admittedInputTokens := none, calibrationProviderModelVersion := none
      providerModelVersion := none, workloadClass := .liveOperational }
  { Capacity.empty with
    requests := ⟨[usage "first" 0, usage "second" (30 * IsoTime.second)], by decide⟩ }

/-- A request that has to wait for the first of them to expire. -/
def thirdRequest : MinuteRequest :=
  ⟨"account", ["gemma-4-31b-it"], false, 1, 5, 2, some 20⟩

theorem nextEligible_exact_third :
    ∃ t, thirdRequest.nextEligible twoRequests (40 * IsoTime.second) = some t ∧
      40 * IsoTime.second < t ∧ thirdRequest.within (thirdRequest.usage twoRequests t) = true ∧
      ∀ s, 40 * IsoTime.second ≤ s → s < t →
        thirdRequest.within (thirdRequest.usage twoRequests s) = false :=
  (thirdRequest.nextEligible_exact twoRequests (40 * IsoTime.second) (by decide) (by decide)
    (by decide)).1 (by decide)

end

/-! ## The refusal of a reservation -/

section
variable {P : Platform} {r : ReserveRequest} {c : Capacity} {dailyCount : ℕ}
  {refusal : CapacityRefusal}

/-- A reservation as the minute's limits see it. -/
def ReserveRequest.minute (r : ReserveRequest) : MinuteRequest :=
  ⟨r.accountId, r.families, r.shareMinuteAcrossAccounts, r.attemptedRequests, r.estimatedTokens,
    r.requestsPerMinute, r.inputTokensPerMinute⟩

/-- A reservation that only the minute refuses, and that fits the limits alone,
    is told the first time it is within them. -/
theorem ReserveRequest.capacityRefusal_retry
    (h : r.capacityRefusal P dailyCount c = some refusal)
    (hday : dailyCount + r.attemptedRequests ≤ r.usableDailyLimit)
    (hpast : ∀ u ∈ c.requests,
      u.inScope r.accountId r.families r.shareMinuteAcrossAccounts = true → u.reservedAt ≤ r.now)
    (hrequests : r.attemptedRequests ≤ r.requestsPerMinute)
    (htokens : ∀ limit ∈ r.inputTokensPerMinute, r.estimatedTokens ≤ limit) :
    ∃ t, refusal.nextRetryAt = some t ∧ r.now < t ∧
      r.minute.within (r.minute.usage c t) = true ∧
      ∀ s, r.now ≤ s → s < t → r.minute.within (r.minute.usage c s) = false := by
  have hdaily : decide (r.usableDailyLimit < dailyCount + r.attemptedRequests) = false :=
    decide_eq_false (not_lt.2 hday)
  have hpossible : (decide (r.requestsPerMinute < r.attemptedRequests) ||
      r.inputTokensPerMinute.any fun limit => decide (limit < r.estimatedTokens)) = false := by
    rw [Bool.or_eq_false_iff, decide_eq_false_iff_not, not_lt, Option.any_eq_false]
    exact ⟨hrequests, fun limit hlimit => by simpa using htokens limit hlimit⟩
  unfold capacityRefusal at h
  dsimp only at h
  split at h
  · next hrefused =>
    obtain rfl := Option.some.inj h
    rw [hdaily, Bool.false_or] at hrefused
    have hwithin : r.minute.within (r.minute.usage c r.now) = false := by
      rw [MinuteRequest.within, Bool.and_eq_false_iff, decide_eq_false_iff_not, not_le]
      rcases Bool.or_eq_true_iff.1 hrefused with hrpm | htpm
      · exact .inl (of_decide_eq_true hrpm)
      · obtain ⟨limit, hlimit, hover⟩ : ∃ limit, r.inputTokensPerMinute = some limit ∧
            (limit : ℤ) < (r.minute.usage c r.now).2 + r.estimatedTokens := by
          cases hlimit : r.inputTokensPerMinute with
          | none => simp [hlimit] at htpm
          | some limit => exact ⟨limit, rfl, by
            simpa [hlimit, MinuteRequest.usage, minute] using htpm⟩
        refine .inr ((Option.all_eq_false _ _).2 ⟨limit, hlimit, ?_⟩)
        exact decide_eq_false (not_le.2 hover)
    obtain ⟨t, ht, hexact⟩ := MinuteRequest.nextEligible_of_refused hpast
      (MinuteRequest.admits_nil hrequests fun limit hlimit => by
        exact Int.ofNat_le.2 (htokens limit hlimit)) hwithin
    refine ⟨t, ?_, hexact⟩
    dsimp only
    rw [hdaily, hpossible]
    exact ht
  · cases h

end

end Xauusd.Scheduler
