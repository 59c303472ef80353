/-
  The quota ceilings.

  One policy is fixed for a set of model families that share a quota.  In every
  state that calls reach, no day of an account is charged beyond the daily
  limit, and no 60 seconds beyond the requests of a minute: a grant is the only
  call that reserves anything, and it is admitted against the very windows that
  end with it.

  * `Capacity.reservations` is what the ceilings read of the request ledger, and
    `Capacity.entries` the part of an account, as entries of a window;
  * `Capacity.Retains`: no reservation is added and no day charged;
  * `exec_retains_or_counts`: a call retains, or is a cleared reservation;
  * `ReserveRequest.Counted`: what a grant adds to the four ledgers;
  * `quota_ceilings`: the ceilings over whole runs.
-/
import Xauusd.Lib.Window
import Xauusd.Scheduler.Writes

namespace Xauusd.Scheduler

variable {c c' d : Capacity} {jobs : List Job} {day : ℤ} {accountId : String}
  {families families' : List String} {shared : Bool}

/-! ## Reservations -/

/-- Whose a request is, and when how much of it was reserved. -/
structure Reservation where
  accountId : String
  modelFamily : String
  reservedAt : ℤ
  requestCount : ℕ

def RequestUsage.reservation (u : RequestUsage) : Reservation :=
  ⟨u.accountId, u.modelFamily, u.reservedAt, u.requestCount⟩

def Capacity.reservations (c : Capacity) : List Reservation :=
  c.requests.rows.map (·.reservation)

def Reservation.inScope (u : Reservation) (accountId : String) (families : List String)
    (shared : Bool) : Bool :=
  (shared || u.accountId = accountId) && u.modelFamily ∈ families

/-- The reservations of the families, of one account or, shared, of all, as
    entries of a window. -/
def Capacity.entries (c : Capacity) (accountId : String) (families : List String) (shared : Bool) :
    List (ℤ × ℕ) :=
  (c.reservations.filter (·.inScope accountId families shared)).map
    fun u => (u.reservedAt, u.requestCount)

/-- The requests that `rolling_account_usage` counts are a window's load. -/
theorem Capacity.rollingAccountUsage_fst (c : Capacity) (accountId : String)
    (families : List String) (now : ℤ) (shared : Bool) :
    (c.rollingAccountUsage accountId families now shared).1 =
      Window.load IsoTime.minute (c.entries accountId families shared) now := by
  simp only [rollingAccountUsage, Window.load, entries, reservations, List.filter_map, List.map_map,
    List.filter_filter]
  rfl

theorem Capacity.entries_congr (h : ∀ f, f ∈ families ↔ f ∈ families') (c : Capacity) :
    c.entries accountId families shared = c.entries accountId families' shared := by
  simp only [entries, Reservation.inScope, h]

theorem Capacity.dailyCount_congr (h : ∀ f, f ∈ families ↔ f ∈ families') (c : Capacity) :
    c.dailyCount day accountId families = c.dailyCount day accountId families' := by
  simp only [dailyCount, h]

/-! ## Calls that reserve nothing -/

/-- No reservation is added, and no day is charged. -/
structure Capacity.Retains (c c' : Capacity) : Prop where
  daily : c'.daily = c.daily
  reservations : c'.reservations.Sublist c.reservations

theorem Capacity.Retains.refl (c : Capacity) : c.Retains c := ⟨rfl, List.Sublist.refl _⟩

theorem Capacity.retains_of_ledgers (h : c'.ledgers = c.ledgers) : c.Retains c' := by
  have hdaily : c'.daily = c.daily := congrArg Prod.fst h
  have hrequests : c'.requests = c.requests := congrArg (·.2.2.1) h
  refine ⟨hdaily, ?_⟩
  rw [reservations, hrequests]
  exact List.Sublist.refl _

/-- An update of the request ledger that keeps what was reserved retains. -/
theorem Capacity.retains_of_update {p : RequestUsage → Bool} {f : RequestUsage → RequestUsage}
    (hf : ∀ u, (f u).usageId = u.usageId) (hdaily : c'.daily = c.daily)
    (h : c'.requests = c.requests.update p f hf) (hr : ∀ u, (f u).reservation = u.reservation) :
    c.Retains c' := by
  refine ⟨hdaily, ?_⟩
  rw [reservations, h, Table.map_update _ _ _ _ hr]
  exact List.Sublist.refl _

theorem Capacity.Retains.of_ledgers (h : c.Retains c') (h' : d.ledgers = c'.ledgers) :
    c.Retains d := by
  obtain ⟨hdaily, hres⟩ := retains_of_ledgers h'
  exact ⟨hdaily.trans h.daily, hres.trans h.reservations⟩

theorem recordProviderDispatchOutcome_ledgers (outcome : String) (retryAfterSeconds : Option ℤ)
    (now : ℤ) (c : Capacity) :
    (recordProviderDispatchOutcome outcome retryAfterSeconds now c).2.ledgers = c.ledgers := by
  unfold recordProviderDispatchOutcome
  split
  · rfl
  · split
    · rfl
    · split <;> rfl

theorem OutcomeReport.deferIndependent_ledgers (r : OutcomeReport) (outcome : ProviderOutcome)
    (c : Capacity) : (r.deferIndependent outcome c).ledgers = c.ledgers := by
  unfold deferIndependent
  split <;> rfl

theorem markAccountRequestAttempted_retains (usageId : String) (now : ℤ) (c : Capacity) :
    c.Retains (markAccountRequestAttempted usageId now c).2 := by
  unfold markAccountRequestAttempted
  split
  · refine Capacity.retains_of_update ?_ rfl rfl fun _ => rfl
    exact fun _ => rfl
  · exact .refl _

theorem recordAccountRequestOutcome_retains (r : OutcomeReport) (c : Capacity) :
    c.Retains (recordAccountRequestOutcome r c).2 := by
  unfold recordAccountRequestOutcome
  split
  · exact .refl _
  · next outcome _ =>
    split
    · exact .refl _
    · split
      · exact .refl _
      · have hset : c.Retains { c with
            requests := c.requests.update r.claimable (r.set outcome) fun _ => rfl } :=
          Capacity.retains_of_update (f := r.set outcome) (fun _ => rfl) rfl rfl fun _ => rfl
        have hdefer := hset.of_ledgers (r.deferIndependent_ledgers outcome _)
        dsimp only
        split
        · exact hdefer
        · exact hdefer.of_ledgers (recordProviderDispatchOutcome_ledgers _ _ _ _)

theorem recordAccountVectorsCommitted_retains (usageIds : List String) (now : ℤ) (c : Capacity) :
    c.Retains (recordAccountVectorsCommitted usageIds now c).2 := by
  unfold recordAccountVectorsCommitted
  split
  · exact .refl _
  · dsimp only
    split
    · exact .refl _
    · refine Capacity.retains_of_update ?_ rfl rfl fun _ => rfl
      exact fun _ => rfl

theorem reserveProviderDispatch_ledgers (providerTask : String) (now : ℤ) (c : Capacity) :
    (reserveProviderDispatch jobs providerTask now c).2.ledgers = c.ledgers := by
  unfold reserveProviderDispatch
  split
  · rfl
  · next h =>
    obtain ⟨-, -, hl⟩ | ⟨-, -, -, _, d, -, hl, rfl⟩ := reserveProviderDispatchLocked_cases h
    · exact hl
    · exact hl

section
variable (P : Platform)

theorem pruneLedgers_retains (installedAt : ℤ) (c : Capacity) :
    c.Retains (pruneLedgers P installedAt c) :=
  ⟨rfl, List.filter_sublist.map _⟩

/-- A call on the capacity tables retains, or it is a reservation. -/
theorem CapacityCall.exec_retains (call : CapacityCall) (h : ∀ r, call ≠ .reserve r)
    (jobs : List Job) (c : Capacity) : c.Retains (call.exec P jobs c).2 := by
  cases call with
  | reserve r => exact absurd rfl (h r)
  | markAttempted usageId now => exact markAccountRequestAttempted_retains usageId now c
  | recordOutcome r => exact recordAccountRequestOutcome_retains r c
  | recordVectors usageIds now => exact recordAccountVectorsCommitted_retains usageIds now c
  | recordDeferral | registerDemand => exact Capacity.retains_of_ledgers rfl
  | reserveDispatch task now =>
    exact Capacity.retains_of_ledgers (reserveProviderDispatch_ledgers task now c)
  | recordDispatch outcome retryAfterSeconds now =>
    exact Capacity.retains_of_ledgers (recordProviderDispatchOutcome_ledgers _ _ _ c)
  | prune installedAt => exact pruneLedgers_retains P installedAt c

/-- The request is admitted in the database. -/
def ReserveRequest.Admitted (r : ReserveRequest) (db : Db) : Prop :=
  (reserveAccountRequest P r db.jobs.rows db.capacity).1 = .ok .granted

instance (r : ReserveRequest) (db : Db) : Decidable (r.Admitted P db) :=
  inferInstanceAs (Decidable ((reserveAccountRequest P r db.jobs.rows db.capacity).1 = .ok .granted))

/-- **What a call does to the ceilings.** It retains, or it is an admitted
    reservation, which was cleared and which the four ledgers count. -/
theorem exec_retains_or_counts (call : Call) (db : Db) :
    db.capacity.Retains (exec P db call).2.capacity ∨
      ∃ r workload d, call = .capacity (.reserve r) ∧ r.Admitted P db ∧
        r.Cleared P workload db.jobs.rows db.capacity ∧ d.ledgers = db.capacity.ledgers ∧
        (exec P db call).2.capacity = r.count P workload d := by
  cases call with
  | job c => exact .inl (Capacity.retains_of_ledgers (congrArg Capacity.ledgers (c.exec_frame P db).2))
  | capacity c =>
    by_cases hreserve : ∃ r, c = .reserve r
    · obtain ⟨r, rfl⟩ := hreserve
      obtain ⟨-, hl, -⟩ | ⟨workload, next, d, hcleared, hslot, h⟩ :=
        reserveAccountRequest_cases P r db.jobs.rows db.capacity
      · exact .inl (Capacity.retains_of_ledgers hl)
      · refine .inr ⟨r, workload, d, rfl, congrArg Prod.fst h, hcleared,
          (ReserveRequest.slot_ledgers hslot).1, ?_⟩
        simp [exec, CapacityCall.exec, h]
    · exact .inl (c.exec_retains P (fun r h => hreserve ⟨r, h⟩) db.jobs.rows db.capacity)
  | record c =>
    refine .inl (Capacity.retains_of_ledgers ?_)
    cases c with
    | append row => simp only [exec, RecordCall.exec]; split <;> rfl
    | startForward | displaceHooks | installHooks => rfl

/-! ## Grants -/

/-- What a grant adds to the four ledgers: the requested number, once in each,
    and nothing elsewhere. -/
structure ReserveRequest.Counted (r : ReserveRequest) (c c' : Capacity) : Prop where
  positive : 1 ≤ r.requestCount
  daily : ∀ k, c'.daily.amountAt (·.requestCount) k = c.daily.amountAt (·.requestCount) k +
    if k = (r.day P, r.accountId, r.modelFamily) then r.requestCount.toNat else 0
  minute : ∀ k, c'.minute.amountAt (·.requestCount) k = c.minute.amountAt (·.requestCount) k +
    if k = (minuteBucket r.now, r.accountId, r.modelFamily) then r.requestCount.toNat else 0
  requests : ∃ u, c'.requests.rows = c.requests.rows ++ [u] ∧ u.usageId = r.usageId ∧
    u.reservation = ⟨r.accountId, r.modelFamily, r.now, r.requestCount.toNat⟩
  workload : ∃ workload, workload.text = r.workloadClass ∧
    ∀ k, c'.workload.amountAt (·.requestCount) k = c.workload.amountAt (·.requestCount) k +
      if k = (r.day P, P.localHour r.quotaTimezone r.now, r.accountId, r.authority, workload) then
        r.requestCount.toNat
      else 0

variable {P} {r : ReserveRequest} {workload : WorkloadClass}

/-- A cleared request inserts its row. -/
theorem ReserveRequest.Cleared.requests_count (h : r.Cleared P workload jobs c)
    (hd : d.ledgers = c.ledgers) :
    (r.count P workload d).requests.rows = c.requests.rows ++ [r.usage workload] := by
  have hrequests : d.requests = c.requests := congrArg (·.2.2.1) hd
  obtain ⟨-, u, hu, hkey⟩ | ⟨-, hrows⟩ :=
    Table.insertIgnore_cases d.requests (r.usage workload) fun _ => false
  · rw [hrequests] at hu
    simp only [Bool.false_eq_true, or_false] at hkey
    exact absurd hkey (Table.find?_eq_none_iff.1 h.fresh u hu)
  · rw [← hrequests]; exact hrows

theorem ReserveRequest.Cleared.counted (h : r.Cleared P workload jobs c)
    (hd : d.ledgers = c.ledgers) : r.Counted P c (r.count P workload d) := by
  have hdaily : d.daily = c.daily := congrArg Prod.fst hd
  have hminute : d.minute = c.minute := congrArg (·.2.1) hd
  have hworkload : d.workload = c.workload := congrArg (·.2.2.2) hd
  refine ⟨h.positive, fun k => ?_, fun k => ?_, ⟨_, h.requests_count hd, rfl, rfl⟩,
    workload, text_of_ofText? h.known, fun k => ?_⟩
  · rw [← hdaily]; exact Table.amountAt_upsert _ (fun _ => rfl) k
  · rw [← hminute]; exact Table.amountAt_upsert _ (fun _ => rfl) k
  · rw [← hworkload]; exact Table.amountAt_upsert _ (fun _ => rfl) k

/-- A cleared request fits its day and its minute. -/
theorem ReserveRequest.Cleared.fits (h : r.Cleared P workload jobs c) :
    c.dailyCount (r.day P) r.accountId r.families + r.attemptedRequests ≤ r.usableDailyLimit ∧
      (c.rollingAccountUsage r.accountId r.families r.now r.shareMinuteAcrossAccounts).1 +
        r.attemptedRequests ≤ r.requestsPerMinute := by
  have hnone : r.capacityRefusal P (c.dailyCount (r.day P) r.accountId r.families) c = none := by
    have hrefusal := h.unrefused
    unfold refusal at hrefusal
    dsimp only at hrefusal
    split at hrefusal
    · cases hrefusal
    · split at hrefusal
      · cases hrefusal
      · split at hrefusal
        · cases hrefusal
        · simpa using hrefusal
  unfold capacityRefusal at hnone
  simp only [ite_eq_right_iff, reduceCtorEq, imp_false, Bool.or_eq_true, decide_eq_true_eq,
    not_or, Nat.not_lt] at hnone
  exact ⟨hnone.1.1, hnone.1.2⟩

theorem ReserveRequest.usableDailyLimit_le (r : ReserveRequest) :
    r.usableDailyLimit ≤ r.dailyLimit := by
  unfold usableDailyLimit
  split
  · exact le_rfl
  · exact Nat.sub_le _ _

/-- What a grant adds to the count of a day. -/
theorem ReserveRequest.dailyCount_count (r : ReserveRequest) (hd : d.ledgers = c.ledgers) :
    (r.count P workload d).dailyCount day accountId families = c.dailyCount day accountId families +
      if r.day P = day ∧ r.accountId = accountId ∧ r.modelFamily ∈ families then
        r.attemptedRequests
      else 0 := by
  have hdaily : d.daily = c.daily := congrArg Prod.fst hd
  unfold Capacity.dailyCount
  rw [← hdaily]
  refine (Table.sum_filter_upsert _ (fun _ => rfl) ?_).trans ?_
  · intro u v hkey
    obtain ⟨hday, haccount, hfamily⟩ : u.quotaDay = v.quotaDay ∧ u.accountId = v.accountId ∧
        u.modelFamily = v.modelFamily := by simpa [DailyUsage.key] using hkey
    simp only [hday, haccount, hfamily]
  · simp only [Bool.and_eq_true, decide_eq_true_eq, and_assoc]

/-- What a grant adds to the entries of an account. -/
theorem ReserveRequest.Cleared.entries_count (h : r.Cleared P workload jobs c)
    (hd : d.ledgers = c.ledgers) :
    (r.count P workload d).entries accountId families shared =
      c.entries accountId families shared ++
        if (shared = true ∨ r.accountId = accountId) ∧ r.modelFamily ∈ families then
          [(r.now, r.attemptedRequests)]
        else [] := by
  rw [Capacity.entries, Capacity.reservations, h.requests_count hd, List.map_append,
    List.filter_append, List.map_append]
  refine congrArg _ ?_
  by_cases hscope : (shared = true ∨ r.accountId = accountId) ∧ r.modelFamily ∈ families
  · simp [Reservation.inScope, RequestUsage.reservation, ReserveRequest.usage, hscope]
  · simp [Reservation.inScope, RequestUsage.reservation, ReserveRequest.usage, hscope]

end

/-! ## Ceilings -/

/-- The policy of a set of model families that share a quota. -/
structure QuotaPolicy where
  families : List String
  dailyLimit : ℕ
  requestsPerMinute : ℕ
  shareMinuteAcrossAccounts : Bool

/-- A request that charges a family of the set names the set and uses its policy. -/
structure QuotaPolicy.UsedBy (q : QuotaPolicy) (r : ReserveRequest) : Prop where
  families : ∀ f, f ∈ r.families ↔ f ∈ q.families
  dailyLimit : r.dailyLimit = q.dailyLimit
  requestsPerMinute : r.requestsPerMinute = q.requestsPerMinute
  shareMinuteAcrossAccounts : r.shareMinuteAcrossAccounts = q.shareMinuteAcrossAccounts

/-- No day is charged, and no 60 seconds are, beyond the policy. -/
structure QuotaPolicy.Within (q : QuotaPolicy) (c : Capacity) : Prop where
  daily : ∀ day accountId, c.dailyCount day accountId q.families ≤ q.dailyLimit
  minute : ∀ accountId, Window.Bounded IsoTime.minute q.requestsPerMinute
    (c.entries accountId q.families q.shareMinuteAcrossAccounts)

/-- Something was reserved at `t`. -/
def Db.ReservedAt (db : Db) (t : ℤ) : Prop := ∃ u ∈ db.capacity.reservations, u.reservedAt = t

/-- The instant of a reservation. -/
def Call.reservesAt : Call → Option ℤ
  | .capacity (.reserve r) => some r.now
  | _ => none

variable {q : QuotaPolicy}

theorem QuotaPolicy.within_empty (q : QuotaPolicy) : q.Within Capacity.empty :=
  ⟨fun _ _ => Nat.zero_le _, fun _ _ => Nat.zero_le _⟩

theorem QuotaPolicy.Within.retains (hc : q.Within c) (h : c.Retains c') : q.Within c' := by
  refine ⟨fun day accountId => ?_, fun accountId => ?_⟩
  · rw [Capacity.dailyCount, h.daily]
    exact hc.daily day accountId
  · exact (hc.minute accountId).sublist ((h.reservations.filter _).map _)

section
variable {P : Platform} {r : ReserveRequest} {workload : WorkloadClass} {db : Db}

/-- **A grant keeps within the policy**, if no reservation is later than it. -/
theorem QuotaPolicy.Within.grant (hc : q.Within c) (hr : r.Cleared P workload jobs c)
    (hq : r.modelFamily ∈ q.families → q.UsedBy r)
    (hlast : ∀ u ∈ c.reservations, u.reservedAt ≤ r.now) (hd : d.ledgers = c.ledgers) :
    q.Within (r.count P workload d) := by
  obtain ⟨hday, hminute⟩ := hr.fits
  refine ⟨fun day accountId => ?_, fun accountId => ?_⟩
  · rw [r.dailyCount_count hd]
    split
    · next h =>
      obtain ⟨rfl, rfl, hfamily⟩ := h
      have hused := hq hfamily
      rw [Capacity.dailyCount_congr hused.families] at hday
      exact (hday.trans r.usableDailyLimit_le).trans hused.dailyLimit.le
    · exact hc.daily day accountId
  · rw [hr.entries_count hd]
    split
    · next h =>
      obtain ⟨hscope, hfamily⟩ := h
      have hused := hq hfamily
      rw [hused.shareMinuteAcrossAccounts, hused.requestsPerMinute,
        Capacity.rollingAccountUsage_fst, Capacity.entries_congr hused.families] at hminute
      refine (hc.minute accountId).snoc ?_ ?_
      · intro e he
        obtain ⟨u, hu, rfl⟩ := List.mem_map.1 he
        exact hlast u (List.mem_filter.1 hu).1
      · -- the scope is every account, or the one of the request
        have hentries : c.entries accountId q.families q.shareMinuteAcrossAccounts =
            c.entries r.accountId q.families q.shareMinuteAcrossAccounts := by
          rcases hscope with hshared | rfl
          · simp only [Capacity.entries, Reservation.inScope, hshared, Bool.true_or]
          · rfl
        rw [hentries]
        exact hminute
    · rw [List.append_nil]
      exact hc.minute accountId

variable (P)

/-- The reservations of a state are the earlier ones and the one just made. -/
theorem exec_reservedAt (db : Db) (call : Call) (t : ℤ)
    (h : (exec P db call).2.ReservedAt t) : db.ReservedAt t ∨ call.reservesAt = some t := by
  obtain ⟨u, hu, rfl⟩ := h
  obtain hretains | ⟨r, workload, d, rfl, -, hr, hd, hc⟩ := exec_retains_or_counts P call db
  · exact .inl ⟨u, hretains.reservations.subset hu, rfl⟩
  · rw [hc, Capacity.reservations, hr.requests_count hd, List.map_append, List.mem_append] at hu
    rcases hu with hu | hu
    · exact .inl ⟨u, hu, rfl⟩
    · obtain rfl : u = (r.usage workload).reservation := by simpa using hu
      exact .inr rfl

/-- **Every call keeps within the policy.** -/
theorem exec_within (call : Call)
    (hq : ∀ r, call = .capacity (.reserve r) → r.modelFamily ∈ q.families → q.UsedBy r)
    (hclock : ∀ t', call.reservesAt = some t' → ∀ t, db.ReservedAt t → t ≤ t')
    (hdb : q.Within db.capacity) : q.Within (exec P db call).2.capacity := by
  obtain hretains | ⟨r, workload, d, rfl, -, hr, hd, hc⟩ := exec_retains_or_counts P call db
  · exact hdb.retains hretains
  · rw [hc]
    exact hdb.grant hr (hq r rfl) (fun u hu => hclock r.now rfl _ ⟨u, hu, rfl⟩) hd

/-- What the quota guarantees in a state of the database. -/
structure QuotaSafe (q : QuotaPolicy) (db : Db) : Prop where
  within : q.Within db.capacity
  /-- a call that is refused or raises leaves the four ledgers -/
  refused : ∀ r : ReserveRequest,
    (∀ decision, (reserveAccountRequest P r db.jobs.rows db.capacity).1 = .ok decision →
      decision.admitted = false) →
    (reserveAccountRequest P r db.jobs.rows db.capacity).2.ledgers = db.capacity.ledgers
  /-- a call that is admitted is counted in each of them -/
  admitted : ∀ (r : ReserveRequest) decision,
    (reserveAccountRequest P r db.jobs.rows db.capacity).1 = .ok decision →
    decision.admitted = true →
    r.Counted P db.capacity (reserveAccountRequest P r db.jobs.rows db.capacity).2

/-- **The quota ceilings hold over whole runs**: with one policy for the
    families, and a clock that never runs backwards. -/
theorem quota_ceilings (q : QuotaPolicy) (calls : List Call)
    (hq : ∀ r, .capacity (.reserve r) ∈ calls → r.modelFamily ∈ q.families → q.UsedBy r)
    (hclock : (calls.filterMap Call.reservesAt).Pairwise (· ≤ ·)) :
    QuotaSafe P q (Machine.run (exec P) Db.empty calls) := by
  have hused : Machine.Along (exec P) (fun _ call => ∀ r, call = .capacity (.reserve r) →
      r.modelFamily ∈ q.families → q.UsedBy r) Db.empty calls :=
    Machine.along_of_mem (by rintro call hcall r rfl; exact hq r hcall) Db.empty
  have hstamps := Machine.along_of_stamps (S := Db.ReservedAt) (exec_reservedAt P) hclock
    (s := Db.empty) fun t ⟨_, hu, _⟩ => nomatch hu
  refine ⟨Machine.run_invariant (I := fun db => q.Within db.capacity)
    (fun db call h hdb => exec_within P call h.1 h.2 hdb) (hused.and hstamps) q.within_empty, ?_, ?_⟩
  · intro r hrefused
    obtain ⟨-, hl, -⟩ | ⟨workload, next, d, -, -, h⟩ := reserveAccountRequest_cases P r
      (Machine.run (exec P) Db.empty calls).jobs.rows (Machine.run (exec P) Db.empty calls).capacity
    · exact hl
    · rw [h] at hrefused
      exact absurd (hrefused .granted rfl) (by simp [ReserveDecision.admitted])
  · intro r decision hdecision hadmitted
    obtain ⟨hne, -⟩ | ⟨workload, next, d, hcleared, hslot, h⟩ := reserveAccountRequest_cases P r
      (Machine.run (exec P) Db.empty calls).jobs.rows (Machine.run (exec P) Db.empty calls).capacity
    · cases decision with
      | granted => exact absurd hdecision hne
      | _ => cases hadmitted
    · rw [h]
      exact hcleared.counted (ReserveRequest.slot_ledgers hslot).1

end

/-- An urgent request of one account at `now`, under a policy of 500 requests a
    day and 15 a minute. -/
def liteRequest (usageId : String) (now : ℤ) : ReserveRequest where
  accountId := "account"
  modelFamily := "gemini-3.5-flash-lite"
  dailyLimit := 500
  requestsPerMinute := 15
  urgent := true
  now := now
  usageId := usageId

theorem quota_ceilings_two_requests :
    QuotaSafe Platform.winter ⟨["gemini-3.5-flash-lite"], 500, 15, false⟩
      (Machine.run (exec Platform.winter) Db.empty
        [.capacity (.reserve (liteRequest "first" 0)), .capacity (.markAttempted "first" 1),
          .capacity (.reserve (liteRequest "second" 2))]) := by
  refine quota_ceilings _ _ _ ?_ (by decide)
  intro r hr _
  have hr : r = liteRequest "first" 0 ∨ r = liteRequest "second" 2 := by simpa using hr
  rcases hr with rfl | rfl
  · exact ⟨by simp [ReserveRequest.families, liteRequest], rfl, rfl, rfl⟩
  · exact ⟨by simp [ReserveRequest.families, liteRequest], rfl, rfl, rfl⟩

end Xauusd.Scheduler
