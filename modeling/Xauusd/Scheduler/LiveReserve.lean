/-
  Contract backfill and the reserve of LIVE work.

  Backfill is admitted out of what the forecast of the remaining LIVE requests,
  the operational reserve and the safety buffer leave of the day.  So after an
  admission these are still there, and LIVE work within them is not refused on
  the day's dimension.

  * `SurfaceDay`: one quota day of an account and a quota surface;
  * `BackfillEvidence.held`: what a decision holds back for LIVE work;
  * `Admission.held_add_le`: after an admission it is left of the day;
  * `live_reserve_kept`: for the LIVE requests after the last admission.
-/
import Xauusd.Scheduler.QuotaCeiling

namespace Xauusd.Scheduler

variable {P : Platform} {r : ReserveRequest} {jobs : List Job} {c d : Capacity} {db : Db}

/-! ## One decision -/

/-- What a decision holds back for LIVE work: the forecast, the operational
    reserve and the safety buffer. -/
def BackfillEvidence.held (e : BackfillEvidence) : ℕ :=
  e.predictedLiveRequests + e.operationalRetryReserve + e.safetyBuffer

/-- Every decision reports the forecast it was made with. -/
theorem backfillAdmissionLocked_held (r : BackfillRequest) (jobs : List Job) (c : Capacity) :
    (backfillAdmissionLocked P r jobs c).held = (r.forecast P c).held := by
  unfold backfillAdmissionLocked
  split
  · rfl
  · dsimp only
    split
    · rfl
    · split <;> rfl

/-- An admitted backfill is within the safe budget. -/
theorem BackfillRequest.safe_of_admitted {r : BackfillRequest}
    (h : (backfillAdmissionLocked P r jobs c).admitted = true) :
    r.requestedRequests ≤ (r.forecast P c).safeBackfillBudget := by
  unfold backfillAdmissionLocked at h
  split at h
  · cases h
  · dsimp only at h
    split at h
    · cases h
    · split at h
      · cases h
      · next hnone =>
        have hbudget := List.find?_eq_none.1 hnone
          (decide ((r.forecast P c).safeBackfillBudget < r.requestedRequests), "NO_SAFE_DAILY_BUDGET")
          (by simp [blockers])
        simpa using hbudget

/-- A positive request in the safe budget leaves what is held back. -/
theorem BackfillRequest.held_add_le {r : BackfillRequest} (hpos : 0 < r.requestedRequests)
    (h : r.requestedRequests ≤ (r.forecast P c).safeBackfillBudget) :
    (r.forecast P c).held + (r.currentDailyCount + r.requestedRequests) ≤ r.dailyLimit := by
  simp only [forecast, forecastSafeBackfillBudget, BackfillEvidence.held] at h ⊢
  omega

/-! ## Admission -/

/-- The decision on the backfill of a request. -/
def ReserveRequest.evidence (P : Platform) (r : ReserveRequest) (db : Db) : BackfillEvidence :=
  backfillAdmissionLocked P
    (r.backfill (db.capacity.dailyCount (r.day P) r.accountId r.families)) db.jobs.rows db.capacity

/-- The request is refused as the day is exhausted. -/
def ReserveRequest.RefusedRPD (P : Platform) (r : ReserveRequest) (db : Db) : Prop :=
  ∃ refusal, (reserveAccountRequest P r db.jobs.rows db.capacity).1 = .ok (.capacityDeferred refusal) ∧
    "RPD" ∈ refusal.dimensions

/-- A refusal on the day's dimension means that the request does not fit the day. -/
theorem ReserveRequest.RefusedRPD.exhausted (h : r.RefusedRPD P db) :
    r.usableDailyLimit <
      db.capacity.dailyCount (r.day P) r.accountId r.families + r.attemptedRequests := by
  obtain ⟨refusal, hreply, hdimension⟩ := h
  have hrefusal : r.capacityRefusal P
      (db.capacity.dailyCount (r.day P) r.accountId r.families) db.capacity = some refusal := by
    unfold reserveAccountRequest at hreply
    split at hreply
    · cases hreply
    · split at hreply
      · cases hreply
      · split at hreply
        · next hdecision =>
          rw [← Except.ok.inj hreply.symm] at hdecision
          unfold ReserveRequest.refusal at hdecision
          dsimp only at hdecision
          split at hdecision
          · cases hdecision
          · split at hdecision
            · cases hdecision
            · split at hdecision
              · cases hdecision
              · obtain ⟨refusal', hsome, heq⟩ := Option.map_eq_some_iff.1 hdecision
                rwa [ReserveDecision.capacityDeferred.inj heq] at hsome
        · split at hreply
          · cases hreply
          · cases hreply
          · split at hreply <;> cases hreply
  by_contra hfits
  unfold capacityRefusal at hrefusal
  dsimp only at hrefusal
  split at hrefusal
  · obtain rfl := Option.some.inj hrefusal
    simp only [hfits, decide_false, Bool.false_eq_true, if_false, List.nil_append,
      List.mem_append] at hdimension
    rcases hdimension with hdimension | hdimension
    · split at hdimension <;> simp at hdimension
    · split at hdimension <;> simp at hdimension
  · cases hrefusal

/-- A cleared backfill was admitted by its decision. -/
theorem ReserveRequest.Cleared.evidence_admitted
    (h : r.Cleared P .contractBackfill db.jobs.rows db.capacity) :
    (r.evidence P db).admitted = true := by
  have hrefusal := h.unrefused
  unfold refusal at hrefusal
  dsimp only at hrefusal
  split at hrefusal
  · cases hrefusal
  · split at hrefusal
    · cases hrefusal
    · split at hrefusal
      · cases hrefusal
      · next hadmitted => simpa [evidence] using hadmitted

/-! ## One quota day -/

/-- One quota day of an account and of a quota surface. -/
structure SurfaceDay where
  accountId : String
  quotaDay : ℤ
  families : List String
  dailyLimit : ℕ

/-- A request against the account and the surface on the day, LIVE ones urgent. -/
structure SurfaceDay.Serves (P : Platform) (s : SurfaceDay) (r : ReserveRequest) : Prop where
  accountId : r.accountId = s.accountId
  quotaDay : r.day P = s.quotaDay
  families : ∀ f, f ∈ r.families ↔ f ∈ s.families
  modelFamily : r.modelFamily ∈ s.families
  dailyLimit : r.dailyLimit = s.dailyLimit
  urgent : r.workloadClass = WorkloadClass.text .liveOperational → r.urgent = true

/-- The requests used on the day. -/
def SurfaceDay.used (s : SurfaceDay) (db : Db) : ℕ :=
  db.capacity.dailyCount s.quotaDay s.accountId s.families

/-- The request is charged to the day. -/
def SurfaceDay.Charges (P : Platform) (s : SurfaceDay) (r : ReserveRequest) : Prop :=
  r.day P = s.quotaDay ∧ r.accountId = s.accountId ∧ r.modelFamily ∈ s.families

instance (s : SurfaceDay) : Decidable (s.Charges P r) := inferInstanceAs (Decidable (_ ∧ _))

/-- The LIVE requests that a call makes on the day. -/
def SurfaceDay.liveWeight (P : Platform) (s : SurfaceDay) (db : Db) : Call → ℕ
  | .capacity (.reserve r) =>
    if s.Charges P r ∧ r.workloadClass = WorkloadClass.text .liveOperational ∧ r.Admitted P db then
      r.attemptedRequests
    else 0
  | _ => 0

/-- The LIVE requests that a list of calls makes on the day. -/
def SurfaceDay.liveRequests (P : Platform) (s : SurfaceDay) : Db → List Call → ℕ :=
  Machine.total (exec P) (s.liveWeight P)

/-- The call does not have backfill admitted on the day. -/
def SurfaceDay.NoBackfill (P : Platform) (s : SurfaceDay) (db : Db) (call : Call) : Prop :=
  ∀ r, call = .capacity (.reserve r) → s.Charges P r → r.Admitted P db →
    r.workloadClass ≠ WorkloadClass.text .contractBackfill

variable {s : SurfaceDay}

theorem SurfaceDay.Serves.charges (h : s.Serves P r) : s.Charges P r :=
  ⟨h.quotaDay, h.accountId, h.modelFamily⟩

theorem SurfaceDay.Serves.dailyCount (h : s.Serves P r) (db : Db) :
    db.capacity.dailyCount (r.day P) r.accountId r.families = s.used db := by
  rw [h.quotaDay, h.accountId]
  exact Capacity.dailyCount_congr h.families db.capacity

/-- What a grant adds to the day. -/
theorem SurfaceDay.used_of_count {db' : Db} {workload : WorkloadClass}
    (hd : d.ledgers = db.capacity.ledgers) (hc : db'.capacity = r.count P workload d) :
    s.used db' = s.used db + if s.Charges P r then r.attemptedRequests else 0 := by
  rw [used, hc, r.dailyCount_count hd]
  rfl

/-- A call without backfill uses at most the LIVE requests it makes. -/
theorem SurfaceDay.used_exec_le (db : Db) (call : Call) (h : s.NoBackfill P db call) :
    s.used (exec P db call).2 ≤ s.used db + s.liveWeight P db call := by
  obtain hretains | ⟨r, workload, d, rfl, hadmitted, hr, hd, hc⟩ := exec_retains_or_counts P call db
  · unfold used Capacity.dailyCount
    rw [hretains.daily]
    exact Nat.le_add_right _ _
  · rw [used_of_count hd hc]
    by_cases hcharges : s.Charges P r
    · have hlive : r.workloadClass = WorkloadClass.text .liveOperational := by
        cases workload with
        | liveOperational => exact (text_of_ofText? hr.known).symm
        | contractBackfill =>
          exact absurd (text_of_ofText? hr.known).symm (h r rfl hcharges hadmitted)
      have hweight : s.liveWeight P db (.capacity (.reserve r)) = r.attemptedRequests :=
        if_pos ⟨hcharges, hlive, hadmitted⟩
      rw [if_pos hcharges, hweight]
    · rw [if_neg hcharges]
      exact Nat.le_add_right _ _

/-- **What an admission holds back is left of the day.** -/
theorem ReserveRequest.Admitted.held_add_used_le (h : r.Admitted P db)
    (hclass : r.workloadClass = WorkloadClass.text .contractBackfill) (hr : s.Serves P r) :
    (r.evidence P db).held + s.used (exec P db (.capacity (.reserve r))).2 ≤ s.dailyLimit := by
  obtain ⟨hnot, -⟩ | ⟨workload, next, d, hcleared, hslot, hres⟩ :=
    reserveAccountRequest_cases P r db.jobs.rows db.capacity
  · exact absurd h hnot
  · have hworkload : workload = .contractBackfill := by
      have htext := (text_of_ofText? hcleared.known).trans hclass
      cases workload with
      | liveOperational => exact absurd htext (by decide)
      | contractBackfill => rfl
    subst hworkload
    have hc : (exec P db (.capacity (.reserve r))).2.capacity = r.count P .contractBackfill d := by
      simp [exec, CapacityCall.exec, hres]
    have hpos : 0 < r.attemptedRequests := by
      have := hcleared.positive
      simp only [attemptedRequests]
      omega
    have hheld := BackfillRequest.held_add_le hpos
      (BackfillRequest.safe_of_admitted hcleared.evidence_admitted)
    rw [← backfillAdmissionLocked_held, hr.dailyCount] at hheld
    rw [SurfaceDay.used_of_count (ReserveRequest.slot_ledgers hslot).1 hc, if_pos hr.charges,
      evidence, hr.dailyCount, ← hr.dailyLimit]
    exact hheld

/-- **Contract backfill never eats the LIVE reserve.** After every admitted
    backfill, what its decision held back for LIVE work is left of the day; and
    as long as no other backfill is admitted and the LIVE requests stay within
    it, none is refused as the day is exhausted. -/
theorem live_reserve_kept (P : Platform) (s : SurfaceDay) (db : Db) (r : ReserveRequest)
    (hr : s.Serves P r) (hclass : r.workloadClass = WorkloadClass.text .contractBackfill)
    (hadmitted : r.Admitted P db) :
    (r.evidence P db).held + s.used (exec P db (.capacity (.reserve r))).2 ≤ s.dailyLimit ∧
      ∀ (calls : List Call) (live : ReserveRequest),
        Machine.Along (exec P) (s.NoBackfill P) (exec P db (.capacity (.reserve r))).2 calls →
        s.Serves P live → live.workloadClass = WorkloadClass.text .liveOperational →
        s.liveRequests P (exec P db (.capacity (.reserve r))).2 calls + live.attemptedRequests ≤
          (r.evidence P db).held →
        ¬ live.RefusedRPD P (Machine.run (exec P) db (.capacity (.reserve r) :: calls)) := by
  have hheld := hadmitted.held_add_used_le hclass hr
  refine ⟨hheld, ?_⟩
  intro calls live hcalls hserves hlive hwithin hrefused
  have hexhausted := hrefused.exhausted
  have hlimit : live.usableDailyLimit = s.dailyLimit := by
    rw [ReserveRequest.usableDailyLimit, if_pos (hserves.urgent hlive), hserves.dailyLimit]
  have hused := Machine.run_measure_le (C := s.NoBackfill P) SurfaceDay.used_exec_le hcalls
  rw [hlimit, hserves.dailyCount, Machine.run_cons] at hexhausted
  unfold SurfaceDay.liveRequests at hwithin
  omega

/-- Day 7 of an account with 100 requests a day. -/
def daySeven : SurfaceDay := ⟨"account", 7, ["gemini-3.5-flash-lite"], 100⟩

/-- An urgent request at ten o'clock of day 7. -/
def daySevenRequest (usageId : String) (workload : WorkloadClass) (requestCount : ℤ) :
    ReserveRequest where
  accountId := "account"
  modelFamily := "gemini-3.5-flash-lite"
  dailyLimit := 100
  requestsPerMinute := 15
  requestCount := requestCount
  urgent := true
  now := 7 * IsoTime.day + 18 * IsoTime.hour
  usageId := usageId
  workloadClass := workload.text
  quotaAuthority := some "gemini_quota"

theorem daySevenRequest_serves (usageId : String) (workload : WorkloadClass) (requestCount : ℤ) :
    daySeven.Serves Platform.winter (daySevenRequest usageId workload requestCount) where
  accountId := rfl
  quotaDay := by
    show (7 * IsoTime.day + 18 * IsoTime.hour - 8 * IsoTime.hour) / IsoTime.day = 7
    decide
  families := by simp [ReserveRequest.families, daySeven, daySevenRequest]
  modelFamily := by simp [daySeven, daySevenRequest]
  dailyLimit := rfl
  urgent := fun _ => rfl

/-- With a week of history, five backfill requests are admitted, and 17 LIVE
    requests after them are not refused on the day's dimension. -/
theorem live_reserve_kept_daySeven :
    ((daySevenRequest "backfill" .contractBackfill 5).evidence Platform.winter
        { Db.empty with capacity := sevenDayHistory }).held = 17 ∧
      ¬ (daySevenRequest "live" .liveOperational 17).RefusedRPD Platform.winter
        (Machine.run (exec Platform.winter) { Db.empty with capacity := sevenDayHistory }
          [.capacity (.reserve (daySevenRequest "backfill" .contractBackfill 5))]) := by
  have hheld : ((daySevenRequest "backfill" .contractBackfill 5).evidence Platform.winter
      { Db.empty with capacity := sevenDayHistory }).held = 17 := by decide
  refine ⟨hheld, ?_⟩
  have hkept := live_reserve_kept Platform.winter daySeven
    { Db.empty with capacity := sevenDayHistory } (daySevenRequest "backfill" .contractBackfill 5)
    (daySevenRequest_serves _ _ _) rfl (by decide)
  refine hkept.2 [] (daySevenRequest "live" .liveOperational 17) trivial
    (daySevenRequest_serves _ _ _) rfl ?_
  rw [hheld]
  decide

end Xauusd.Scheduler
