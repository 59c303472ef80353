/-
  Safety of the shared provider governor.

  Whatever is recorded, `next_eligible_at` only moves forward, and a slot is
  granted only from it on; the cooldown, which a later outcome may shorten or
  clear, is not needed.

  * `Capacity.Advances`: no scope's `next_eligible_at` decreases; every call
    advances (`exec_advances`), hence every run (`run_advances`);
  * `Capacity.Paced`: the intervals meet the CHECK of their table;
  * `grantedAt`: the instant of the slot that a call is granted;
  * `governor_safety`: in every state that calls reach, a recorded wait and the
    interval of a granted slot hold back every later slot.
-/
import Xauusd.Scheduler.Writes

namespace Xauusd.Scheduler

variable {c c' c'' : Capacity} {jobs : List Job}

/-! ## Rows -/

/-- No scope becomes eligible earlier. -/
def Capacity.Advances (c c' : Capacity) : Prop :=
  ∀ scope d, c.dispatch.find? scope = some d →
    ∃ d', c'.dispatch.find? scope = some d' ∧ d.nextEligibleAt ≤ d'.nextEligibleAt

/-- Every interval is in its bounds. -/
def Capacity.Paced (c : Capacity) : Prop := ∀ d ∈ c.dispatch, d.check = true

theorem Capacity.advances_of_eq (h : c'.dispatch = c.dispatch) : c.Advances c' :=
  fun _ d hd => ⟨d, h ▸ hd, le_rfl⟩

theorem Capacity.Advances.refl (c : Capacity) : c.Advances c := advances_of_eq rfl

theorem Capacity.Advances.trans (h : c.Advances c') (h' : c'.Advances c'') : c.Advances c'' := by
  intro scope d hd
  obtain ⟨d', hd', hle⟩ := h scope d hd
  obtain ⟨d'', hd'', hle'⟩ := h' scope d' hd'
  exact ⟨d'', hd'', hle.trans hle'⟩

/-- An upsert that moves the row under the key forward advances. -/
theorem Capacity.advances_of_upsert {r : DispatchState} {merge : DispatchState → DispatchState}
    {hm : ∀ d, (merge d).providerScope = d.providerScope}
    (h : c'.dispatch = c.dispatch.upsert r merge hm)
    (hle : ∀ d, c.dispatch.find? r.providerScope = some d →
      d.nextEligibleAt ≤ (merge d).nextEligibleAt) : c.Advances c' := by
  intro scope d hd
  rw [h, Table.find?_upsert]
  by_cases hs : scope = r.providerScope
  · subst hs
    exact ⟨merge d, by simp [hd], hle d hd⟩
  · exact ⟨d, by simp [hs, hd], le_rfl⟩

theorem throttledInterval_check (d : DispatchState) :
    120 ≤ throttledInterval d.intervalMs ∧ throttledInterval d.intervalMs ≤ 5000 := by
  simp only [throttledInterval, PROVIDER_DISPATCH_MAX_INTERVAL_MS,
    PROVIDER_DISPATCH_INITIAL_INTERVAL_MS]
  omega

theorem roundNineTenths_le (n : ℕ) : roundNineTenths n ≤ n := by
  unfold roundNineTenths
  dsimp only
  split_ifs <;> omega

theorem succeededInterval_check {n : ℕ} (h : 120 ≤ n) (h' : n ≤ 5000) :
    120 ≤ succeededInterval n ∧ succeededInterval n ≤ 5000 := by
  have := roundNineTenths_le n
  simp only [succeededInterval, PROVIDER_DISPATCH_MIN_INTERVAL_MS]
  omega

theorem DispatchState.check_iff {d : DispatchState} :
    d.check = true ↔ 120 ≤ d.intervalMs ∧ d.intervalMs ≤ 5000 := by
  simp [check]

/-- Every outcome leaves the interval in its bounds. -/
theorem DispatchState.check_recorded {d : DispatchState} (h : d.check = true)
    (outcome : ProviderOutcome) (retryAfterSeconds : Option ℤ) (now : ℤ) :
    (d.recorded outcome retryAfterSeconds now).check = true := by
  rw [check_iff] at h ⊢
  simp only [recorded]
  split
  · exact throttledInterval_check d
  · exact h
  · split
    · exact succeededInterval_check h.1 h.2
    · exact h
  · exact h

/-- No outcome makes the provider eligible earlier. -/
theorem DispatchState.nextEligibleAt_recorded (d : DispatchState) (outcome : ProviderOutcome)
    (retryAfterSeconds : Option ℤ) (now : ℤ) :
    d.nextEligibleAt ≤ (d.recorded outcome retryAfterSeconds now).nextEligibleAt := by
  simp only [recorded]
  split
  · exact le_max_left _ _
  · exact le_max_left _ _
  · split <;> exact le_rfl
  · exact le_rfl

/-- A wait holds the provider back until it is over. -/
theorem DispatchState.wait_le_recorded {d : DispatchState} {outcome : ProviderOutcome}
    {retryAfterSeconds : Option ℤ} {w : ℤ} (h : d.wait outcome retryAfterSeconds = some w) (now : ℤ) :
    now + w ≤ (d.recorded outcome retryAfterSeconds now).nextEligibleAt := by
  simp only [recorded, h]
  cases outcome with
  | succeeded => simp [wait] at h
  | throttled => exact le_max_right _ _
  | failed => exact le_max_right _ _

/-! ## Calls -/

/-- A call keeps the intervals in their bounds and advances. -/
def Capacity.Governs (c c' : Capacity) : Prop := c.Paced → c'.Paced ∧ c.Advances c'

theorem Capacity.governs_of_eq (h : c'.dispatch = c.dispatch) : c.Governs c' :=
  fun hc => ⟨by rw [Paced, h]; exact hc, advances_of_eq h⟩

theorem Capacity.Governs.refl (c : Capacity) : c.Governs c := governs_of_eq rfl

theorem Capacity.Governs.trans (h : c.Governs c') (h' : c'.Governs c'') : c.Governs c'' := by
  intro hc
  obtain ⟨hc', ha⟩ := h hc
  obtain ⟨hc'', ha'⟩ := h' hc'
  exact ⟨hc'', ha.trans ha'⟩

theorem intervalOf_nonneg (n : ℕ) : 0 ≤ intervalOf n := by simp only [intervalOf]; omega

theorem Capacity.dispatchRow_of_some {d : DispatchState} (h : c.providerDispatchRow = some d)
    (now : ℤ) : c.dispatchRow now = d := by
  simp [dispatchRow, h]

/-- A grant governs, and leaves the provider eligible an interval later. -/
theorem Capacity.grantDispatch_governs {taskClass : ProviderTaskClass} {now : ℤ} {row : DispatchState}
    (hrow : row = c.dispatchRow now) (hle : row.nextEligibleAt ≤ now) (hcheck : row.check = true) :
    c.Governs (c.grantDispatch row taskClass now) ∧
      ∃ d, (c.grantDispatch row taskClass now).providerDispatchRow = some d ∧
        d.nextEligibleAt = now + intervalOf row.intervalMs := by
  have hnonneg := intervalOf_nonneg row.intervalMs
  refine ⟨fun hc => ⟨?_, advances_of_upsert rfl fun d hd => ?_⟩, ?_⟩
  · exact Table.forall_upsert hc hcheck fun d _ _ hd => hd
  · rw [show row = d from hrow.trans (dispatchRow_of_some hd now)] at hle hnonneg ⊢
    exact hle.trans (by simpa using hnonneg)
  · rw [providerDispatchRow, grantDispatch, Table.find?_upsert]
    cases hfind : c.dispatch.find? GOOGLE_PROVIDER_SCOPE <;> simp [firstDispatch]

theorem reserveProviderDispatchLocked_governs {providerTask : String} {now next : ℤ} {granted : Bool}
    (h : reserveProviderDispatchLocked jobs providerTask now c = .ok ((granted, next), c')) :
    c.Governs c' := by
  obtain ⟨-, h, -⟩ | ⟨-, hle, hcheck, taskClass, d, hd, -, rfl⟩ :=
    reserveProviderDispatchLocked_cases h
  · exact Capacity.governs_of_eq h
  · have hrow : c.dispatchRow now = d.dispatchRow now := by
      simp only [Capacity.dispatchRow, Capacity.providerDispatchRow, hd]
    exact (Capacity.governs_of_eq hd).trans (d.grantDispatch_governs hrow hle hcheck).1

theorem recordProviderDispatchOutcome_governs (outcome : String) (retryAfterSeconds : Option ℤ)
    (now : ℤ) (c : Capacity) :
    c.Governs (recordProviderDispatchOutcome outcome retryAfterSeconds now c).2 := by
  unfold recordProviderDispatchOutcome
  split
  · exact .refl _
  · next o _ =>
    split
    · exact .refl _
    · next row hrow =>
      split
      · exact .refl _
      · next hcheck =>
        have hcheck : (row.recorded o retryAfterSeconds now).check = true := by simpa using hcheck
        refine fun hc => ⟨Table.forall_update (DispatchState.replacing_scope _) hc
          fun _ _ _ _ => hcheck, ?_⟩
        intro scope d hd
        refine ⟨_, by rw [Table.find?_update, hd, Option.map_some], ?_⟩
        split
        · next hscope =>
          obtain rfl : d = row := by
            have hkey := (Table.find?_eq_some_iff.1 hd).2
            rw [← hkey, of_decide_eq_true hscope] at hd
            exact Option.some.inj (hd.symm.trans hrow)
          exact d.nextEligibleAt_recorded _ _ _
        · exact le_rfl

theorem OutcomeReport.deferIndependent_governs (r : OutcomeReport) (outcome : ProviderOutcome)
    (c : Capacity) : c.Governs (r.deferIndependent outcome c) := by
  unfold deferIndependent
  split
  · refine fun hc => ⟨Table.forall_upsert hc rfl fun d _ _ hd => hd, ?_⟩
    exact Capacity.advances_of_upsert rfl fun d _ => le_max_left _ _
  · exact .refl _

theorem recordAccountRequestOutcome_governs (r : OutcomeReport) (c : Capacity) :
    c.Governs (recordAccountRequestOutcome r c).2 := by
  unfold recordAccountRequestOutcome
  split
  · exact .refl _
  · next outcome _ =>
    split
    · exact .refl _
    · split
      · exact .refl _
      · have hrecorded := (Capacity.governs_of_eq rfl).trans (r.deferIndependent_governs outcome
          { c with requests := c.requests.update r.claimable (r.set outcome) fun _ => rfl })
        dsimp only
        split
        · exact hrecorded
        · exact hrecorded.trans (recordProviderDispatchOutcome_governs _ _ _ _)

section
variable (P : Platform)

/-- A slot governs; a granted one was due, and holds back the next for the
    interval in force. -/
theorem ReserveRequest.slot_governs {r : ReserveRequest} {granted : Bool} {next : ℤ}
    (h : r.slot jobs c = .ok ((granted, next), c')) : c.Governs c' := by
  unfold slot at h
  split at h
  · exact reserveProviderDispatchLocked_governs h
  · obtain ⟨-, rfl⟩ := Prod.mk.inj (Except.ok.inj h)
    exact .refl _

theorem reserveAccountRequest_governs (r : ReserveRequest) (jobs : List Job) (c : Capacity) :
    c.Governs (reserveAccountRequest P r jobs c).2 := by
  obtain ⟨-, -, h⟩ | ⟨workload, next, d, -, hslot, h⟩ := reserveAccountRequest_cases P r jobs c
  · exact Capacity.governs_of_eq h
  · rw [h]; exact (ReserveRequest.slot_governs hslot).trans (Capacity.governs_of_eq rfl)

theorem reserveProviderDispatch_governs (providerTask : String) (now : ℤ) (c : Capacity) :
    c.Governs (reserveProviderDispatch jobs providerTask now c).2 := by
  unfold reserveProviderDispatch
  split
  · exact .refl _
  · next h => exact reserveProviderDispatchLocked_governs h

theorem CapacityCall.exec_governs (call : CapacityCall) (jobs : List Job) (c : Capacity) :
    c.Governs (call.exec P jobs c).2 := by
  cases call with
  | reserve r => exact reserveAccountRequest_governs P r jobs c
  | markAttempted =>
    simp only [exec, markAccountRequestAttempted]
    split <;> exact Capacity.governs_of_eq rfl
  | recordOutcome r => exact recordAccountRequestOutcome_governs r c
  | recordVectors =>
    simp only [exec, recordAccountVectorsCommitted]
    split
    · exact .refl _
    · split <;> exact Capacity.governs_of_eq rfl
  | recordDeferral | registerDemand | prune => exact Capacity.governs_of_eq rfl
  | reserveDispatch task now => exact reserveProviderDispatch_governs task now c
  | recordDispatch outcome retryAfterSeconds now =>
    exact recordProviderDispatchOutcome_governs outcome retryAfterSeconds now c

/-! ## Runs -/

/-- **No call makes the provider eligible earlier**, nor takes an interval out
    of its bounds. -/
theorem exec_governs (call : Call) (db : Db) : db.capacity.Governs (exec P db call).2.capacity := by
  cases call with
  | job c => exact Capacity.governs_of_eq (congrArg Capacity.dispatch (c.exec_frame P db).2)
  | capacity c => exact c.exec_governs P db.jobs.rows db.capacity
  | record c =>
    cases c with
    | append row => simp only [exec, RecordCall.exec]; split <;> exact .refl _
    | startForward | displaceHooks | installHooks => exact .refl _

theorem run_governs (calls : List Call) (db : Db) :
    db.capacity.Governs (Machine.run (exec P) db calls).capacity := by
  induction calls generalizing db with
  | nil => exact .refl _
  | cons call calls ih => exact (exec_governs P call db).trans (ih _)

/-- The governor's row. -/
def Db.governor (db : Db) : Option DispatchState := db.capacity.providerDispatchRow

/-- The interval in force. -/
def Db.intervalMs (db : Db) : ℕ :=
  (db.governor.map (·.intervalMs)).getD PROVIDER_DISPATCH_INITIAL_INTERVAL_MS

/-- The instant of the slot that a call is granted. -/
def grantedAt (db : Db) : Call → Option ℤ
  | .capacity (.reserveDispatch task now) =>
    match (reserveProviderDispatch db.jobs.rows task now db.capacity).1 with
    | .ok (true, _) => some now
    | _ => none
  | .capacity (.reserve r) =>
    if r.paced.isSome ∧ (reserveAccountRequest P r db.jobs.rows db.capacity).1 = .ok .granted then
      some r.now
    else none
  | _ => none

/-- A granted slot was due, and leaves the provider eligible an interval later. -/
theorem reserveProviderDispatchLocked_granted {task : String} {now next : ℤ}
    (h : reserveProviderDispatchLocked jobs task now c = .ok ((true, next), c')) :
    (∀ d, c.providerDispatchRow = some d → d.nextEligibleAt ≤ now) ∧
      ∃ d, c'.providerDispatchRow = some d ∧
        d.nextEligibleAt = now + intervalOf (c.dispatchRow now).intervalMs := by
  obtain ⟨hg, -⟩ | ⟨-, hle, hcheck, taskClass, d, hd, -, rfl⟩ :=
    reserveProviderDispatchLocked_cases h
  · cases hg
  · have hrow : c.dispatchRow now = d.dispatchRow now := by
      simp only [Capacity.dispatchRow, Capacity.providerDispatchRow, hd]
    refine ⟨fun d' hd' => ?_, (d.grantDispatch_governs hrow hle hcheck).2⟩
    rwa [Capacity.dispatchRow_of_some hd'] at hle

/-- What `grantedAt` says of a call: the slot was due, and the next one is due
    an interval later. -/
theorem grantedAt_spec {db : Db} {call : Call} {t : ℤ} (h : grantedAt P db call = some t) :
    (∀ d, db.governor = some d → d.nextEligibleAt ≤ t) ∧
      ∃ d, (exec P db call).2.governor = some d ∧
        d.nextEligibleAt = t + intervalOf db.intervalMs := by
  have hinterval : (db.capacity.dispatchRow t).intervalMs = db.intervalMs := by
    simp only [Capacity.dispatchRow, Db.intervalMs, Db.governor]
    cases db.capacity.providerDispatchRow <;> rfl
  unfold grantedAt at h
  split at h
  · next task now =>
    cases hres : reserveProviderDispatchLocked db.jobs.rows task now db.capacity with
    | error e => simp [reserveProviderDispatch, hres] at h
    | ok x =>
      obtain ⟨⟨granted, next⟩, c'⟩ := x
      cases granted with
      | false => simp [reserveProviderDispatch, hres] at h
      | true =>
        obtain rfl : now = t := by simpa [reserveProviderDispatch, hres] using h
        have hc' : (exec P db (.capacity (.reserveDispatch task now))).2.capacity = c' := by
          simp [exec, CapacityCall.exec, reserveProviderDispatch, hres]
        rw [Db.governor, Db.governor, hc', ← hinterval]
        exact reserveProviderDispatchLocked_granted hres
  · next r =>
    split at h
    · next hgranted =>
      obtain rfl := Option.some.inj h
      obtain ⟨task, htask⟩ := Option.isSome_iff_exists.1 hgranted.1
      obtain ⟨hnot, -⟩ | ⟨workload, next, d, -, hslot, hres⟩ :=
        reserveAccountRequest_cases P r db.jobs.rows db.capacity
      · exact absurd hgranted.2 hnot
      · have hc' : (exec P db (.capacity (.reserve r))).2.capacity = r.count P workload d := by
          simp [exec, CapacityCall.exec, hres]
        have hrow : (r.count P workload d).providerDispatchRow = d.providerDispatchRow := rfl
        simp only [ReserveRequest.slot, htask] at hslot
        rw [Db.governor, Db.governor, hc', hrow, ← hinterval]
        exact reserveProviderDispatchLocked_granted hslot
    · cases h
  · cases h

/-- After a state in which the provider is held back until `t`, no run grants a
    slot earlier. -/
theorem le_grantedAt_of_run {db : Db} (hdb : db.capacity.Paced) {t : ℤ}
    (ht : ∃ d, db.governor = some d ∧ t ≤ d.nextEligibleAt) (calls : List Call) {call : Call} {u : ℤ}
    (h : grantedAt P (Machine.run (exec P) db calls) call = some u) : t ≤ u := by
  obtain ⟨d, hd, hle⟩ := ht
  obtain ⟨d', hd', hle'⟩ := (run_governs P calls db hdb).2 _ d hd
  exact (hle.trans hle').trans ((grantedAt_spec P h).1 d' hd')

/-! ## Safety -/

/-- What the governor guarantees in a state of the database. -/
structure GovernorSafe (db : Db) : Prop where
  /-- the interval meets the CHECK of the table, whatever is recorded -/
  interval : ∀ d, db.governor = some d → 120 ≤ d.intervalMs ∧ d.intervalMs ≤ 5000
  recordable : ∀ outcome retryAfterSeconds now,
    (recordProviderDispatchOutcome outcome retryAfterSeconds now db.capacity).1 ≠
      .error .integrityError
  /-- `next_eligible_at` never decreases -/
  monotone : ∀ calls d, db.governor = some d →
    ∃ d', (Machine.run (exec P) db calls).governor = some d' ∧
      d.nextEligibleAt ≤ d'.nextEligibleAt
  /-- once a slot was granted the row is there, and every outcome is recorded -/
  present : ∀ call t, grantedAt P db call = some t → ∀ calls,
    ∃ d, (Machine.run (exec P) db (call :: calls)).governor = some d
  /-- a recorded wait of a throttle, or of a failure with `Retry-After`, holds
      back every slot until it is over, whatever is called in between -/
  cooldown : ∀ text outcome retryAfterSeconds t d w,
    ofText? ProviderOutcome.text PROVIDER_OUTCOMES text = some outcome →
    db.governor = some d → d.wait outcome retryAfterSeconds = some w →
    ∀ calls call u,
      grantedAt P (Machine.run (exec P) db
        (.capacity (.recordDispatch text retryAfterSeconds t) :: calls)) call = some u → t + w ≤ u
  /-- two granted slots are the interval at the first apart -/
  spacing : ∀ call t, grantedAt P db call = some t → ∀ calls call' u,
    grantedAt P (Machine.run (exec P) db (call :: calls)) call' = some u →
      t + intervalOf db.intervalMs ≤ u

theorem Capacity.paced_governor {db : Db} (hdb : db.capacity.Paced) {d : DispatchState}
    (hd : db.governor = some d) : d.check = true :=
  hdb d (Table.find?_eq_some_iff.1 hd).1

/-- An outcome is recorded on the governor's row. -/
theorem recordProviderDispatchOutcome_spec {text : String} {outcome : ProviderOutcome}
    (htext : ofText? ProviderOutcome.text PROVIDER_OUTCOMES text = some outcome)
    (retryAfterSeconds : Option ℤ) (now : ℤ) (hc : c.Paced) {d : DispatchState}
    (hd : c.providerDispatchRow = some d) :
    (recordProviderDispatchOutcome text retryAfterSeconds now c).1 = .ok () ∧
      (recordProviderDispatchOutcome text retryAfterSeconds now c).2.providerDispatchRow =
        some ((d.recorded outcome retryAfterSeconds now).replacing d) := by
  have hcheck := DispatchState.check_recorded (hc d (Table.find?_eq_some_iff.1 hd).1) outcome
    retryAfterSeconds now
  have hscope := (Table.find?_eq_some_iff.1 hd).2
  unfold recordProviderDispatchOutcome
  simp only [htext, hd, hcheck, Bool.not_true, Bool.false_eq_true, if_false, true_and]
  rw [Capacity.providerDispatchRow, Table.find?_update, ← Capacity.providerDispatchRow, hd]
  simp [hscope]

/-- **Safety of the governor**, in every state that calls reach. -/
theorem governor_safety (calls : List Call) :
    GovernorSafe P (Machine.run (exec P) Db.empty calls) := by
  have hdb : (Machine.run (exec P) Db.empty calls).capacity.Paced :=
    (run_governs P calls Db.empty fun d hd => absurd hd (Table.not_mem_empty d)).1
  generalize Machine.run (exec P) Db.empty calls = db at hdb
  refine ⟨fun d hd => DispatchState.check_iff.1 (Capacity.paced_governor hdb hd), ?_,
    fun calls d hd => (run_governs P calls db hdb).2 _ d hd, ?_, ?_, ?_⟩
  · intro text retryAfterSeconds now
    cases htext : ofText? ProviderOutcome.text PROVIDER_OUTCOMES text with
    | none => simp [recordProviderDispatchOutcome, htext]
    | some outcome =>
      cases hd : db.capacity.providerDispatchRow with
      | none => simp [recordProviderDispatchOutcome, htext, hd]
      | some d => simp [(recordProviderDispatchOutcome_spec htext _ _ hdb hd).1]
  · intro call t hgrant calls
    obtain ⟨-, d, hd, -⟩ := grantedAt_spec P hgrant
    obtain ⟨d', hd', -⟩ := (run_governs P calls _ (exec_governs P call db hdb).1).2 _ d hd
    exact ⟨d', hd'⟩
  · intro text outcome retryAfterSeconds t d w htext hd hw calls call u h
    obtain ⟨-, hrow⟩ := recordProviderDispatchOutcome_spec htext retryAfterSeconds t hdb hd
    refine le_grantedAt_of_run P
      (exec_governs P (.capacity (.recordDispatch text retryAfterSeconds t)) db hdb).1
      ⟨_, hrow, ?_⟩ calls h
    exact DispatchState.wait_le_recorded hw t
  · intro call t hgrant calls call' u h
    obtain ⟨-, d, hd, hnext⟩ := grantedAt_spec P hgrant
    exact le_grantedAt_of_run P (exec_governs P call db hdb).1 ⟨d, hd, hnext.ge⟩ calls h

end

end Xauusd.Scheduler
