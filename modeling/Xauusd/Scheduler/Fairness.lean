/-
  Fairness of the shared provider governor.

  * `Capacity.frontier`: the classes with demand that none dominates;
  * `reserve_selects`: past the pacing check the frontier is not empty, and
    only the class that is selected from it is granted a slot;
  * `Capacity.Spaced`: every slot was granted before the provider's next one;
  * `grants`: the slots that a run grants, each with what it was granted on;
  * `dispatch_fair`: **of five slots in a row, a class that contends for each
    of them gets one**, whatever becomes of the jobs in between.
-/
import Mathlib
import Xauusd.Lib.Rotation
import Xauusd.Scheduler.GovernorSafety

namespace Xauusd.Scheduler

variable {c c' : Capacity} {jobs : List Job} {task : String} {now next : ℤ}

/-! ## The frontier -/

/-- The candidates that none dominates. -/
def Capacity.frontier (c : Capacity) (jobs : List Job) (now : ℤ) : List DispatchTaskState :=
  (c.candidates jobs now).filter fun t =>
    !((c.candidates jobs now).any fun t' => t'.lastPressure.dominates t.lastPressure)

theorem Capacity.mem_frontier {t : DispatchTaskState} : t ∈ c.frontier jobs now ↔
    t ∈ c.candidates jobs now ∧ ∀ t' ∈ c.candidates jobs now, t'.lastPressure.dominates t.lastPressure = false := by
  rw [Capacity.frontier, List.mem_filter]
  simp

/-- The capacity tables with the demand of a reservation. -/
def Capacity.demanded (c : Capacity) (jobs : List Job) (task : String) (now : ℤ) : Capacity :=
  registerProviderDemand jobs (providerTaskClass task) now none c

def Pressure.total (p : Pressure) : ℤ :=
  p.dependencyFanout + p.oldestAgeMs + p.retryOverdueMs + p.backlog + p.drainGap

theorem Pressure.total_lt_of_dominates {p q : Pressure} (h : p.dominates q = true) : q.total < p.total := by
  obtain ⟨⟨h₁, h₂, h₃, h₄, h₅⟩, hne⟩ := of_decide_eq_true h
  by_contra hle
  simp only [Pressure.total, not_lt] at hle
  apply hne
  rcases p with ⟨p₁, p₂, p₃, p₄, p₅⟩
  rcases q with ⟨q₁, q₂, q₃, q₄, q₅⟩
  simp only [Pressure.mk.injEq] at *
  omega

/-- Of some candidates the one with the most pressure is not dominated. -/
theorem Capacity.frontier_ne_nil (h : c.candidates jobs now ≠ []) : c.frontier jobs now ≠ [] := by
  have hne : (c.candidates jobs now).toFinset.Nonempty := (List.toFinset_nonempty_iff _).2 h
  obtain ⟨t, ht, hmax⟩ := Finset.exists_max_image _ (fun t : DispatchTaskState => t.lastPressure.total) hne
  refine List.ne_nil_of_mem (mem_frontier.2 ⟨List.mem_toFinset.1 ht, fun t' ht' => ?_⟩)
  have hle := hmax t' (List.mem_toFinset.2 ht')
  cases hdominates : t'.lastPressure.dominates t.lastPressure with
  | false => rfl
  | true => exact absurd (Pressure.total_lt_of_dominates hdominates) (not_lt.2 hle)

/-- The class of a reservation has demand at its instant. -/
theorem Capacity.frontier_demanded_ne_nil (c : Capacity) (jobs : List Job) (task : String) (now : ℤ) :
    (c.demanded jobs task now).frontier jobs now ≠ [] := by
  apply frontier_ne_nil
  have hfind : ∃ t, (c.demanded jobs task now).dispatchTasks.find? (providerTaskClass task) = some t ∧
      t.demandUntil = now + PROVIDER_DISPATCH_DEMAND_TTL := by
    rw [demanded, registerProviderDemand, Table.find?_upsert, if_pos rfl]
    cases c.dispatchTasks.find? (providerTaskClass task) with
    | none => exact ⟨_, rfl, rfl⟩
    | some t => exact ⟨_, rfl, rfl⟩
  obtain ⟨t, ht, huntil⟩ := hfind
  have hlive : now ≤ t.demandUntil := by
    rw [huntil, PROVIDER_DISPATCH_DEMAND_TTL, IsoTime.second]
    omega
  refine List.ne_nil_of_mem (List.mem_map_of_mem (List.mem_filter.2 ⟨(Table.find?_eq_some_iff.1 ht).1, ?_⟩))
  exact decide_eq_true hlive

/-! ## The turn -/

theorem DispatchTaskState.turnBefore_total (a b : DispatchTaskState) :
    a.turnBefore b = true ∨ b.turnBefore a = true := by
  simp only [turnBefore, decide_eq_true_eq]
  rcases lt_trichotomy [if a.lastDispatchedAt.isSome then (1 : ℤ) else 0, a.lastDispatchedAt.getD 0]
    [if b.lastDispatchedAt.isSome then 1 else 0, b.lastDispatchedAt.getD 0] with h | h | h
  · exact .inl (.inl h)
  · exact (String.le_total a.taskClass.text b.taskClass.text).imp (fun hle => .inr ⟨h, hle⟩) fun hle => .inr ⟨h.symm, hle⟩
  · exact .inr (.inl h)

theorem DispatchTaskState.turnBefore_trans (a b c : DispatchTaskState) (hab : a.turnBefore b = true)
    (hbc : b.turnBefore c = true) : a.turnBefore c = true := by
  simp only [turnBefore, decide_eq_true_eq] at *
  rcases hab with hab | ⟨hab, hab'⟩
  · rcases hbc with hbc | ⟨hbc, -⟩
    · exact .inl (lt_trans hab hbc)
    · exact .inl (hbc ▸ hab)
  · rcases hbc with hbc | ⟨hbc, hbc'⟩
    · exact .inl (hab ▸ hbc)
    · exact .inr ⟨hab.trans hbc, String.le_trans hab' hbc'⟩

/-- Whoever has the turn was granted a slot no later. -/
theorem DispatchTaskState.notLater_of_turnBefore {a b : DispatchTaskState} (h : a.turnBefore b = true) :
    Rotation.NotLater a.lastDispatchedAt b.lastDispatchedAt := by
  simp only [turnBefore, decide_eq_true_eq, List.cons_lt_cons_iff] at h
  cases ha : a.lastDispatchedAt with
  | none => exact trivial
  | some t =>
    cases hb : b.lastDispatchedAt with
    | none => simp [ha, hb] at h
    | some u =>
      have hle : t < u ∨ t = u ∧ a.taskClass.text ≤ b.taskClass.text := by simpa [ha, hb] using h
      exact hle.elim le_of_lt fun heq => heq.1.le

/-- Selecting is selecting from the frontier. -/
theorem Capacity.selectedProviderTask_eq (c : Capacity) (jobs : List Job) (now : ℤ) :
    c.selectedProviderTask jobs now =
      match Table.firstBy DispatchTaskState.turnBefore (c.frontier jobs now) with
      | some t => .ok t.taskClass
      | none => .error (.valueError "min() iterable argument is empty") := rfl

/-- Whoever is selected is on the frontier and has the turn there. -/
theorem Capacity.selectedProviderTask_spec {selected : ProviderTaskClass}
    (h : c.selectedProviderTask jobs now = .ok selected) :
    ∃ t ∈ c.frontier jobs now, t.taskClass = selected ∧ ∀ t' ∈ c.frontier jobs now, t.turnBefore t' = true := by
  rw [selectedProviderTask_eq] at h
  split at h
  · next t ht =>
    refine ⟨t, Table.mem_of_firstBy ht, Except.ok.inj h, ?_⟩
    exact Table.firstBy_le DispatchTaskState.turnBefore_total DispatchTaskState.turnBefore_trans ht
  · cases h

theorem Capacity.exists_selectedProviderTask (h : c.frontier jobs now ≠ []) :
    ∃ selected, c.selectedProviderTask jobs now = .ok selected := by
  rw [selectedProviderTask_eq]
  cases hfirst : Table.firstBy DispatchTaskState.turnBefore (c.frontier jobs now) with
  | none => exact absurd (Table.firstBy_eq_none_iff.1 hfirst) h
  | some t => exact ⟨_, rfl⟩

/-! ## A reservation -/

/-- What a reservation does once the provider is eligible. -/
structure Selects (c : Capacity) (jobs : List Job) (task : String) (now : ℤ) : Prop where
  frontier : (c.demanded jobs task now).frontier jobs now ≠ []
  selected : ∃ t ∈ (c.demanded jobs task now).frontier jobs now,
    (c.demanded jobs task now).selectedProviderTask jobs now = .ok t.taskClass ∧
      ∃ next c', reserveProviderDispatchLocked jobs task now c =
        .ok ((decide (t.taskClass = providerTaskClass task), next), c')

/-- A reservation past the pacing check. -/
theorem reserveProviderDispatchLocked_eligible (hdue : ¬ now < (c.dispatchRow now).eligibleAt now)
    {selected : ProviderTaskClass}
    (hselected : (c.demanded jobs task now).selectedProviderTask jobs now = .ok selected) :
    reserveProviderDispatchLocked jobs task now c =
      if selected ≠ providerTaskClass task then
        .ok ((false, now + intervalOf (c.dispatchRow now).intervalMs), (c.demanded jobs task now).refreshPressures jobs now)
      else if (c.dispatchRow now).check = false then .error .integrityError
      else .ok ((true, now + intervalOf (c.dispatchRow now).intervalMs),
        ((c.demanded jobs task now).refreshPressures jobs now).grantDispatch (c.dispatchRow now) (providerTaskClass task) now) := by
  have hrow : (registerProviderDemand jobs (providerTaskClass task) now none c).providerDispatchRow.getD (firstDispatch now) =
      c.dispatchRow now := rfl
  have hselected' : (registerProviderDemand jobs (providerTaskClass task) now none c).selectedProviderTask jobs now =
      .ok selected := hselected
  simp only [reserveProviderDispatchLocked, bind, pure, Except.pure, throw, throwThe, MonadExceptOf.throw]
  rw [hrow, if_neg hdue, hselected']
  simp only [Except.bind, Capacity.demanded]
  split
  · rfl
  · cases hcheck : (c.dispatchRow now).check <;> rfl

theorem Capacity.check_dispatchRow (hc : c.Paced) (now : ℤ) : (c.dispatchRow now).check = true := by
  rw [dispatchRow]
  cases hd : c.providerDispatchRow with
  | none => rfl
  | some d => exact hc d (Table.find?_eq_some_iff.1 hd).1

theorem selects (hc : c.Paced) (hdue : ¬ now < (c.dispatchRow now).eligibleAt now) : Selects c jobs task now := by
  have hne := c.frontier_demanded_ne_nil jobs task now
  obtain ⟨selected, hselected⟩ := Capacity.exists_selectedProviderTask hne
  obtain ⟨t, ht, rfl, -⟩ := Capacity.selectedProviderTask_spec hselected
  refine ⟨hne, t, ht, hselected, ?_⟩
  rw [reserveProviderDispatchLocked_eligible hdue hselected, c.check_dispatchRow hc]
  by_cases heq : t.taskClass = providerTaskClass task
  · rw [if_neg (not_not.2 heq), if_neg Bool.true_eq_false_eq_False, decide_eq_true heq]
    exact ⟨_, _, rfl⟩
  · rw [if_pos heq, decide_eq_false heq]
    exact ⟨_, _, rfl⟩

/-! ## The last slots -/

/-- The instant of the last slot of a class. -/
def Capacity.lastDispatched (c : Capacity) (x : ProviderTaskClass) : Option ℤ :=
  (c.dispatchTasks.find? x).bind (·.lastDispatchedAt)

theorem registerProviderDemand_lastDispatched (jobs : List Job) (taskClass : ProviderTaskClass) (now : ℤ)
    (pressure : Option Pressure) (c : Capacity) :
    (registerProviderDemand jobs taskClass now pressure c).lastDispatched = c.lastDispatched := by
  funext x
  rw [Capacity.lastDispatched, registerProviderDemand, Table.find?_upsert, Capacity.lastDispatched]
  split
  · next hx =>
    subst hx
    cases c.dispatchTasks.find? x <;> rfl
  · rfl

theorem Capacity.refreshPressures_lastDispatched (c : Capacity) (jobs : List Job) (now : ℤ) :
    (c.refreshPressures jobs now).lastDispatched = c.lastDispatched := by
  funext x
  rw [lastDispatched, refreshPressures, Table.find?_update, lastDispatched]
  cases c.dispatchTasks.find? x with
  | none => rfl
  | some t =>
    simp only [Option.map_some, Option.bind_some]
    split <;> rfl

/-- Demand stays registered. -/
theorem Capacity.isSome_find?_demanded (c : Capacity) (jobs : List Job) (task : String) (now : ℤ) :
    (((c.demanded jobs task now).refreshPressures jobs now).dispatchTasks.find? (providerTaskClass task)).isSome = true := by
  rw [refreshPressures, Table.find?_update, demanded, registerProviderDemand, Table.find?_upsert, if_pos rfl]
  rfl

theorem Capacity.grantDispatch_lastDispatched {row : DispatchState} {x : ProviderTaskClass}
    (hx : (c.dispatchTasks.find? x).isSome = true) :
    (c.grantDispatch row x now).lastDispatched = Function.update c.lastDispatched x (some now) := by
  funext y
  rw [lastDispatched, grantDispatch, Table.find?_update]
  by_cases hy : y = x
  · subst hy
    obtain ⟨t, ht⟩ := Option.isSome_iff_exists.1 hx
    have hkey := (Table.find?_eq_some_iff.1 ht).2
    rw [Function.update_self, ht]
    simp [hkey]
  · rw [Function.update_of_ne hy, lastDispatched]
    cases ht : c.dispatchTasks.find? y with
    | none => rfl
    | some t =>
      have hkey := (Table.find?_eq_some_iff.1 ht).2
      simp [hkey, hy]

/-- What a slot that is granted says: the class has the turn on the frontier,
    and its last slot is the one. -/
structure Granted (jobs : List Job) (c : Capacity) (task : String) (now : ℤ) (c' : Capacity) : Prop where
  turn : ∀ t ∈ (c.demanded jobs task now).frontier jobs now,
    Rotation.NotLater (c.lastDispatched (providerTaskClass task)) (c.lastDispatched t.taskClass)
  last : c'.lastDispatched = Function.update c.lastDispatched (providerTaskClass task) (some now)

/-- A candidate has the last slot of its class. -/
theorem Capacity.lastDispatched_of_mem_candidates {t : DispatchTaskState} (h : t ∈ c.candidates jobs now) :
    c.lastDispatched t.taskClass = t.lastDispatchedAt := by
  obtain ⟨t', ht', rfl⟩ := List.mem_map.1 h
  have hfind := Table.find?_eq_some_iff.2 ⟨(List.mem_filter.1 ht').1, rfl⟩
  exact congrArg (·.bind DispatchTaskState.lastDispatchedAt) hfind

theorem reserveProviderDispatchLocked_turn {granted : Bool}
    (h : reserveProviderDispatchLocked jobs task now c = .ok ((granted, next), c')) :
    (granted = false ∧ c'.lastDispatched = c.lastDispatched) ∨ (granted = true ∧ Granted jobs c task now c') := by
  have hdemand : (c.demanded jobs task now).lastDispatched = c.lastDispatched :=
    registerProviderDemand_lastDispatched _ _ _ _ _
  have hrefresh := (c.demanded jobs task now).refreshPressures_lastDispatched jobs now
  by_cases hdue : now < (c.dispatchRow now).eligibleAt now
  · have heq : reserveProviderDispatchLocked jobs task now c =
        .ok ((false, (c.dispatchRow now).eligibleAt now), c.demanded jobs task now) := if_pos hdue
    rw [heq] at h
    cases h
    exact .inl ⟨rfl, hdemand⟩
  · obtain ⟨selected, hselected⟩ := Capacity.exists_selectedProviderTask (c.frontier_demanded_ne_nil jobs task now)
    obtain ⟨t, ht, rfl, hturn⟩ := Capacity.selectedProviderTask_spec hselected
    rw [reserveProviderDispatchLocked_eligible hdue hselected] at h
    split at h
    · cases h
      exact .inl ⟨rfl, hrefresh.trans hdemand⟩
    · next heq =>
      rw [not_not] at heq
      split at h
      · cases h
      · cases h
        refine .inr ⟨rfl, fun t' ht' => ?_, ?_⟩
        · have hlater := DispatchTaskState.notLater_of_turnBefore (hturn t' ht')
          rw [← heq, ← hdemand, Capacity.lastDispatched_of_mem_candidates (Capacity.mem_frontier.1 ht).1,
            Capacity.lastDispatched_of_mem_candidates (Capacity.mem_frontier.1 ht').1]
          exact hlater
        · rw [Capacity.grantDispatch_lastDispatched (c.isSome_find?_demanded jobs task now), hrefresh, hdemand]

/-! ## Runs -/

/-- A step: a call, or a change of the job table. -/
inductive DispatchAction where
  | call (c : Call)
  | jobs (table : Table Job.jobId)

/-- What a slot was granted on. -/
structure Grant where
  jobs : List Job
  capacity : Capacity
  task : String
  now : ℤ

/-- The class that was granted the slot. -/
def Grant.taskClass (g : Grant) : ProviderTaskClass := providerTaskClass g.task

/-- A class has live demand that none dominates. -/
def Grant.Contends (g : Grant) (x : ProviderTaskClass) : Prop :=
  ∃ t ∈ (g.capacity.demanded g.jobs g.task g.now).frontier g.jobs g.now, t.taskClass = x

/-- The task that a call asks a slot for. -/
def Call.slotTask : Call → Option String
  | .capacity (.reserveDispatch task _) => some task
  | .capacity (.reserve r) => r.paced
  | _ => none

section
variable (P : Platform)

def dispatchStep (db : Db) : DispatchAction → Db
  | .call c => (exec P db c).2
  | .jobs table => { db with jobs := table }

/-- The slot that a step grants. -/
def grantOf (db : Db) : DispatchAction → Option Grant
  | .call c => (grantedAt P db c).bind fun now =>
      c.slotTask.map fun task => ⟨db.jobs.rows, db.capacity, task, now⟩
  | .jobs _ => none

/-- The slots that a run grants, in order. -/
def grants : Db → List DispatchAction → List Grant
  | _, [] => []
  | db, a :: actions => (grantOf P db a).toList ++ grants (dispatchStep P db a) actions

def dispatchRun (db : Db) (actions : List DispatchAction) : Db := actions.foldl (dispatchStep P) db

variable {P}

theorem OutcomeReport.deferIndependent_dispatchTasks (r : OutcomeReport) (outcome : ProviderOutcome) (c : Capacity) :
    (r.deferIndependent outcome c).dispatchTasks = c.dispatchTasks := by
  unfold deferIndependent
  split <;> rfl

theorem recordProviderDispatchOutcome_dispatchTasks (outcome : String) (retryAfterSeconds : Option ℤ)
    (now : ℤ) (c : Capacity) :
    (recordProviderDispatchOutcome outcome retryAfterSeconds now c).2.dispatchTasks = c.dispatchTasks := by
  unfold recordProviderDispatchOutcome
  split
  · rfl
  · split
    · rfl
    · split <;> rfl

theorem recordAccountRequestOutcome_dispatchTasks (r : OutcomeReport) (c : Capacity) :
    (recordAccountRequestOutcome r c).2.dispatchTasks = c.dispatchTasks := by
  unfold recordAccountRequestOutcome
  split
  · rfl
  · split
    · rfl
    · split
      · rfl
      · dsimp only
        split
        · exact OutcomeReport.deferIndependent_dispatchTasks _ _ _
        · rw [recordProviderDispatchOutcome_dispatchTasks, OutcomeReport.deferIndependent_dispatchTasks]

/-- What a step does to the last slots: nothing, unless it grants one. -/
def Turns (db : Db) (granted : Option Grant) (db' : Db) : Prop :=
  match granted with
  | none => db'.capacity.lastDispatched = db.capacity.lastDispatched
  | some g => Granted g.jobs db.capacity g.task g.now db'.capacity ∧ g.capacity = db.capacity

theorem reserveProviderDispatch_turns (db : Db) (task : String) (now : ℤ) :
    Turns db (grantOf P db (.call (.capacity (.reserveDispatch task now))))
      (exec P db (.capacity (.reserveDispatch task now))).2 := by
  cases hres : reserveProviderDispatchLocked db.jobs.rows task now db.capacity with
  | error e => simp [Turns, grantOf, grantedAt, exec, CapacityCall.exec, reserveProviderDispatch, hres]
  | ok x =>
    obtain ⟨⟨granted, next⟩, c'⟩ := x
    obtain ⟨rfl, hlast⟩ | ⟨rfl, hgranted⟩ := reserveProviderDispatchLocked_turn hres
    · simpa [Turns, grantOf, grantedAt, exec, CapacityCall.exec, reserveProviderDispatch, hres] using hlast
    · simpa [Turns, grantOf, grantedAt, exec, CapacityCall.exec, reserveProviderDispatch, hres, Call.slotTask] using hgranted

/-- A request that is not granted leaves the capacity tables, or its slot was
    deferred. -/
theorem reserveAccountRequest_slot (r : ReserveRequest) (jobs : List Job) (c : Capacity) :
    ((reserveAccountRequest P r jobs c).1 ≠ .ok .granted ∧ ((reserveAccountRequest P r jobs c).2 = c ∨
        ∃ next, r.slot jobs c = .ok ((false, next), (reserveAccountRequest P r jobs c).2))) ∨
      ∃ workload next d, r.slot jobs c = .ok ((true, next), d) ∧
        reserveAccountRequest P r jobs c = (.ok .granted, r.count P workload d) := by
  obtain ⟨hne, -⟩ | ⟨workload, next, d, -, hslot, h⟩ := reserveAccountRequest_cases P r jobs c
  · refine .inl ⟨hne, ?_⟩
    unfold reserveAccountRequest at hne ⊢
    split
    · exact .inl rfl
    · split
      · exact .inl rfl
      · split
        · exact .inl rfl
        · split
          · exact .inl rfl
          · next hslot => exact .inr ⟨_, hslot⟩
          · next hslot =>
            split
            · exact .inl rfl
            · next hpositive _ _ hworkload _ hrefusal _ _ _ hfresh =>
              simp [hpositive, hworkload, hrefusal, hslot, hfresh] at hne
  · exact .inr ⟨workload, next, d, hslot, h⟩

theorem reserveAccountRequest_turns (db : Db) (r : ReserveRequest) :
    Turns db (grantOf P db (.call (.capacity (.reserve r)))) (exec P db (.capacity (.reserve r))).2 := by
  obtain ⟨hne, hslot⟩ | ⟨workload, next, d, hslot, h⟩ :=
    reserveAccountRequest_slot (P := P) r db.jobs.rows db.capacity
  · have hnone : grantOf P db (.call (.capacity (.reserve r))) = none := by simp [grantOf, grantedAt, hne]
    rw [hnone]
    show (reserveAccountRequest P r db.jobs.rows db.capacity).2.lastDispatched = _
    obtain hsame | ⟨next, hslot⟩ := hslot
    · rw [hsame]
    · unfold ReserveRequest.slot at hslot
      split at hslot
      · obtain ⟨-, hlast⟩ | ⟨hgranted, -⟩ := reserveProviderDispatchLocked_turn hslot
        · exact hlast
        · cases hgranted
      · cases hslot
  · have hlast : (exec P db (.capacity (.reserve r))).2.capacity.lastDispatched = d.lastDispatched := by
      simp only [exec, CapacityCall.exec, replyWith_snd, h]
      rfl
    unfold ReserveRequest.slot at hslot
    split at hslot
    · next task htask =>
      obtain ⟨hgranted, -⟩ | ⟨-, hgranted⟩ := reserveProviderDispatchLocked_turn hslot
      · cases hgranted
      · have hgrant : grantOf P db (.call (.capacity (.reserve r))) = some ⟨db.jobs.rows, db.capacity, task, r.now⟩ := by
          simp [grantOf, grantedAt, h, htask, Call.slotTask]
        rw [hgrant]
        exact ⟨⟨hgranted.turn, hlast.trans hgranted.last⟩, rfl⟩
    · next htask =>
      have hnone : grantOf P db (.call (.capacity (.reserve r))) = none := by simp [grantOf, grantedAt, htask]
      rw [hnone]
      cases hslot
      exact hlast

/-- A step without a slot leaves the last slots. -/
theorem turns_of_eq {db db' : Db} (h : db'.capacity.dispatchTasks = db.capacity.dispatchTasks) : Turns db none db' := by
  show db'.capacity.lastDispatched = db.capacity.lastDispatched
  funext x
  rw [Capacity.lastDispatched, h, Capacity.lastDispatched]

theorem capacityCall_turns (db : Db) (call : CapacityCall) :
    Turns db (grantOf P db (.call (.capacity call))) (exec P db (.capacity call)).2 := by
  cases call with
  | reserve r => exact reserveAccountRequest_turns db r
  | reserveDispatch task now => exact reserveProviderDispatch_turns db task now
  | registerDemand task now pressure =>
    exact registerProviderDemand_lastDispatched db.jobs.rows (providerTaskClass task) now pressure db.capacity
  | markAttempted =>
    apply turns_of_eq
    simp only [exec, CapacityCall.exec, markAccountRequestAttempted]
    split <;> rfl
  | recordOutcome r => exact turns_of_eq (recordAccountRequestOutcome_dispatchTasks r db.capacity)
  | recordVectors =>
    apply turns_of_eq
    simp only [exec, CapacityCall.exec, recordAccountVectorsCommitted]
    split
    · rfl
    · split <;> rfl
  | recordDispatch outcome retryAfterSeconds now =>
    exact turns_of_eq (recordProviderDispatchOutcome_dispatchTasks outcome retryAfterSeconds now db.capacity)
  | recordDeferral | prune => exact turns_of_eq rfl

theorem dispatchStep_turns (db : Db) (a : DispatchAction) : Turns db (grantOf P db a) (dispatchStep P db a) := by
  cases a with
  | jobs table => exact turns_of_eq rfl
  | call c =>
    cases c with
    | capacity call => exact capacityCall_turns db call
    | job call => exact turns_of_eq (congrArg Capacity.dispatchTasks (call.exec_frame P db).2)
    | record call =>
      cases call with
      | append row =>
        apply turns_of_eq
        simp only [dispatchStep, exec, RecordCall.exec]
        split <;> rfl
      | startForward | displaceHooks | installHooks => exact turns_of_eq rfl

/-! ## Spacing -/

/-- Every slot was granted before the provider's next one is due. -/
structure Spaced (db : Db) : Prop where
  paced : db.capacity.Paced
  before : ∀ x u, db.capacity.lastDispatched x = some u → ∃ d, db.governor = some d ∧ u < d.nextEligibleAt

theorem dispatchStep_governs (db : Db) (a : DispatchAction) :
    db.capacity.Governs (dispatchStep P db a).capacity := by
  cases a with
  | call c => exact exec_governs P c db
  | jobs table => exact .refl _

theorem Spaced.le_intervalMs {db : Db} (h : Spaced db) : 120 ≤ db.intervalMs := by
  unfold Db.intervalMs
  cases hd : db.governor with
  | none => exact Nat.le_of_ble_eq_true rfl
  | some d => exact (DispatchState.check_iff.1 (Capacity.paced_governor h.paced hd)).1

/-- A slot was granted at the instant that `grantedAt` says. -/
theorem grantedAt_of_grantOf {db : Db} {a : DispatchAction} {g : Grant} (h : grantOf P db a = some g) :
    ∃ c, a = .call c ∧ grantedAt P db c = some g.now := by
  cases a with
  | jobs table => cases h
  | call c =>
    obtain ⟨now, hnow, h⟩ := Option.bind_eq_some_iff.1 h
    obtain ⟨task, -, rfl⟩ := Option.map_eq_some_iff.1 h
    exact ⟨c, rfl, hnow⟩

theorem Spaced.step {db : Db} (h : Spaced db) (a : DispatchAction) : Spaced (dispatchStep P db a) := by
  obtain ⟨hpaced, hadvances⟩ := dispatchStep_governs (P := P) db a h.paced
  refine ⟨hpaced, fun x u hu => ?_⟩
  have hturns := dispatchStep_turns (P := P) db a
  -- the slots before the step
  have hold : db.capacity.lastDispatched x = some u →
      ∃ d, (dispatchStep P db a).governor = some d ∧ u < d.nextEligibleAt := by
    intro hu
    obtain ⟨d, hd, hlt⟩ := h.before x u hu
    obtain ⟨d', hd', hle⟩ := hadvances _ d hd
    exact ⟨d', hd', hlt.trans_le hle⟩
  cases hgrant : grantOf P db a with
  | none =>
    rw [hgrant] at hturns
    exact hold (hturns ▸ hu)
  | some g =>
    rw [hgrant] at hturns
    obtain ⟨hgranted, -⟩ := hturns
    rw [hgranted.last] at hu
    by_cases hx : x = providerTaskClass g.task
    · subst hx
      rw [Function.update_self] at hu
      obtain rfl := Option.some.inj hu
      obtain ⟨c, rfl, hnow⟩ := grantedAt_of_grantOf hgrant
      obtain ⟨-, d, hd, hnext⟩ := grantedAt_spec P hnow
      refine ⟨d, hd, ?_⟩
      have hinterval := h.le_intervalMs
      rw [hnext, intervalOf]
      omega
    · rw [Function.update_of_ne hx] at hu
      exact hold hu

theorem Spaced.run {db : Db} (h : Spaced db) (actions : List DispatchAction) : Spaced (dispatchRun P db actions) := by
  induction actions generalizing db with
  | nil => exact h
  | cons a actions ih => exact ih (h.step a)

theorem spaced_empty : Spaced Db.empty :=
  ⟨fun d hd => absurd hd (Table.not_mem_empty d), fun _ _ hu => nomatch hu⟩

/-! ## Fairness -/

/-- What follows some slots of a run is granted from a state of it. -/
theorem grants_drop {db : Db} (hdb : Spaced db) {actions : List DispatchAction} {pre post : List Grant}
    (h : grants P db actions = pre ++ post) : ∃ db' actions', Spaced db' ∧ grants P db' actions' = post := by
  induction actions generalizing db pre with
  | nil =>
    obtain ⟨-, rfl⟩ := List.append_eq_nil_iff.1 h.symm
    exact ⟨db, [], hdb, rfl⟩
  | cons a actions ih =>
    cases hgrant : grantOf P db a with
    | none =>
      rw [grants, hgrant] at h
      exact ih (hdb.step a) h
    | some g =>
      cases pre with
      | nil => exact ⟨db, a :: actions, hdb, h⟩
      | cons g' pre =>
        rw [grants, hgrant] at h
        exact ih (hdb.step a) (List.cons.inj h).2

/-- While a class contends, whoever is granted a slot has waited as long. -/
theorem waits_of_grants {db : Db} (hdb : Spaced db) {actions : List DispatchAction} {x : ProviderTaskClass}
    {w post : List Grant} (h : grants P db actions = w ++ post) (hx : ∀ g ∈ w, g.Contends x) :
    Rotation.Waits x db.capacity.lastDispatched (w.map fun g => (g.taskClass, g.now)) := by
  induction actions generalizing db w with
  | nil =>
    obtain ⟨rfl, -⟩ := List.append_eq_nil_iff.1 h.symm
    exact trivial
  | cons a actions ih =>
    have hturns := dispatchStep_turns (P := P) db a
    rw [grants] at h
    cases hgrant : grantOf P db a with
    | none =>
      rw [hgrant] at h hturns
      have hwaits := ih (hdb.step a) h hx
      rwa [show (dispatchStep P db a).capacity.lastDispatched = db.capacity.lastDispatched from hturns] at hwaits
    | some g =>
      rw [hgrant] at h hturns
      obtain ⟨⟨hturn, hlast⟩, hcapacity⟩ := hturns
      cases w with
      | nil => exact trivial
      | cons g' w =>
        obtain ⟨rfl, hrest⟩ := List.cons.inj h
        obtain ⟨t, ht, rfl⟩ := hx g List.mem_cons_self
        refine ⟨fun k u hu => ?_, hturn t (hcapacity ▸ ht), ?_⟩
        · obtain ⟨d, hd, hlt⟩ := hdb.before k u hu
          obtain ⟨c, -, hnow⟩ := grantedAt_of_grantOf hgrant
          exact hlt.trans_le ((grantedAt_spec P hnow).1 d hd)
        · have hwaits := ih (hdb.step a) hrest fun g' hg' => hx g' (List.mem_cons_of_mem _ hg')
          rwa [hlast] at hwaits

end

/-- What a run says of the slots of the provider. -/
structure Fair (P : Platform) (actions : List DispatchAction) : Prop where
  /-- past the pacing check some class is on the frontier, and only the one that
      is selected from it is granted the slot -/
  selects : ∀ task now,
    ¬ now < ((dispatchRun P Db.empty actions).capacity.dispatchRow now).eligibleAt now →
      Selects (dispatchRun P Db.empty actions).capacity (dispatchRun P Db.empty actions).jobs.rows task now
  /-- of five slots in a row, a class that contends for each gets one -/
  served : ∀ pre w post x, grants P Db.empty actions = pre ++ (w ++ post) → w.length = 5 →
    (∀ g ∈ w, g.Contends x) → ∃ g ∈ w, g.taskClass = x

/-- **Fairness of the governor**, over every run of calls and changes of the
    job table. -/
theorem dispatch_fair (P : Platform) (actions : List DispatchAction) : Fair P actions := by
  refine ⟨fun task now hdue => ?_, fun pre w post x h hlength hx => ?_⟩
  · exact selects (spaced_empty.run actions).paced hdue
  · obtain ⟨db, actions', hdb, h⟩ := grants_drop spaced_empty h
    have hall : ∀ k, k ∈ [ ProviderTaskClass.annotation, .impact, .titleRepair, .embedding, .dailyBrief] := by
      intro k
      cases k <;> simp
    have hserved := Rotation.served_of_waits hall (waits_of_grants hdb h hx)
      (by rw [List.length_map, hlength]; rfl)
    rw [List.map_map] at hserved
    obtain ⟨g, hg, rfl⟩ := List.mem_map.1 hserved
    exact ⟨g, hg, rfl⟩

/-- Two classes that keep asking take turns. -/
example : (grants Platform.winter Db.empty ([("impact", 0), ("annotation", 0), ("annotation", 1000000),
      ("impact", 1000000), ("impact", 2000000)].map fun e => .call (.capacity (.reserveDispatch e.1 e.2)))).map
    (fun g => (g.taskClass, g.now)) =
      [(.impact, 0), ( ProviderTaskClass.annotation, 1000000), (.impact, 2000000)] := by
  decide +kernel

end Xauusd.Scheduler
