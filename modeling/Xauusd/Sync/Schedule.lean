/-
  The turns of the heavy lane (`_record_resource_schedule` of `resources.py`;
  `_due_resource_policies`, `sync_resource_lane`, `_submit_resource_lane` and
  `run_continuous_sync` of `run_dashboard_sync.py`).

  The schedule of one target says when each resource is due.  A turn of the
  heavy lane runs the heavy resource that is due first, and records when it is
  due again; while a deferred projection is pending, every second turn is the
  projection's.  The control lane records its own resources meanwhile.
  Instants are microseconds since 1970.

  * `ScheduleState`: the file, as its readers see it;
  * `recordResourceSchedule`: when a resource is due after a run;
  * `dueResourcePolicies`, `submitHeavyLane`: one turn;
  * `record_dueAt`: a resource that ran is due later, unless work is pending;
  * `heavy_served`: **a due resource gets its turn within five regular turns**;
  * `projection_serves`: the deferred projection may take the turn's place.
-/
import Xauusd.Lib.IsoTime
import Xauusd.Lib.Rotation
import Xauusd.Lib.Stable

namespace Xauusd.Sync

open IsoTime (second)

/-! ## The schedule -/

inductive Resource where
  | operatorRetries
  | newsQuestions
  | audit
  | marketChart
  | marketHistory
  | news
  | newsEvidence
  deriving DecidableEq

structure Policy where
  resource : Resource
  cadenceSeconds : ℕ
  heavy : Bool
  positive : 0 < cadenceSeconds
  deriving DecidableEq

def resourcePolicies : List Policy :=
  [⟨.operatorRetries, 30, false, by decide⟩, ⟨.newsQuestions, 300, false, by decide⟩,
    ⟨.audit, 300, true, by decide⟩, ⟨.marketChart, 60, true, by decide⟩, ⟨.marketHistory, 120, true, by decide⟩,
    ⟨.news, 60, true, by decide⟩, ⟨.newsEvidence, 300, true, by decide⟩]

/-- What the schedule says of a resource: `next_run_at` if it is a time, and what
    `int(consecutive_failures or 0)` is, none if it raises. -/
structure ResourceState where
  lastAttemptAt : Option ℤ
  lastSuccessAt : Option ℤ
  consecutiveFailures : Option ℤ
  nextRunAt : Option ℤ

/-- `{}` -/
def ResourceState.empty : ResourceState := ⟨none, none, some 0, none⟩

/-- `state["resources"]`: it may be missing or no object, and so may each entry. -/
inductive Resources where
  | missing
  | malformed
  | object (entries : Resource → Option ResourceState)

structure ScheduleState where
  resources : Resources
  updatedAt : Option ℤ

def scheduleEpoch (value : Option ℤ) : ℤ := value.getD 0

/-- When `_due_resource_policies` takes a resource to be due. -/
def ScheduleState.dueAt (s : ScheduleState) (resource : Resource) : ℤ :=
  match s.resources with
  | .object entries => scheduleEpoch ((entries resource).getD .empty).nextRunAt
  | _ => 0

inductive Outcome where
  | success (pending : Bool)
  | failure
  deriving DecidableEq

/-- `while next_run_epoch <= now.timestamp(): next_run_epoch += cadence_seconds` -/
def catchUp (cadence now : ℤ) : ℕ → ℤ → ℤ
  | 0, next => next
  | n + 1, next => if next ≤ now then catchUp cadence now n (next + cadence) else next

/-- The next due time in phase with the last. -/
def inPhase (cadence now previousDue : ℤ) : ℤ :=
  let next := if 0 < previousDue then previousDue + cadence else now + cadence
  catchUp cadence now ((now - next) / cadence + 1).toNat next

/-- The least integer that no float is near to. -/
def floatBound : ℤ := 2 ^ 1024 - 2 ^ 970

/-- The seconds after which a failed resource is due, none if `2 ** …` raises. -/
def retryDelay (cadenceSeconds : ℕ) (failures : ℤ) : Option ℚ :=
  let exponent := min (failures - 1) 7
  if exponent ≤ -floatBound then none else some (min 3600 (max cadenceSeconds (30 * 2 ^ exponent)))

/-- What a run leaves of the state of its resource, none if it raises. -/
def scheduled (current : ResourceState) (cadenceSeconds : ℕ) (now : ℤ) : Outcome → Option ResourceState
  | .success true => some ⟨some now, some now, some 0, some now⟩
  | .success false =>
    some ⟨some now, some now, some 0, some (inPhase (cadenceSeconds * second) now (scheduleEpoch current.nextRunAt))⟩
  | .failure => do
    let failures := (← current.consecutiveFailures) + 1
    let delay ← retryDelay cadenceSeconds failures
    some ⟨some now, current.lastSuccessAt, some failures, some (now + ⌊delay * second⌋)⟩

/-- `state.setdefault("resources", {})`, none if its `get` raises. -/
def ScheduleState.entries (s : ScheduleState) : Option (Resource → Option ResourceState) :=
  match s.resources with
  | .missing => some fun _ => none
  | .object entries => some entries
  | .malformed => none

/-- `_record_resource_schedule`, none if it raises. -/
def recordResourceSchedule (s : ScheduleState) (resource : Resource) (cadenceSeconds : ℕ) (now : ℤ) (outcome : Outcome) :
    Option ScheduleState := do
  let resources ← s.entries
  let entry ← scheduled ((resources resource).getD .empty) cadenceSeconds now outcome
  return { resources := .object (Function.update resources resource (some entry)), updatedAt := some now }

/-! ## The turns -/

inductive Lane where
  | control
  | heavy

def dueResourcePolicies (s : ScheduleState) (now : ℤ) (lane : Option Lane) (excluded : List Resource) : List Policy :=
  let due := resourcePolicies.zipIdx.filter fun p => p.1.resource ∉ excluded ∧ s.dueAt p.1.resource ≤ now
  let controls := (due.filter fun p => !p.1.heavy).map (·.1)
  -- HEAVY_RESOURCES_PER_CYCLE is 1
  let heavy := ((Stable.sortBy (fun p => toLex (s.dueAt p.1.resource, p.2)) (due.filter fun p => p.1.heavy)).take 1).map (·.1)
  match lane with
  | some .control => controls
  | some .heavy => heavy
  | none => controls ++ heavy

def controls : List Policy := resourcePolicies.filter fun p => !p.heavy

def heavyResources : List Resource := (resourcePolicies.filter fun p => p.heavy).map (·.resource)

/-- A result that the control lane records. -/
structure ControlResult where
  policy : Policy
  known : policy ∈ controls
  outcome : Outcome
  now : ℤ

/-- What is recorded during a turn of the deferred projection. -/
inductive Recording where
  | control (result : ControlResult)
  | audit (now : ℤ)
  | newsEvidence (now : ℤ)

inductive Route where
  | auditBriefs
  | auditStories
  | newsEvidence
  deriving DecidableEq

/-- What a turn of the heavy lane meets. -/
structure HeavyTurn where
  /-- recorded by the control lane since the last turn -/
  before : List ControlResult
  /-- `_deferred_projection_pending`, or it raises -/
  deferredPending : Bool
  /-- the routes of the request that is read in the turn, none if it is unreadable -/
  routes : Option (List Route)
  now : ℤ
  /-- recorded by the control lane while the resource runs -/
  during : List ControlResult
  outcome : Outcome
  completed : ℤ
  /-- recorded while the deferred projection runs, if it does -/
  projection : List Recording

def excludedBy (routes : List Route) : List Resource :=
  (if .newsEvidence ∈ routes then [.newsEvidence] else []) ++
    (if .auditBriefs ∈ routes ∨ .auditStories ∈ routes then [.audit] else [])

/-- What a turn leaves: the schedule, and the heavy resources that it ran, or
    that the deferred projection recorded. -/
structure TurnResult where
  schedule : ScheduleState
  ran : Option Resource
  projected : List Resource

def TurnResult.served (result : TurnResult) : List Resource := result.ran.toList ++ result.projected

/-- `_persist_resource_schedule_result` of a lane, which records a failure if
    recording a success raises. -/
def persist (s : ScheduleState) (policy : Policy) (outcome : Outcome) (now : ℤ) : ScheduleState :=
  match recordResourceSchedule s policy.resource policy.cadenceSeconds now outcome with
  | some s => s
  | none => (recordResourceSchedule s policy.resource policy.cadenceSeconds now .failure).getD s

def control (s : ScheduleState) (result : ControlResult) : ScheduleState :=
  persist s result.policy result.outcome result.now

/-- `sync_resource_lane` of the heavy lane, for one target. -/
def syncHeavyLane (s : ScheduleState) (t : HeavyTurn) (excluded : List Resource) : TurnResult :=
  match dueResourcePolicies s t.now (some .heavy) excluded with
  | [] => ⟨s, none, []⟩
  | policy :: _ => ⟨persist (t.during.foldl control s) policy t.outcome t.completed, some policy.resource, []⟩

def recording (s : ScheduleState) : Recording → ScheduleState
  | .control result => control s result
  | .audit now => (recordResourceSchedule s .audit 300 now (.success false)).getD s
  | .newsEvidence now => (recordResourceSchedule s .newsEvidence 300 now (.success false)).getD s

/-- What `sync_deferred_projection_once` records. -/
def syncDeferredProjectionOnce (s : ScheduleState) (recordings : List Recording) : TurnResult :=
  ⟨recordings.foldl recording s, none, recordings.filterMap fun
    | .control _ => none
    | .audit _ => some .audit
    | .newsEvidence _ => some .newsEvidence⟩

/-- `_submit_resource_lane` of the heavy lane. -/
def submitHeavyLane (heavyTurn : ℕ) (s : ScheduleState) (t : HeavyTurn) : TurnResult :=
  let preferRegular := heavyTurn % 2 = 1
  if t.deferredPending then
    if preferRegular then
      match t.routes with
      | none => ⟨s, none, []⟩
      | some routes =>
        let regular := syncHeavyLane s t (excludedBy routes)
        if regular.ran.isSome then regular else syncDeferredProjectionOnce regular.schedule t.projection
    else syncDeferredProjectionOnce s t.projection
  else syncHeavyLane s t []

/-- The schedule and the counter of `run_continuous_sync`. -/
structure World where
  schedule : ScheduleState
  heavyTurn : ℕ

def World.turn (w : World) (t : HeavyTurn) : TurnResult :=
  submitHeavyLane w.heavyTurn (t.before.foldl control w.schedule) t

def World.step (w : World) (t : HeavyTurn) : World := ⟨(w.turn t).schedule, w.heavyTurn + 1⟩

/-- The resources that a turn leaves out of the lane, none if it does not reach it. -/
def HeavyTurn.regular (t : HeavyTurn) (heavyTurn : ℕ) : Option (List Resource) :=
  if t.deferredPending then if heavyTurn % 2 = 1 then t.routes.map excludedBy else none else some []

def World.run (w : World) (turns : List HeavyTurn) : World := turns.foldl World.step w

/-! ## When a resource is due after a run -/

theorem second_pos : 0 < second := by decide

variable {cadence now next : ℤ} {c : ℕ} {current e : ResourceState} {o : Outcome}

theorem lt_catchUp (n : ℕ) (h : now < next + n * cadence) : now < catchUp cadence now n next := by
  induction n generalizing next with
  | zero => simpa [catchUp] using h
  | succ n ih =>
    rw [catchUp]
    split
    · refine ih ?_
      push_cast at h
      linarith
    · omega

theorem lt_inPhase (hc : 0 < cadence) (previousDue : ℤ) : now < inPhase cadence now previousDue := by
  rw [inPhase]
  refine lt_catchUp _ ?_
  generalize (if 0 < previousDue then previousDue + cadence else now + cadence) = next
  have hlt := Int.lt_ediv_add_one_mul_self (now - next) hc
  have hle := mul_le_mul_of_nonneg_right (Int.self_le_toNat ((now - next) / cadence + 1)) hc.le
  linarith

theorem one_le_retryDelay (hc : 0 < c) {failures : ℤ} {delay : ℚ} (h : retryDelay c failures = some delay) : 1 ≤ delay := by
  have hc' : (1 : ℚ) ≤ c := by exact_mod_cast hc
  rw [retryDelay] at h
  split at h
  · cases h
  · cases h
    exact le_min (by norm_num) (hc'.trans (le_max_left _ _))

/-- The next run is no earlier than the last, and later unless work is pending. -/
theorem scheduled_due (hc : 0 < c) (h : scheduled current c now o = some e) :
    ∃ due, e.nextRunAt = some due ∧ now ≤ due ∧ (o ≠ .success true → now < due) := by
  cases o with
  | success pending =>
    cases pending with
    | true =>
      cases h
      exact ⟨now, rfl, le_rfl, fun hne => absurd rfl hne⟩
    | false =>
      cases h
      have hlt : now < inPhase (c * second) now (scheduleEpoch current.nextRunAt) :=
        lt_inPhase (mul_pos (Int.natCast_pos.2 hc) second_pos) _
      exact ⟨_, rfl, hlt.le, fun _ => hlt⟩
  | failure =>
    obtain ⟨n, hn, h⟩ := Option.bind_eq_some_iff.1 h
    obtain ⟨delay, hdelay, h⟩ := Option.bind_eq_some_iff.1 h
    cases h
    have hone := one_le_retryDelay hc hdelay
    have hfloor : 1 ≤ ⌊delay * second⌋ := by
      refine Int.le_floor.2 ?_
      have hsecond : (1 : ℚ) ≤ (second : ℤ) := by norm_num [second]
      push_cast
      nlinarith
    exact ⟨_, rfl, by omega, fun _ => by omega⟩

/-- The failures can be read and counted on. -/
def ResourceState.Readable (e : ResourceState) : Prop := ∃ n, e.consecutiveFailures = some n ∧ -floatBound < n

theorem floatBound_pos : 0 < floatBound := sub_pos.2 (pow_lt_pow_right₀ (by norm_num) (by norm_num))

theorem scheduled_readable (h : current.Readable) (c : ℕ) (now : ℤ) (o : Outcome) :
    ∃ e, scheduled current c now o = some e ∧ e.Readable := by
  cases o with
  | success pending => cases pending <;> exact ⟨_, rfl, 0, rfl, neg_lt_zero.2 floatBound_pos⟩
  | failure =>
    obtain ⟨n, hn, hlt⟩ := h
    obtain ⟨delay, hdelay⟩ : ∃ delay, retryDelay c (n + 1) = some delay := by
      have hpos := floatBound_pos
      have hle : ¬ min (n + 1 - 1) 7 ≤ -floatBound := by
        rw [add_sub_cancel_right, min_le_iff, not_or]
        exact ⟨not_le.2 hlt, by omega⟩
      rw [retryDelay, if_neg hle]
      exact ⟨_, rfl⟩
    refine ⟨⟨some now, current.lastSuccessAt, some (n + 1), some (now + ⌊delay * second⌋)⟩, ?_, n + 1, rfl, by omega⟩
    simp [scheduled, hn, hdelay]

/-- `resources` is an object or missing, and the failures of its entries can be read. -/
def ScheduleState.Sound (s : ScheduleState) : Prop :=
  s.resources ≠ .malformed ∧ ∀ entries, s.resources = .object entries → ∀ r e, entries r = some e → e.Readable

theorem empty_readable : ResourceState.empty.Readable := ⟨0, rfl, neg_lt_zero.2 floatBound_pos⟩

theorem entries_of_sound {s : ScheduleState} (hs : s.Sound) : ∃ entries, s.entries = some entries ∧
    (∀ r e, entries r = some e → e.Readable) ∧ ∀ q, s.dueAt q = scheduleEpoch ((entries q).getD .empty).nextRunAt := by
  rw [ScheduleState.entries]
  cases hr : s.resources with
  | missing =>
    refine ⟨_, rfl, fun r e he => ?_, fun q => ?_⟩
    · cases he
    · rw [ScheduleState.dueAt, hr]
      rfl
  | malformed => exact absurd hr hs.1
  | object entries =>
    refine ⟨entries, rfl, hs.2 entries hr, fun q => ?_⟩
    rw [ScheduleState.dueAt, hr]

/-- **What recording a run changes.** -/
theorem record_spec {s : ScheduleState} (hs : s.Sound) (r : Resource) (hc : 0 < c) (now : ℤ) (o : Outcome) :
    ∃ s', recordResourceSchedule s r c now o = some s' ∧ s'.Sound ∧ now ≤ s'.dueAt r ∧
      (o ≠ .success true → now < s'.dueAt r) ∧ ∀ q ≠ r, s'.dueAt q = s.dueAt q := by
  obtain ⟨entries, hentries, hreadable, hdue⟩ := entries_of_sound hs
  have hcurrent : ((entries r).getD .empty).Readable := by
    cases he : entries r with
    | none => exact empty_readable
    | some e => exact hreadable r e he
  obtain ⟨e, he, hread⟩ := scheduled_readable hcurrent c now o
  obtain ⟨due, hnext, hle, hlt⟩ := scheduled_due hc he
  refine ⟨{ resources := .object (Function.update entries r (some e)), updatedAt := some now }, ?_, ?_, ?_, ?_, ?_⟩
  · rw [recordResourceSchedule, hentries]
    show (scheduled ((entries r).getD .empty) c now o).bind _ = _
    rw [he]
    rfl
  · refine ⟨by simp, fun entries' heq q e' he' => ?_⟩
    cases heq
    by_cases hq : q = r
    · subst hq
      rw [Function.update_self] at he'
      cases he'
      exact hread
    · rw [Function.update_of_ne hq] at he'
      exact hreadable q e' he'
  · simpa [ScheduleState.dueAt, hnext, scheduleEpoch] using hle
  · simpa [ScheduleState.dueAt, hnext, scheduleEpoch] using hlt
  · intro q hq
    rw [hdue q]
    simp [ScheduleState.dueAt, Function.update_of_ne hq]

theorem persist_spec {s : ScheduleState} (hs : s.Sound) (p : Policy) (now : ℤ) (o : Outcome) :
    (persist s p o now).Sound ∧ now ≤ (persist s p o now).dueAt p.resource ∧
      (o ≠ .success true → now < (persist s p o now).dueAt p.resource) ∧
      ∀ q ≠ p.resource, (persist s p o now).dueAt q = s.dueAt q := by
  obtain ⟨s', h, hspec⟩ := record_spec hs p.resource p.positive now o
  rw [persist, h]
  exact hspec

/-! ## What a turn keeps -/

/-- The due time of one resource, and every due time past an instant. -/
structure Kept (d : ℤ) (r : Resource) (s s' : ScheduleState) : Prop where
  sound : s'.Sound
  due : s'.dueAt r = s.dueAt r
  late : ∀ q ∈ heavyResources, d < s.dueAt q → d < s'.dueAt q

variable {d : ℤ} {r : Resource} {s s' s'' : ScheduleState} {t : HeavyTurn}

theorem Kept.refl (hs : s.Sound) : Kept d r s s := ⟨hs, rfl, fun _ _ h => h⟩

theorem Kept.trans (h : Kept d r s s') (h' : Kept d r s' s'') : Kept d r s s'' :=
  ⟨h'.sound, h'.due.trans h.due, fun q hq hlt => h'.late q hq (h.late q hq hlt)⟩

theorem controls_light : ∀ p ∈ controls, p.resource ∉ heavyResources := by decide

theorem control_dueAt (hs : s.Sound) (result : ControlResult) :
    (control s result).Sound ∧ ∀ q ∈ heavyResources, (control s result).dueAt q = s.dueAt q := by
  obtain ⟨hsound, -, -, hframe⟩ := persist_spec hs result.policy result.now result.outcome
  refine ⟨hsound, fun q hq => hframe q ?_⟩
  rintro rfl
  exact controls_light _ result.known hq

theorem controls_dueAt (hs : s.Sound) (results : List ControlResult) :
    (results.foldl control s).Sound ∧ ∀ q ∈ heavyResources, (results.foldl control s).dueAt q = s.dueAt q := by
  induction results generalizing s with
  | nil => exact ⟨hs, fun _ _ => rfl⟩
  | cons result results ih =>
    obtain ⟨hs', hsame⟩ := control_dueAt hs result
    obtain ⟨hsound, hrest⟩ := ih hs'
    exact ⟨hsound, fun q hq => (hrest q hq).trans (hsame q hq)⟩

theorem kept_of_same (hr : r ∈ heavyResources) (hs' : s'.Sound) (h : ∀ q ∈ heavyResources, s'.dueAt q = s.dueAt q) :
    Kept d r s s' :=
  ⟨hs', h r hr, fun q hq hlt => by rwa [h q hq]⟩

/-- A run of another resource, after the instant. -/
theorem kept_of_run {q : Resource} {now : ℤ} (hs' : s'.Sound) (hd : d < now) (hq : q ≠ r) (hle : now ≤ s'.dueAt q)
    (hframe : ∀ p ≠ q, s'.dueAt p = s.dueAt p) : Kept d r s s' := by
  refine ⟨hs', hframe r hq.symm, fun p _ hlt => ?_⟩
  by_cases hp : p = q
  · subst hp
    omega
  · rwa [hframe p hp]

theorem persist_kept (hs : s.Sound) {p : Policy} {now : ℤ} (hd : d < now) (hp : p.resource ≠ r) (o : Outcome) :
    Kept d r s (persist s p o now) := by
  obtain ⟨hs', hle, -, hframe⟩ := persist_spec hs p now o
  exact kept_of_run hs' hd hp hle hframe

/-- The resource and the instant of a recording of the deferred projection. -/
def Recording.projected : Recording → Option (Resource × ℤ)
  | .control _ => none
  | .audit now => some (.audit, now)
  | .newsEvidence now => some (.newsEvidence, now)

theorem recording_kept (hr : r ∈ heavyResources) (hs : s.Sound) (x : Recording)
    (hx : ∀ p ∈ x.projected, p.1 ≠ r ∧ d < p.2) : Kept d r s (recording s x) := by
  have hrun : ∀ q now, x.projected = some (q, now) →
      recording s x = (recordResourceSchedule s q 300 now (.success false)).getD s → Kept d r s (recording s x) := by
    intro q now hp hrecording
    obtain ⟨hne, hd⟩ := hx _ hp
    obtain ⟨s', h, hs', hle, -, hframe⟩ := record_spec hs q (show 0 < 300 by decide) now (.success false)
    rw [hrecording, h]
    exact kept_of_run hs' hd hne hle hframe
  cases x with
  | control result =>
    obtain ⟨hs', hsame⟩ := control_dueAt hs result
    exact kept_of_same hr hs' hsame
  | audit now => exact hrun .audit now rfl rfl
  | newsEvidence now => exact hrun .newsEvidence now rfl rfl

theorem recordings_kept (hr : r ∈ heavyResources) (hs : s.Sound) (l : List Recording)
    (hl : ∀ x ∈ l, ∀ p ∈ x.projected, p.1 ≠ r ∧ d < p.2) : Kept d r s (l.foldl recording s) := by
  induction l generalizing s with
  | nil => exact .refl hs
  | cons x l ih =>
    have hx := recording_kept hr hs x (hl x List.mem_cons_self)
    exact hx.trans (ih hx.sound fun y hy => hl y (List.mem_cons_of_mem x hy))

/-! ## The resource that is due first -/

theorem mem_heavyResources : r ∈ heavyResources ↔ ∃ x ∈ resourcePolicies.zipIdx, x.1.heavy = true ∧ x.1.resource = r := by
  have hfst : resourcePolicies.zipIdx.map (·.1) = resourcePolicies := List.zipIdx_map_fst 0 _
  rw [heavyResources, List.mem_map]
  constructor
  · rintro ⟨p, hp, rfl⟩
    obtain ⟨hp, hheavy⟩ := List.mem_filter.1 hp
    rw [← hfst] at hp
    obtain ⟨x, hx, rfl⟩ := List.mem_map.1 hp
    exact ⟨x, hx, hheavy, rfl⟩
  · rintro ⟨x, hx, hheavy, rfl⟩
    exact ⟨x.1, List.mem_filter.2 ⟨hfst ▸ List.mem_map_of_mem hx, hheavy⟩, rfl⟩

/-- The due policies in the order in which the lane takes them. -/
def heavyQueue (s : ScheduleState) (now : ℤ) (excluded : List Resource) : List (Policy × ℕ) :=
  Stable.sortBy (fun p => toLex (s.dueAt p.1.resource, p.2))
    ((resourcePolicies.zipIdx.filter fun p => p.1.resource ∉ excluded ∧ s.dueAt p.1.resource ≤ now).filter fun p => p.1.heavy)

theorem dueResourcePolicies_heavy (s : ScheduleState) (now : ℤ) (excluded : List Resource) :
    dueResourcePolicies s now (some .heavy) excluded = ((heavyQueue s now excluded).take 1).map (·.1) := rfl

theorem mem_heavyQueue {now : ℤ} {excluded : List Resource} {x : Policy × ℕ} : x ∈ heavyQueue s now excluded ↔
    x ∈ resourcePolicies.zipIdx ∧ (x.1.resource ∉ excluded ∧ s.dueAt x.1.resource ≤ now) ∧ x.1.heavy = true := by
  rw [heavyQueue, Stable.mem_sortBy, List.mem_filter, List.mem_filter, decide_eq_true_eq, and_assoc]

theorem exists_mem_heavyQueue {now : ℤ} {excluded : List Resource} (hr : r ∈ heavyResources) (hex : r ∉ excluded)
    (hdue : s.dueAt r ≤ now) : ∃ x ∈ heavyQueue s now excluded, x.1.resource = r := by
  obtain ⟨x, hx, hheavy, rfl⟩ := mem_heavyResources.1 hr
  exact ⟨x, mem_heavyQueue.2 ⟨hx, ⟨hex, hdue⟩, hheavy⟩, rfl⟩

/-- **The heavy lane runs what is due first.** -/
theorem due_heavy {now : ℤ} {excluded : List Resource} {p : Policy} {rest : List Policy}
    (h : dueResourcePolicies s now (some .heavy) excluded = p :: rest) :
    p.resource ∈ heavyResources ∧ s.dueAt p.resource ≤ now ∧
      ∀ r ∈ heavyResources, r ∉ excluded → s.dueAt r ≤ now → s.dueAt p.resource ≤ s.dueAt r := by
  rw [dueResourcePolicies_heavy] at h
  have hsorted : (heavyQueue s now excluded).Pairwise fun a b =>
      toLex (s.dueAt a.1.resource, a.2) ≤ toLex (s.dueAt b.1.resource, b.2) := Stable.sortBy_sorted _ _
  cases hqueue : heavyQueue s now excluded with
  | nil =>
    rw [hqueue] at h
    cases h
  | cons x queue =>
    rw [hqueue, List.take_succ_cons, List.map_cons] at h
    obtain rfl := (List.cons.inj h).1
    obtain ⟨hmem, ⟨-, hdue⟩, hheavy⟩ := mem_heavyQueue.1 (hqueue ▸ List.mem_cons_self : x ∈ heavyQueue s now excluded)
    refine ⟨mem_heavyResources.2 ⟨x, hmem, hheavy, rfl⟩, hdue, fun r hr hex hle => ?_⟩
    obtain ⟨y, hy, rfl⟩ := exists_mem_heavyQueue hr hex hle
    rw [hqueue] at hy hsorted
    rcases List.mem_cons.1 hy with rfl | hy
    · exact le_rfl
    · rcases Prod.Lex.le_iff.1 (List.rel_of_pairwise_cons hsorted hy) with hlt | ⟨heq, -⟩
      · exact hlt.le
      · exact heq.le

theorem due_heavy_ne_nil {now : ℤ} {excluded : List Resource} (hr : r ∈ heavyResources) (hex : r ∉ excluded)
    (hdue : s.dueAt r ≤ now) : dueResourcePolicies s now (some .heavy) excluded ≠ [] := by
  obtain ⟨x, hx, -⟩ := exists_mem_heavyQueue hr hex hdue
  rw [dueResourcePolicies_heavy]
  cases hqueue : heavyQueue s now excluded with
  | nil =>
    rw [hqueue] at hx
    cases hx
  | cons x queue =>
    rw [List.take_succ_cons, List.map_cons]
    exact List.cons_ne_nil _ _

/-! ## One turn -/

/-- A turn of the lane that runs another resource. -/
theorem lane_kept (hr : r ∈ heavyResources) (hs : s.Sound) (hclock : t.now < t.completed) (hd : d ≤ t.now)
    {excluded : List Resource} (hran : (syncHeavyLane s t excluded).ran ≠ some r) :
    Kept d r s (syncHeavyLane s t excluded).schedule := by
  rw [syncHeavyLane] at hran ⊢
  split at hran
  · exact .refl hs
  · rename_i p rest hdue
    obtain ⟨hs', hsame⟩ := controls_dueAt hs t.during
    exact (kept_of_same hr hs' hsame).trans (persist_kept hs' (by omega) (fun h => hran (congrArg some h)) _)

/-- It puts that resource behind. -/
theorem lane_served (hr : r ∈ heavyResources) (hs : s.Sound) (hclock : t.now < t.completed) (hdue : s.dueAt r ≤ t.now)
    {excluded : List Resource} (hex : r ∉ excluded) : (syncHeavyLane s t excluded).ran.isSome = true ∧
      ∃ q ∈ heavyResources, s.dueAt q ≤ s.dueAt r ∧ s.dueAt r < (syncHeavyLane s t excluded).schedule.dueAt q := by
  rw [syncHeavyLane]
  split
  · rename_i hnil
    exact absurd hnil (due_heavy_ne_nil hr hex hdue)
  · rename_i p rest hcons
    obtain ⟨hp, -, hfirst⟩ := due_heavy hcons
    obtain ⟨hs', -⟩ := controls_dueAt hs t.during
    obtain ⟨-, hle, -⟩ := persist_spec hs' p t.completed t.outcome
    exact ⟨rfl, p.resource, hp, hfirst r hr hex hdue, by show _ < (persist _ _ _ _).dueAt _; omega⟩

/-- The instants of a turn are after its first. -/
def HeavyTurn.Clocked (t : HeavyTurn) : Prop :=
  t.now < t.completed ∧ ∀ x ∈ t.projection, ∀ p ∈ x.projected, t.now < p.2

theorem projection_kept (hr : r ∈ heavyResources) (hs : s.Sound) (hclock : t.Clocked) (hd : d ≤ t.now)
    (hserved : r ∉ (syncDeferredProjectionOnce s t.projection).served) :
    Kept d r s (syncDeferredProjectionOnce s t.projection).schedule := by
  refine recordings_kept hr hs t.projection fun x hx p hp => ⟨?_, by have := hclock.2 x hx p hp; omega⟩
  rintro rfl
  refine hserved (List.mem_append_right _ (List.mem_filterMap.2 ⟨x, hx, ?_⟩))
  cases x with
  | control result => cases hp
  | audit now => cases hp; rfl
  | newsEvidence now => cases hp; rfl

/-- **What a turn keeps** that does not serve a resource, and whom it puts behind. -/
theorem turn_kept (hr : r ∈ heavyResources) (hs : s.Sound) (hclock : t.Clocked) (hdue : s.dueAt r ≤ t.now) (n : ℕ)
    (hex : ∀ excluded ∈ t.regular n, r ∉ excluded) (hserved : r ∉ (submitHeavyLane n s t).served) :
    Kept (s.dueAt r) r s (submitHeavyLane n s t).schedule ∧ ((t.regular n).isSome = true →
      ∃ q ∈ heavyResources, s.dueAt q ≤ s.dueAt r ∧ s.dueAt r < (submitHeavyLane n s t).schedule.dueAt q) := by
  have hlane : ∀ excluded, t.regular n = some excluded → submitHeavyLane n s t = syncHeavyLane s t excluded →
      Kept (s.dueAt r) r s (submitHeavyLane n s t).schedule ∧ ((t.regular n).isSome = true →
        ∃ q ∈ heavyResources, s.dueAt q ≤ s.dueAt r ∧ s.dueAt r < (submitHeavyLane n s t).schedule.dueAt q) := by
    intro excluded hregular heq
    rw [heq] at hserved ⊢
    have hran : (syncHeavyLane s t excluded).ran ≠ some r := fun h =>
      hserved (List.mem_append_left _ (Option.mem_toList.2 h))
    exact ⟨lane_kept hr hs hclock.1 hdue hran, fun _ => (lane_served hr hs hclock.1 hdue (hex _ hregular)).2⟩
  have hprojection : t.regular n = none → submitHeavyLane n s t = syncDeferredProjectionOnce s t.projection →
      Kept (s.dueAt r) r s (submitHeavyLane n s t).schedule ∧ ((t.regular n).isSome = true →
        ∃ q ∈ heavyResources, s.dueAt q ≤ s.dueAt r ∧ s.dueAt r < (submitHeavyLane n s t).schedule.dueAt q) := by
    intro hregular heq
    rw [heq] at hserved ⊢
    rw [hregular]
    exact ⟨projection_kept hr hs hclock hdue hserved, fun h => by cases h⟩
  by_cases hpending : t.deferredPending = true
  · by_cases hprefer : n % 2 = 1
    · cases hroutes : t.routes with
      | none =>
        have heq : submitHeavyLane n s t = ⟨s, none, []⟩ := by
          rw [submitHeavyLane, if_pos hpending, if_pos hprefer, hroutes]
        have hregular : t.regular n = none := by
          rw [HeavyTurn.regular, if_pos hpending, if_pos hprefer, hroutes]
          rfl
        rw [heq, hregular]
        exact ⟨.refl hs, fun h => by cases h⟩
      | some routes =>
        have hregular : t.regular n = some (excludedBy routes) := by
          rw [HeavyTurn.regular, if_pos hpending, if_pos hprefer, hroutes]
          rfl
        refine hlane _ hregular ?_
        rw [submitHeavyLane, if_pos hpending, if_pos hprefer, hroutes]
        exact if_pos (lane_served hr hs hclock.1 hdue (hex _ hregular)).1
    · exact hprojection (by rw [HeavyTurn.regular, if_pos hpending, if_neg hprefer])
        (by rw [submitHeavyLane, if_pos hpending, if_neg hprefer])
  · exact hlane [] (by rw [HeavyTurn.regular, if_neg hpending]) (by rw [submitHeavyLane, if_neg hpending])

/-! ## A run -/

variable {w : World} {turns : List HeavyTurn}

theorem lane_sound (hs : s.Sound) (t : HeavyTurn) (excluded : List Resource) : (syncHeavyLane s t excluded).schedule.Sound := by
  rw [syncHeavyLane]
  split
  · exact hs
  · exact (persist_spec (controls_dueAt hs t.during).1 _ _ _).1

theorem recording_sound (hs : s.Sound) (x : Recording) : (recording s x).Sound := by
  cases x with
  | control result => exact (control_dueAt hs result).1
  | audit now =>
    obtain ⟨s', h, hs', -⟩ := record_spec hs .audit (show 0 < 300 by decide) now (.success false)
    rw [recording, h]
    exact hs'
  | newsEvidence now =>
    obtain ⟨s', h, hs', -⟩ := record_spec hs .newsEvidence (show 0 < 300 by decide) now (.success false)
    rw [recording, h]
    exact hs'

theorem projection_sound (hs : s.Sound) (l : List Recording) : (syncDeferredProjectionOnce s l).schedule.Sound := by
  show (l.foldl recording s).Sound
  induction l generalizing s with
  | nil => exact hs
  | cons x l ih => exact ih (recording_sound hs x)

theorem turn_sound (hs : w.schedule.Sound) (t : HeavyTurn) : (w.turn t).schedule.Sound := by
  have hs' := (controls_dueAt hs t.before).1
  rw [World.turn, submitHeavyLane]
  split
  · split
    · split
      · exact hs'
      · dsimp only
        split
        · exact lane_sound hs' _ _
        · exact projection_sound (lane_sound hs' _ _) _
    · exact projection_sound hs' _
  · exact lane_sound hs' _ _

theorem run_sound (hs : w.schedule.Sound) (turns : List HeavyTurn) : (w.run turns).schedule.Sound := by
  induction turns generalizing w with
  | nil => exact hs
  | cons t turns ih => exact ih (w := w.step t) (turn_sound hs t)

/-- The instants of the turns increase. -/
structure Clocked (turns : List HeavyTurn) : Prop where
  increasing : turns.Pairwise fun t u => t.now < u.now
  within : ∀ t ∈ turns, t.Clocked

/-- No turn of the lane excludes the resource. -/
def NotExcluded (r : Resource) (w : World) (turns : List HeavyTurn) : Prop :=
  ∀ pre t post, turns = pre ++ t :: post → ∀ excluded ∈ t.regular (w.run pre).heavyTurn, r ∉ excluded

/-- A turn runs the resource, or the deferred projection records it in one. -/
def Served (r : Resource) (w : World) (turns : List HeavyTurn) : Prop :=
  ∃ pre t post, turns = pre ++ t :: post ∧ r ∈ ((w.run pre).turn t).served

/-- The turns that reach the lane. -/
def regularTurns (w : World) (turns : List HeavyTurn) : ℕ :=
  Rotation.services World.step (fun w t => (t.regular w.heavyTurn).isSome) w turns

/-- The heavy resources that are due after an instant. -/
def lateResources (d : ℤ) (s : ScheduleState) : Finset Resource := heavyResources.toFinset.filter fun q => d < s.dueAt q

theorem regularTurns_of_length (h : ∀ t ∈ turns, t.routes.isSome = true) (w : World) :
    turns.length ≤ 2 * regularTurns w turns + (w.heavyTurn + 1) % 2 := by
  induction turns generalizing w with
  | nil => simp
  | cons t turns ih =>
    have hrest := ih (fun u hu => h u (List.mem_cons_of_mem t hu)) (w.step t)
    have hturn : (w.step t).heavyTurn = w.heavyTurn + 1 := rfl
    have hodd : w.heavyTurn % 2 = 1 → (t.regular w.heavyTurn).isSome = true := by
      intro hodd
      rw [HeavyTurn.regular, if_pos hodd]
      split
      · rw [Option.isSome_map]
        exact h t List.mem_cons_self
      · rfl
    rw [regularTurns, Rotation.services, ← regularTurns, List.length_cons]
    rw [hturn] at hrest
    split
    · omega
    · rename_i heven
      have : w.heavyTurn % 2 ≠ 1 := fun h => heven (hodd h)
      omega

/-- A resource with a due time waits to be served in the turns to come. -/
def Unserved (r : Resource) (d : ℤ) (w : World) (turns : List HeavyTurn) : Prop :=
  w.schedule.Sound ∧ w.schedule.dueAt r = d ∧ (∀ t ∈ turns, t.Clocked) ∧ (∀ t ∈ turns, d ≤ t.now) ∧
    NotExcluded r w turns ∧ ¬ Served r w turns

theorem unserved_card (hr : r ∈ heavyResources) (h : Unserved r d w turns) : (lateResources d w.schedule).card ≤ 4 := by
  have hsub : lateResources d w.schedule ⊆ heavyResources.toFinset.erase r := by
    intro q hq
    obtain ⟨hq, hlt⟩ := Finset.mem_filter.1 hq
    refine Finset.mem_erase.2 ⟨?_, hq⟩
    rintro rfl
    exact hlt.ne h.2.1.symm
  refine (Finset.card_le_card hsub).trans ?_
  rw [Finset.card_erase_of_mem (List.mem_toFinset.2 hr)]
  decide

/-- Each turn that reaches the lane puts another resource behind. -/
theorem unserved_step (hr : r ∈ heavyResources) (h : Unserved r d w (t :: turns)) :
    Unserved r d (w.step t) turns ∧ lateResources d w.schedule ⊆ lateResources d (w.step t).schedule ∧
      ((t.regular w.heavyTurn).isSome = true → lateResources d w.schedule ≠ lateResources d (w.step t).schedule) := by
  obtain ⟨hs, rfl, hclock, hdue, hex, hserved⟩ := h
  obtain ⟨hbefore, hkeep⟩ := controls_dueAt hs t.before
  have hnow := hdue t List.mem_cons_self
  have hsame := hkeep r hr
  obtain ⟨hkept, hbehind⟩ := turn_kept hr hbefore (hclock t List.mem_cons_self) (by omega) w.heavyTurn
    (hex [] t turns rfl) (fun h => hserved ⟨[], t, turns, rfl, h⟩)
  rw [hsame] at hkept hbehind
  refine ⟨⟨hkept.sound, hkept.due.trans hsame, ?_, ?_, ?_, ?_⟩, ?_, ?_⟩
  · exact fun u hu => hclock u (List.mem_cons_of_mem t hu)
  · exact fun u hu => hdue u (List.mem_cons_of_mem t hu)
  · exact fun pre u post h => hex (t :: pre) u post (by rw [h]; rfl)
  · rintro ⟨pre, u, post, h, hu⟩
    exact hserved ⟨t :: pre, u, post, by rw [h]; rfl, hu⟩
  · intro q hq
    obtain ⟨hq, hlt⟩ := Finset.mem_filter.1 hq
    refine Finset.mem_filter.2 ⟨hq, hkept.late q (List.mem_toFinset.1 hq) ?_⟩
    rwa [hkeep q (List.mem_toFinset.1 hq)]
  · intro hregular heq
    obtain ⟨q, hq, hbefore, hafter⟩ := hbehind hregular
    have hmem : q ∈ lateResources (w.schedule.dueAt r) (w.step t).schedule :=
      Finset.mem_filter.2 ⟨List.mem_toFinset.2 hq, hafter⟩
    rw [← heq] at hmem
    have hlt := (Finset.mem_filter.1 hmem).2
    rw [hkeep q hq] at hbefore
    omega

/-- An unserved resource waits for the four others. -/
theorem regularTurns_le (hr : r ∈ heavyResources) (h : Unserved r d w turns) : regularTurns w turns ≤ 4 :=
  (Nat.le_add_right _ _).trans (@Rotation.services_le World HeavyTurn Resource World.step
    (fun w t => (t.regular w.heavyTurn).isSome) (Unserved r d) (fun w => lateResources d w.schedule) 4
    (fun _ _ h => unserved_card hr h) (fun _ _ _ h => unserved_step hr h) w turns h)

/-- A turn that runs a resource leaves it due no earlier than its end, and later unless work is pending. -/
theorem turn_ran (hs : w.schedule.Sound) (t : HeavyTurn) (h : (w.turn t).ran = some r) :
    t.completed ≤ (w.turn t).schedule.dueAt r ∧ (t.outcome ≠ .success true → t.completed < (w.turn t).schedule.dueAt r) := by
  have hs' := (controls_dueAt hs t.before).1
  have hlane : ∀ excluded, w.turn t = syncHeavyLane (t.before.foldl control w.schedule) t excluded →
      t.completed ≤ (w.turn t).schedule.dueAt r ∧
        (t.outcome ≠ .success true → t.completed < (w.turn t).schedule.dueAt r) := by
    intro excluded heq
    rw [heq, syncHeavyLane] at h ⊢
    split at h
    · cases h
    · rename_i p rest hdue
      obtain rfl := Option.some.inj h
      obtain ⟨-, hle, hlt, -⟩ := persist_spec (controls_dueAt hs' t.during).1 p t.completed t.outcome
      exact ⟨hle, hlt⟩
  by_cases hpending : t.deferredPending = true
  · by_cases hprefer : w.heavyTurn % 2 = 1
    · cases hroutes : t.routes with
      | none =>
        rw [World.turn, submitHeavyLane, if_pos hpending, if_pos hprefer, hroutes] at h
        cases h
      | some routes =>
        refine hlane (excludedBy routes) ?_
        rw [World.turn, submitHeavyLane, if_pos hpending, if_pos hprefer, hroutes] at h ⊢
        dsimp only at h ⊢
        split
        · rfl
        · rename_i hnone
          rw [if_neg hnone] at h
          cases h
    · rw [World.turn, submitHeavyLane, if_pos hpending, if_neg hprefer] at h
      cases h
  · exact hlane [] (by rw [World.turn, submitHeavyLane, if_neg hpending])

/-- A turn runs the resource. -/
def Ran (r : Resource) (w : World) (turns : List HeavyTurn) : Prop :=
  ∃ pre t post, turns = pre ++ t :: post ∧ ((w.run pre).turn t).ran = some r

/-- **Every due heavy resource gets its turn.**  A resource that ran is due no earlier than the end of its
    run, and later unless work is pending; one that is due, and that no turn excludes, is served within five
    turns that reach the lane, and so within ten turns if the requests can be read. -/
theorem heavy_served (hs : w.schedule.Sound) (hclock : Clocked turns) :
    ∀ pre t post, turns = pre ++ t :: post →
      (∀ r, ((w.run pre).turn t).ran = some r → t.completed ≤ ((w.run pre).turn t).schedule.dueAt r ∧
        (t.outcome ≠ .success true → t.completed < ((w.run pre).turn t).schedule.dueAt r)) ∧
      ∀ r ∈ heavyResources, (t.before.foldl control (w.run pre).schedule).dueAt r ≤ t.now →
        NotExcluded r (w.run pre) (t :: post) →
        (5 ≤ regularTurns (w.run pre) (t :: post) → Served r (w.run pre) (t :: post)) ∧
        (10 ≤ (t :: post).length → (∀ u ∈ t :: post, u.routes.isSome = true) → Served r (w.run pre) (t :: post)) := by
  rintro pre t post rfl
  have hpre := run_sound hs pre
  refine ⟨fun r h => turn_ran hpre t h, fun r hr hdue hex => ?_⟩
  have hfive : 5 ≤ regularTurns (w.run pre) (t :: post) → Served r (w.run pre) (t :: post) := by
    intro hfive
    by_contra hserved
    have hsame := (controls_dueAt hpre t.before).2 r hr
    have hincreasing := (List.pairwise_append.1 hclock.increasing).2.1
    have hle := regularTurns_le hr ⟨hpre, rfl, fun u hu => hclock.within u (List.mem_append_right pre hu), fun u hu => ?_,
      hex, hserved⟩
    · omega
    · rcases List.mem_cons.1 hu with rfl | hu
      · omega
      · have := List.rel_of_pairwise_cons hincreasing hu
        omega
  refine ⟨hfive, fun hten hroutes => hfive ?_⟩
  have := regularTurns_of_length hroutes (w.run pre)
  omega

theorem notExcluded_nil : NotExcluded r w [] := fun pre t post h => by simp at h

theorem notExcluded_cons (ht : ∀ excluded ∈ t.regular w.heavyTurn, r ∉ excluded) (h : NotExcluded r (w.step t) turns) :
    NotExcluded r w (t :: turns) := by
  rintro pre u post heq
  cases pre with
  | nil =>
    cases heq
    exact ht
  | cons _ pre =>
    cases heq
    exact h pre u post rfl

theorem not_ran_nil : ¬ Ran r w [] := fun ⟨pre, t, post, h, _⟩ => by simp at h

theorem not_ran_cons (ht : (w.turn t).ran ≠ some r) (h : ¬ Ran r (w.step t) turns) : ¬ Ran r w (t :: turns) := by
  rintro ⟨pre, u, post, heq, hran⟩
  cases pre with
  | nil =>
    cases heq
    exact ht hran
  | cons _ pre =>
    cases heq
    exact h ⟨pre, u, post, rfl, hran⟩

/-- A turn with nothing from the other lanes, after which work is pending. -/
def plainTurn (now : ℤ) : HeavyTurn := ⟨[], false, some [], now, [], .success true, now + 500, []⟩

/-- Five turns after no schedule has been written. -/
theorem heavy_served_five : Served .newsEvidence ⟨⟨.missing, none⟩, 0⟩
    [plainTurn 1000, plainTurn 2000, plainTurn 3000, plainTurn 4000, plainTurn 5000] := by
  have hclock : Clocked [plainTurn 1000, plainTurn 2000, plainTurn 3000, plainTurn 4000, plainTurn 5000] := by
    refine ⟨by simp [plainTurn], fun t ht => ?_⟩
    simp only [List.mem_cons, List.not_mem_nil, or_false] at ht
    rcases ht with rfl | rfl | rfl | rfl | rfl <;> exact ⟨by decide, fun x hx => by cases hx⟩
  refine ((heavy_served ⟨by simp, fun entries h => by cases h⟩ hclock [] _ _ rfl).2 .newsEvidence (by decide)
    (by decide) ?_).1 (by decide)
  · iterate 5 refine notExcluded_cons (by decide) ?_
    exact notExcluded_nil

/-- A schedule with the chart and then the audit due, and nothing else for long. -/
def auditDue : World :=
  ⟨⟨.object fun
    | .marketChart => some ⟨none, none, some 0, some 1⟩
    | .audit => some ⟨none, none, some 0, some 5⟩
    | _ => some ⟨none, none, some 0, some 1000000000⟩, none⟩, 1⟩

/-- A turn of the deferred projection, which records the audit. -/
def auditTurn : HeavyTurn := ⟨[], true, some [.auditBriefs], 2000, [], .success false, 2500, [.audit 2500]⟩

/-- **The deferred projection may take the place of the lane.**  What it records does not run for five turns. -/
theorem projection_serves : ¬ ∀ (w : World) (turns : List HeavyTurn), w.schedule.Sound → Clocked turns →
    ∀ pre t post, turns = pre ++ t :: post → ∀ r ∈ heavyResources, (t.regular (w.run pre).heavyTurn).isSome = true →
      (t.before.foldl control (w.run pre).schedule).dueAt r ≤ t.now → NotExcluded r (w.run pre) (t :: post) →
      6 ≤ regularTurns (w.run pre) (t :: post) → Ran r (w.run pre) (t :: post) := by
  intro h
  have hsound : auditDue.schedule.Sound := by
    refine ⟨by simp [auditDue], fun entries h r e he => ?_⟩
    cases h
    cases r <;> cases he <;> exact ⟨0, rfl, neg_lt_zero.2 floatBound_pos⟩
  have hclock : Clocked [plainTurn 1000, auditTurn, plainTurn 3000, plainTurn 4000, plainTurn 5000, plainTurn 6000,
      plainTurn 7000] := by
    refine ⟨by simp [plainTurn, auditTurn], fun t ht => ?_⟩
    simp only [List.mem_cons, List.not_mem_nil, or_false] at ht
    rcases ht with rfl | rfl | rfl | rfl | rfl | rfl | rfl
    · exact ⟨by decide, fun x hx => by cases hx⟩
    · refine ⟨by decide, fun x hx p hp => ?_⟩
      obtain rfl := List.mem_singleton.1 hx
      cases hp
      decide
    iterate 5 exact ⟨by decide, fun x hx => by cases hx⟩
  have hran := h auditDue _ hsound hclock [] _ _ rfl .audit (by decide) (by decide) (by decide) ?_ (by decide)
  · revert hran
    iterate 7 refine not_ran_cons (by decide) ?_
    exact not_ran_nil
  · iterate 7 refine notExcluded_cons (by decide) ?_
    exact notExcluded_nil

end Xauusd.Sync
