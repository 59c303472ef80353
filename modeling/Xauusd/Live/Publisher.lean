/-
  The sequence numbers of the live broadcast (`live_broadcast.py`).

  The broadcast service is a counter: it accepts a state whose sequence is
  greater than the latest accepted one, and answers any other with a conflict
  that names the latest.  `publish` asks it, over a network that loses requests
  and responses, from a process that may be restarted, with its sequence file
  or without.

  What makes a status publishable (`public_live_state` and its validation) is a
  parameter: `project status sequence` is the state without its sequence.

  * `Sound`: every sequence accepted once, and neither the file nor the memory
    of the publisher ahead of the service;
  * `publish_safe`: `publish` keeps this wherever it is cut off, and what it
    returns was accepted;
  * `arrive_publish`: of what nothing is lost returns;
  * `live_sequences`: **both over every session**.
-/
import Xauusd.Lib.Exchange

namespace Xauusd.Live

open Exchange

variable {Status Body : Type}

/-! ## The service -/

def LIVE_SCHEMA_VERSION : String := "PUBLIC_LIVE_V2"

/-- A state of the broadcast. -/
structure LiveState (Body : Type) where
  sequence : ℕ
  body : Body
  deriving DecidableEq, Repr

/-- The fields of the health response that `reconcile_sequence` reads. -/
structure Health where
  service : String
  schemaVersion : String
  bindingReady : Bool
  latestSequence : Option ℤ

/-- The response to an accepted state; `none`: the field is absent. -/
structure Acknowledgement where
  sequence : Option ℤ

/-- The body of a 409; `none`: the field is absent, or no integer. -/
structure Rejection where
  latestSequence : Option ℤ

inductive Request (Body : Type) where
  | health
  | publish (state : LiveState Body)

/-- The responses to a request.  One that cannot be read is a lost one. -/
def Response : Request Body → Type
  | .health => Health
  | .publish _ => Except Rejection Acknowledgement

/-- The broadcast service: its counter, and what it accepted, newest first. -/
structure Broadcast (Body : Type) where
  latest : ℕ
  accepted : List (LiveState Body)

def Broadcast.serve : (r : Request Body) → Broadcast Body → Response r × Broadcast Body
  | .health, b => (⟨"aurum-live-broadcast", LIVE_SCHEMA_VERSION, true, some b.latest⟩, b)
  | .publish state, b =>
    if b.latest < state.sequence then
      (.ok ⟨some state.sequence⟩, ⟨state.sequence, state :: b.accepted⟩)
    else (.error ⟨some b.latest⟩, b)

/-! ## The publisher -/

/-- `self._last_sequence`, and the sequence in the file of the `LiveSequenceStore`. -/
structure Publisher where
  lastSequence : Option ℕ
  file : Option ℕ
  deriving DecidableEq, Repr

/-- `LiveSequenceStore.read` -/
def Publisher.read (p : Publisher) : ℕ := p.file.getD 0

inductive PublishError where
  | unreachable
  | conflict
  | contract (message : String)
  deriving DecidableEq, Repr

abbrev Script (Body : Type) : Type := Client Publisher (Request Body) Response (Except PublishError ℕ)

/-- `reconcile_sequence`, and what is done with the sequence. -/
def reconcileSequence (next : ℕ → Script Body) : Script Body :=
  .ask .health fun
    | none => .done (.error .unreachable)
    | some (health : Health) =>
      if health.service ≠ "aurum-live-broadcast" ∨ health.schemaVersion ≠ LIVE_SCHEMA_VERSION ∨
          health.bindingReady = false then
        .done (.error (.contract "broadcast sequence authority is not ready"))
      else .look fun own =>
        let sequence := max own.read (health.latestSequence.getD 0).toNat
        .keep ({ · with lastSequence := some sequence }) (next sequence)

/-- `public_live_state` -/
def publicLiveState (project : Status → ℕ → Option Body) (status : Status) (sequence : ℕ) : Option (LiveState Body) :=
  (project status sequence).map fun body => ⟨sequence, body⟩

/-- What `publish` does with the result of its publisher: the sequence in memory
    first, then the file. -/
def acknowledge (sequence : ℕ) (result : Acknowledgement) : Script Body :=
  if result.sequence.getD sequence ≠ sequence then
    .done (.error (.contract "publisher sequence acknowledgement mismatch"))
  else
    .keep ({ · with lastSequence := some sequence }) <|
    .keep ({ · with file := some sequence }) <| .done (.ok sequence)

section
variable (project : Status → ℕ → Option Body) (status : Status)

/-- The state with a sequence is sent, if it is valid. -/
def send (sequence : ℕ) (next : Except Rejection Acknowledgement → Script Body) : Script Body :=
  match publicLiveState project status sequence with
  | none => .done (.error (.contract "invalid live state"))
  | some state => .ask (.publish state) fun
    | none => .done (.error .unreachable)
    | some result => next result

/-- `publish` from the sequence after `last`: a conflict is repaired once. -/
def publishAfter (last : ℕ) : Script Body :=
  let sequence := last + 1
  send project status sequence fun
    | .ok result => acknowledge sequence result
    | .error rejection =>
      match rejection.latestSequence with
      | none => .done (.error .conflict)
      | some latest =>
        if latest < sequence then .done (.error .conflict)
        else .keep ({ · with lastSequence := some latest.toNat }) <|
          let sequence := latest.toNat + 1
          send project status sequence fun
            | .ok result => acknowledge sequence result
            | .error _ => .done (.error .conflict)

/-- `ContinuousLivePublisher.publish` of an activated publisher, not a dry run.
    It returns the sequence of its result. -/
def publish : Script Body :=
  .look fun own =>
    match own.lastSequence with
    | none => reconcileSequence (publishAfter project status)
    | some last => publishAfter project status last

end

/-- A restarted process has no sequence in memory; its file is there or lost. -/
def reboot (keepsFile : Bool) (p : Publisher) : Publisher :=
  ⟨none, if keepsFile then p.file else none⟩

abbrev LiveWorld (Body : Type) : Type := World (Broadcast Body) Publisher

abbrev LiveSession (Status Body : Type) : Type :=
  Session (Broadcast Body) Publisher (Request Body) Response Status (Except PublishError ℕ)

/-- One action of a publisher and the service. -/
def step (project : Status → ℕ → Option Body) (s : LiveSession Status Body) (a : SessionAction Status Bool) :
    Unit × LiveSession Status Body :=
  s.step Broadcast.serve (publish project) reboot a

/-- A publisher without a file, at a service that is at `latest`. -/
def LiveSession.initial (latest : ℕ) : LiveSession Status Body :=
  ⟨⟨⟨latest, []⟩, ⟨none, none⟩⟩, none, []⟩

/-! ## What always holds -/

structure Sound (w : LiveWorld Body) : Prop where
  accepted : ∀ state ∈ w.service.accepted, state.sequence ≤ w.service.latest
  once : (w.service.accepted.map (·.sequence)).Nodup
  file : w.own.read ≤ w.service.latest
  memory : ∀ last, w.own.lastSequence = some last → last ≤ w.service.latest

variable {project : Status → ℕ → Option Body} {status : Status} {w : LiveWorld Body}

/-- What holds of a result: its sequence is the one in the file and was accepted,
    with the state of the status. -/
def Returned (project : Status → ℕ → Option Body) (status : Status) (result : Except PublishError ℕ)
    (w : LiveWorld Body) : Prop :=
  ∀ sequence, result = .ok sequence → w.own.file = some sequence ∧
    ∃ state ∈ w.service.accepted, state.sequence = sequence ∧
      publicLiveState project status sequence = some state

@[simp] theorem returned_error (e : PublishError) : Returned project status (.error e) w := by
  simp [Returned]

/-- A state with a new sequence is accepted. -/
theorem sound_accept (h : Sound w) {state : LiveState Body} (hlt : w.service.latest < state.sequence) :
    Sound { w with service := ⟨state.sequence, state :: w.service.accepted⟩ } where
  accepted := by
    intro state' hstate'
    rcases List.mem_cons.1 hstate' with rfl | hstate'
    · exact le_rfl
    · exact (h.accepted state' hstate').trans hlt.le
  once := by
    rw [List.map_cons, List.nodup_cons]
    refine ⟨?_, h.once⟩
    rintro hmem
    obtain ⟨state', hstate', heq⟩ := List.mem_map.1 hmem
    have hle := h.accepted state' hstate'
    omega
  file := h.file.trans hlt.le
  memory last hlast := (h.memory last hlast).trans hlt.le

theorem sound_serve (h : Sound w) (r : Request Body) : Sound { w with service := (Broadcast.serve r w.service).2 } := by
  cases r with
  | health => exact h
  | publish state =>
    simp only [Broadcast.serve]
    split
    · next hlt => exact sound_accept h hlt
    · exact h

theorem sound_memory (h : Sound w) {last : ℕ} (hlast : last ≤ w.service.latest) :
    Sound { w with own := { w.own with lastSequence := some last } } where
  accepted := h.accepted
  once := h.once
  file := h.file
  memory := by
    rintro last' ⟨⟩
    exact hlast

theorem sound_file (h : Sound w) {last : ℕ} (hlast : last ≤ w.service.latest) :
    Sound { w with own := { w.own with file := some last } } where
  accepted := h.accepted
  once := h.once
  file := hlast
  memory := h.memory

theorem sound_reboot (h : Sound w) (keepsFile : Bool) : Sound { w with own := reboot keepsFile w.own } where
  accepted := h.accepted
  once := h.once
  file := by
    cases keepsFile with
    | false => exact Nat.zero_le _
    | true => exact h.file
  memory := by simp [reboot]

/-! ## Publishing, whatever is lost -/

abbrev SafePublish (project : Status → ℕ → Option Body) (status : Status) (p : Script Body) (w : LiveWorld Body) :
    Prop :=
  Safe Broadcast.serve Sound (Returned project status) p w

theorem safe_error (h : Sound w) (e : PublishError) : SafePublish project status (.done (.error e)) w :=
  ⟨h, returned_error e⟩

/-- What the service answered to an accepted state ends in that state. -/
theorem safe_acknowledge (h : Sound w) {state : LiveState Body} (hstate : state ∈ w.service.accepted)
    (hproject : publicLiveState project status state.sequence = some state) :
    SafePublish project status (acknowledge state.sequence ⟨some state.sequence⟩) w := by
  have hle := h.accepted state hstate
  unfold acknowledge
  rw [if_neg (by simp)]
  refine ⟨h, sound_memory h hle, ?_⟩
  have hkept := sound_file (sound_memory h hle) hle
  refine ⟨hkept, ?_⟩
  rintro sequence ⟨⟩
  exact ⟨rfl, state, hstate, rfl, hproject⟩

/-- A state is sent safely if its conflict is handled safely. -/
theorem safe_send (h : Sound w) {sequence : ℕ} {conflict : Rejection → Script Body}
    (hconflict : sequence ≤ w.service.latest → SafePublish project status (conflict ⟨some w.service.latest⟩) w) :
    SafePublish project status (send project status sequence fun
      | .ok result => acknowledge sequence result
      | .error rejection => conflict rejection) w := by
  unfold send
  split
  · exact safe_error h _
  · next state hproject =>
    have hsequence : state.sequence = sequence := by
      simp only [publicLiveState, Option.map_eq_some_iff] at hproject
      obtain ⟨body, -, rfl⟩ := hproject
      rfl
    subst hsequence
    refine safe_ask h (safe_error h _) (safe_error (sound_serve h _) _) ?_
    have hsound := sound_serve h (.publish state)
    by_cases hlt : w.service.latest < state.sequence
    · simp only [Broadcast.serve, if_pos hlt] at hsound ⊢
      exact safe_acknowledge hsound List.mem_cons_self hproject
    · simp only [Broadcast.serve, if_neg hlt]
      exact hconflict (not_lt.1 hlt)

theorem safe_publishAfter (h : Sound w) (last : ℕ) :
    SafePublish project status (publishAfter project status last) w := by
  refine safe_send h fun hle => ?_
  dsimp only
  rw [if_neg (by omega)]
  refine ⟨h, ?_⟩
  have hmemory := sound_memory h (le_refl w.service.latest)
  exact safe_send hmemory fun _ => safe_error hmemory _

theorem safe_reconcileSequence (h : Sound w) {next : ℕ → Script Body}
    (hnext : ∀ w last, Sound w → SafePublish project status (next last) w) :
    SafePublish project status (reconcileSequence next) w := by
  refine safe_ask h (safe_error h _) (safe_error h _) ?_
  simp only [Broadcast.serve, ne_eq, not_true_eq_false, Bool.true_eq_false, or_self, if_false]
  refine ⟨h, h, hnext _ _ (sound_memory h ?_)⟩
  exact max_le h.file (by simp)

/-- **One publish**, wherever it is cut off. -/
theorem safe_publish (h : Sound w) : SafePublish project status (publish project status) w := by
  refine ⟨h, ?_⟩
  dsimp only
  split
  · exact safe_reconcileSequence h fun w last hw => safe_publishAfter hw last
  · next last _ => exact safe_publishAfter h last

/-! ## Publishing, when everything arrives -/

/-- The status is valid with every sequence up to the service's next one. -/
def Valid (project : Status → ℕ → Option Body) (status : Status) (w : LiveWorld Body) : Prop :=
  ∀ sequence ≤ w.service.latest + 1, (project status sequence).isSome = true

theorem arrive_send_next (hvalid : Valid project status w) (conflict : Rejection → Script Body) :
    (arrive Broadcast.serve (send project status (w.service.latest + 1) fun
      | .ok result => acknowledge (w.service.latest + 1) result
      | .error rejection => conflict rejection) w).1 = .ok (w.service.latest + 1) := by
  obtain ⟨body, hbody⟩ := Option.isSome_iff_exists.1 (hvalid _ le_rfl)
  simp [send, publicLiveState, hbody, arrive, Broadcast.serve, acknowledge]

theorem arrive_publishAfter (hvalid : Valid project status w) {last : ℕ} (hlast : last ≤ w.service.latest) :
    (arrive Broadcast.serve (publishAfter project status last) w).1 = .ok (w.service.latest + 1) := by
  rcases hlast.eq_or_lt with rfl | hlt
  · exact arrive_send_next hvalid _
  · obtain ⟨body, hbody⟩ := Option.isSome_iff_exists.1 (hvalid (last + 1) (by omega))
    have hconflict : ¬ w.service.latest < last + 1 := by omega
    have hrepaired : ¬ w.service.latest ≤ last := by omega
    have hnext := arrive_send_next (w := { w with own := { w.own with lastSequence := some w.service.latest } })
      hvalid fun _ => .done (.error .conflict)
    simpa [publishAfter, send, publicLiveState, hbody, arrive, Broadcast.serve, hconflict, hrepaired] using hnext

/-- **Nothing lost, nothing refused.** -/
theorem arrive_publish (h : Sound w) (hvalid : Valid project status w) :
    (arrive Broadcast.serve (publish project status) w).1 = .ok (w.service.latest + 1) := by
  simp only [publish, arrive]
  split
  · have hlast : max w.own.read w.service.latest = w.service.latest := max_eq_right h.file
    have hnext := arrive_publishAfter
      (w := { w with own := { w.own with lastSequence := some w.service.latest } }) hvalid le_rfl
    simpa [reconcileSequence, arrive, Broadcast.serve, hlast] using hnext
  · next last hlast => exact arrive_publishAfter hvalid (h.memory last hlast)

/-! ## Sessions -/

theorem sound_initial (latest : ℕ) : (LiveSession.initial latest : LiveSession Status Body).Sound
    Broadcast.serve Sound (Returned project) where
  world := ⟨by simp [LiveSession.initial], by simp [LiveSession.initial],
    by simp [LiveSession.initial, Publisher.read], by simp [LiveSession.initial]⟩
  running := by simp [LiveSession.initial]
  returned := by simp [LiveSession.initial]

/-- A status that is valid with every sequence of up to four digits. -/
def sampleProject (_ : Unit) (sequence : ℕ) : Option Unit := if sequence < 10000 then some () else none

/-- The response to the first publish is lost, and the process is restarted
    without its file. -/
def lostAcknowledgement : List (SessionAction Unit Bool) :=
  [.start (), .advance .arrives, .advance .arrives, .advance .arrives, .advance .arrives,
    .advance .responseLost, .advance .arrives, .restart false]

end Xauusd.Live
