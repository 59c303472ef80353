/-
  What a call of the gateway leaves with its accountant.

  A handler that raises while it records a failed attempt ends the call there:
  a failure of the request goes unrecorded, and one of the decoding keeps the
  other keys from being tried.

  * `Recordable`: the attempts whose evidence the handlers can collect;
  * `Runs`: the runs of the loop, `tries_runs`;
  * `Accounted`: one record for an attempt, the next key after a failure, the
    first success or the evidence of the last failure, and the limits;
  * `generate_accounted_iff`: a call is accounted iff all it receives is
    recordable.
-/
import Xauusd.Gateway.Generate

namespace Xauusd.Gateway

variable {T : Type} {call : Call T} {g : GeminiModelGateway} {texts : Texts} {refusal : Refusal}
  {turn : ℕ → Turn} {offset : ℕ} {offsets : List ℕ} {last : Option PyError} {s : Batch}
  {run : Run T} {a : Attempt T} {e : PyError} {envelope : Envelope}

/-! ## Evidence -/

/-- The text that the evidence of a decode failure hashes has an encoding. -/
def OutputReadable (e : PyError) : Option Envelope → Prop
  | none => PyStr.wellFormed e.text = true
  | some envelope => match outputText envelope with
    | .ok (.str s) => PyStr.wellFormed s = true
    | .ok _ => True
    | .error _ => (PyJson.dict envelope).wellFormed = true

/-- The candidates of a response, if it names any, start with an object. -/
def CandidatesReadable (envelope : Envelope) : Prop :=
  ∀ v, envelope.lookup (PyStr.of "candidates") = some v → v.truthy = true →
    ∃ candidate others, v = .list (.dict candidate :: others)

/-- The error of a body that cannot be read or parsed is one passed over. -/
def HttpReply.Readable (reply : HttpReply) : Prop :=
  match reply.body with
  | .unread classes | .read _ (.error classes) => isInstance classes bodyErrors = true
  | .read _ (.ok _) => True

/-- The handlers can collect the evidence of an attempt. -/
def Call.Recordable (call : Call T) (a : Attempt T) : Prop :=
  ∀ e, a.outcome = .error e →
    if call.decodeFailure e then
      e.failureEvidence = none → OutputReadable e a.envelope ∧
        ∀ envelope, a.envelope = some envelope → CandidatesReadable envelope
    else ∀ reply, e.http = some reply → reply.Readable

theorem wellFormed_str (texts : Texts) (v : PyJson) :
    PyStr.wellFormed (texts.str v) = match v with | .str s => PyStr.wellFormed s | _ => true := by
  cases v <;> simp [Texts.str]

theorem wellFormed_rawOutput (texts : Texts) (envelope : Option Envelope) (e : PyError) :
    PyStr.wellFormed (rawOutput texts envelope e) = true ↔ OutputReadable e envelope := by
  cases envelope with
  | none => simp [rawOutput, OutputReadable, PyStr.of]
  | some envelope =>
    unfold rawOutput OutputReadable
    cases houtput : outputText envelope with
    | error name => simp only [houtput, PyJson.wellFormed_dumps]
    | ok v => cases v <;> simp [houtput, wellFormed_str]

theorem finishReason_ok : (∃ reason, finishReason envelope = .ok reason) ↔ CandidatesReadable envelope := by
  have hfirst (v : PyJson) : (∃ reason, (do
      let first ← v.first
      let reason ← first.get "finishReason"
      return reason.getD (pyString "UNKNOWN") : Except String PyJson) = .ok reason) ↔
        ∃ candidate others, v = .list (.dict candidate :: others) := by
    constructor
    · rintro ⟨reason, h⟩
      cases v with
      | list items =>
        cases items with
        | nil => cases h
        | cons first others =>
          cases first with
          | dict candidate => exact ⟨candidate, others, rfl⟩
          | none | bool | int | float | str | list => cases h
      | str s => cases s <;> cases h
      | none | bool | int | float | dict => cases h
    · rintro ⟨candidate, others, rfl⟩
      exact ⟨_, rfl⟩
  unfold finishReason CandidatesReadable
  cases hlookup : envelope.lookup (PyStr.of "candidates") with
  | none =>
    simp only [Option.getD_none, PyJson.truthy, Bool.false_eq_true, if_false, hfirst]
    refine ⟨fun _ v hv => ?_, fun _ => ⟨[], [], rfl⟩⟩
    cases hv
  | some v =>
    simp only [Option.getD_some, Option.some.injEq, forall_eq']
    split
    · next htruthy => simp only [htruthy, forall_const, hfirst]
    · next htruthy =>
      simp only [htruthy, Bool.false_eq_true, false_imp_iff, iff_true, hfirst]
      exact ⟨[], [], rfl⟩

theorem candidatesReadable_nil : CandidatesReadable [] := by
  intro v hv
  cases hv

/-- Evidence is collected exactly of what is readable. -/
theorem decodeEvidence_ok (texts : Texts) (envelope : Option Envelope) (e : PyError) :
    (∃ evidence, decodeEvidence texts envelope e = .ok evidence) ↔ OutputReadable e envelope ∧
      ∀ envelope', envelope = some envelope' → CandidatesReadable envelope' := by
  rw [← wellFormed_rawOutput texts, ← PyStr.encode_isSome]
  unfold decodeEvidence
  cases hbytes : PyStr.encode (rawOutput texts envelope e) with
  | none => simp [hbytes]
  | some bytes =>
    simp only [hbytes, Option.isSome_some, true_and]
    cases envelope with
    | none => simp [ifEnvelope]
    | some envelope =>
      simp only [Option.some.injEq, forall_eq', ← finishReason_ok]
      cases envelope with
      | nil => exact ⟨fun _ => finishReason_ok.2 candidatesReadable_nil, fun _ => ⟨_, rfl⟩⟩
      | cons m envelope =>
        simp only [ifEnvelope, List.isEmpty_cons, Bool.false_eq_true, if_false]
        cases finishReason (m :: envelope) with
        | error name => simp
        | ok reason => simp

theorem httpFailureEvidence_ok (reply : HttpReply) (model purpose : String) :
    (∃ evidence, httpFailureEvidence reply model purpose = .ok evidence) ↔ reply.Readable := by
  unfold httpFailureEvidence HttpReply.Readable
  cases reply.body with
  | unread classes => by_cases h : isInstance classes bodyErrors = true <;> simp [h]
  | read head parsed =>
    cases parsed with
    | error classes => by_cases h : isInstance classes bodyErrors = true <;> simp [h]
    | ok body => simp

/-! ## Handlers -/

theorem settle_ok (call : Call T) (texts : Texts) (offset : ℕ) {t : T} (h : a.outcome = .ok t) :
    ∃ version, (call.settle texts offset a).2 = .ended (.returned t version) := by
  unfold Call.settle
  rw [h]
  exact ⟨_, rfl⟩

/-- A decode failure with its evidence leaves the loop to the next key. -/
theorem settle_decodeFailure (texts : Texts) (offset : ℕ) (h : call.Recordable a)
    (he : a.outcome = .error e) (hd : call.decodeFailure e = true) :
    ∃ evidence, (call.settle texts offset a).2 =
      .failed { e with failureEvidence := some evidence } := by
  have hreadable := h e he
  simp only [hd, if_true] at hreadable
  unfold Call.settle
  simp only [he, hd, if_true]
  cases hevidence : e.failureEvidence with
  | some evidence =>
    refine ⟨evidence, ?_⟩
    simp only [← hevidence]
  | none =>
    obtain ⟨evidence, hok⟩ := (decodeEvidence_ok texts a.envelope e).2 (hreadable hevidence)
    simp only [hok]
    exact ⟨evidence, rfl⟩

/-- An exception of the handlers escapes exactly from the attempts that are not
    recordable. -/
theorem settle_escapes (call : Call T) (a : Attempt T) (texts : Texts) (offset : ℕ) :
    (∃ x, (call.settle texts offset a).2 = .ended (.escaped x)) ↔ ¬ call.Recordable a := by
  unfold Call.settle Call.Recordable
  cases a.outcome with
  | ok t => simp
  | error e =>
    simp only [Except.error.injEq, forall_eq']
    cases call.decodeFailure e with
    | true =>
      simp only [if_true]
      cases e.failureEvidence with
      | some evidence => simp
      | none =>
        simp only [forall_const, ← decodeEvidence_ok texts]
        cases decodeEvidence texts a.envelope e with
        | error x => simp
        | ok evidence => simp
    | false =>
      simp only [Bool.false_eq_true, if_false]
      cases e.http with
      | none =>
        dsimp only
        split <;> simp
      | some reply =>
        simp only [Option.some.injEq, forall_eq', ← httpFailureEvidence_ok reply call.model call.purpose]
        cases httpFailureEvidence reply call.model call.purpose with
        | error classes => simp
        | ok evidence =>
          dsimp only
          split <;> simp

/-- The handlers of a recordable attempt record it once. -/
theorem settle_recorded (texts : Texts) (offset : ℕ) (h : call.Recordable a) :
    ∃ outcome retryAfter usageMetadata version, (call.settle texts offset a).1 =
      Call.record offset a outcome retryAfter usageMetadata version := by
  unfold Call.settle Call.Recordable at *
  cases houtcome : a.outcome with
  | ok t => exact ⟨_, _, _, _, rfl⟩
  | error e =>
    have hreadable := h e houtcome
    dsimp only
    split
    · exact ⟨_, _, _, _, rfl⟩
    · next hd =>
      rw [if_neg hd] at hreadable
      cases hhttp : e.http with
      | none =>
        dsimp only
        split <;> exact ⟨_, _, _, _, rfl⟩
      | some reply =>
        obtain ⟨evidence, hok⟩ :=
          (httpFailureEvidence_ok reply call.model call.purpose).2 (hreadable reply hhttp)
        simp only [hok]
        exact ⟨_, _, _, _, rfl⟩

/-! ## Runs -/

/-- The events of an attempt of a key. -/
def Call.passes (call : Call T) (texts : Texts) (offset : ℕ) (key : String) (a : Attempt T) : List Event :=
  .tried offset :: .reserved offset key call.usage ::
    (if a.sent then [.attempted offset] else []) ++ (call.settle texts offset a).1

/-- The batch after an offset asked for its reservation. -/
def Call.asks (call : Call T) (g : GeminiModelGateway) (turn : ℕ → Turn) (offset : ℕ) (s : Batch) : Bool × Batch :=
  g.reserve (g.keyAt call.startIndex offset) (turn offset).grants (g.after (turn offset).others s)

/-- The runs of the loop. -/
inductive Runs (call : Call T) (g : GeminiModelGateway) (texts : Texts) (refusal : Refusal)
    (turn : ℕ → Turn) : List ℕ → Option PyError → Batch → Run T → Prop
  | done (last : Option PyError) (s : Batch) :
      Runs call g texts refusal turn [] last s ⟨[], [], call.giveUp refusal last, s⟩
  | refused (offset : ℕ) (offsets : List ℕ) (last : Option PyError) (s : Batch) (run : Run T)
      (hr : (call.asks g turn offset s).1 = false)
      (h : Runs call g texts refusal turn offsets last (call.asks g turn offset s).2 run) :
      Runs call g texts refusal turn (offset :: offsets) last s
        { run with events := .tried offset :: run.events }
  | ended (offset : ℕ) (offsets : List ℕ) (last : Option PyError) (s : Batch) (how : End T)
      (hr : (call.asks g turn offset s).1 = true)
      (hv : (call.settle texts offset (call.attempt (turn offset))).2 = .ended how) :
      Runs call g texts refusal turn (offset :: offsets) last s
        ⟨call.passes texts offset (g.keyAt call.startIndex offset) (call.attempt (turn offset)),
          [(offset, call.attempt (turn offset))], how, (call.asks g turn offset s).2⟩
  | failed (offset : ℕ) (offsets : List ℕ) (last : Option PyError) (s : Batch) (e : PyError)
      (run : Run T) (hr : (call.asks g turn offset s).1 = true)
      (hv : (call.settle texts offset (call.attempt (turn offset))).2 = .failed e)
      (h : Runs call g texts refusal turn offsets (some e) (call.asks g turn offset s).2 run) :
      Runs call g texts refusal turn (offset :: offsets) last s
        { run with
          events := call.passes texts offset (g.keyAt call.startIndex offset)
            (call.attempt (turn offset)) ++ run.events
          received := (offset, call.attempt (turn offset)) :: run.received }

theorem tries_runs (offsets : List ℕ) (last : Option PyError) (s : Batch) :
    Runs call g texts refusal turn offsets last s
      (call.tries g texts refusal turn offsets last s) := by
  induction offsets generalizing last s with
  | nil => exact .done last s
  | cons offset offsets ih =>
    unfold Call.tries
    cases hr : (call.asks g turn offset s).1 with
    | false =>
      have hreserve := hr
      unfold Call.asks at hreserve
      simpa only [Call.asks, hreserve, Bool.false_eq_true, if_false] using
        Runs.refused offset offsets last s _ hr (ih last _)
    | true =>
      have hreserve := hr
      unfold Call.asks at hreserve
      cases hv : (call.settle texts offset (call.attempt (turn offset))).2 with
      | ended how =>
        simpa only [Call.asks, Call.passes, hreserve, hv, if_true] using
          Runs.ended offset offsets last s how hr hv
      | failed e =>
        simpa only [Call.asks, Call.passes, hreserve, hv, if_true] using
          Runs.failed offset offsets last s e _ hr hv (ih (some e) _)

theorem giveUp_decodeFailure {evidence : PyJson} (hhttp : e.http = none)
    (hd : call.decodeFailure e = true) :
    call.giveUp refusal (some { e with failureEvidence := some evidence }) =
      .responseInvalid e.typeName e.text (some evidence) := by
  unfold Call.giveUp
  dsimp only
  rw [hhttp, Option.isSome_none, if_neg Bool.false_ne_true]
  exact if_pos hd

namespace Runs

variable (h : Runs call g texts refusal turn offsets last s run)
include h

/-- A run that received nothing gives up as it started. -/
theorem result_of_nil (hnil : run.received = []) : run.result = call.giveUp refusal last := by
  induction h with
  | done last s => rfl
  | refused offset offsets last s run hr h ih => exact ih hnil
  | ended offset offsets last s how hr hv => cases hnil
  | failed offset offsets last s e run hr hv h ih => cases hnil

/-- The first key left is tried. -/
theorem tried_head {offsets' : List ℕ} (hoffsets : offsets = offset :: offsets') :
    .tried offset ∈ run.events := by
  cases h with
  | done => cases hoffsets
  | refused offset' offsets last s run hr h =>
    cases hoffsets
    exact List.mem_cons_self
  | ended offset' offsets last s how hr hv =>
    cases hoffsets
    exact List.mem_cons_self
  | failed offset' offsets last s e run hr hv h =>
    cases hoffsets
    exact List.mem_append_left _ List.mem_cons_self

/-- Nothing escapes iff what was received is recordable. -/
theorem escapes_iff : (∀ x, run.result ≠ .escaped x) ↔ ∀ p ∈ run.received, call.Recordable p.2 := by
  induction h with
  | done last s =>
    have hresult (x : PyError) : call.giveUp refusal last ≠ .escaped x := by
      cases last with
      | none => simp [Call.giveUp]
      | some e =>
        simp only [Call.giveUp]
        split_ifs <;> simp
    simpa using hresult
  | refused offset offsets last s run hr h ih => exact ih
  | ended offset offsets last s how hr hv =>
    have hescapes := settle_escapes call (call.attempt (turn offset)) texts offset
    simp only [hv, Verdict.ended.injEq] at hescapes
    simp only [List.mem_singleton, forall_eq]
    rw [← not_exists, hescapes, not_not]
  | failed offset offsets last s e run hr hv h ih =>
    have hrecordable : call.Recordable (call.attempt (turn offset)) := by
      by_contra hnot
      obtain ⟨x, hx⟩ := (settle_escapes call _ texts offset).2 hnot
      rw [hv] at hx
      cases hx
    rw [List.forall_mem_cons, and_iff_right hrecordable]
    exact ih

/-- A result received is the result of the run. -/
theorem first_success {k : ℕ} {t : T} (hp : (k, a) ∈ run.received) (ht : a.outcome = .ok t) :
    ∃ version, run.result = .returned t version := by
  induction h with
  | done last s => cases hp
  | refused offset offsets last s run hr h ih => exact ih hp
  | ended offset offsets last s how hr hv =>
    obtain ⟨rfl, rfl⟩ := Prod.mk.inj (List.mem_singleton.1 hp)
    obtain ⟨version, hreturned⟩ := settle_ok call texts k ht
    rw [hv] at hreturned
    exact ⟨version, Verdict.ended.inj hreturned⟩
  | failed offset offsets last s e run hr hv h ih =>
    rcases List.mem_cons.1 hp with hp | hp
    · obtain ⟨rfl, rfl⟩ := Prod.mk.inj hp
      obtain ⟨version, hreturned⟩ := settle_ok call texts k ht
      rw [hv] at hreturned
      cases hreturned
    · exact ih hp

/-- A failure to decode leaves the run to the next key. -/
theorem moves_on (hreadable : ∀ p ∈ run.received, call.Recordable p.2) {m n k : ℕ}
    (hoffsets : offsets = List.range' m n) (hp : (k, a) ∈ run.received)
    (he : a.outcome = .error e) (hd : call.decodeFailure e = true) (hk : k + 1 < m + n) :
    .tried (k + 1) ∈ run.events := by
  induction h generalizing m n with
  | done last s => cases hp
  | refused offset offsets last s run hr h ih =>
    obtain _ | n := n
    · cases hoffsets
    · obtain ⟨rfl, hoffsets⟩ := List.cons.inj (hoffsets.trans List.range'_succ)
      exact List.mem_cons_of_mem _ (ih hreadable hoffsets hp (by omega))
  | ended offset offsets last s how hr hv =>
    obtain ⟨rfl, rfl⟩ := Prod.mk.inj (List.mem_singleton.1 hp)
    obtain ⟨evidence, hfailed⟩ := settle_decodeFailure texts k
      (hreadable _ (List.mem_singleton_self _)) he hd
    rw [hv] at hfailed
    cases hfailed
  | failed offset offsets last s e' run hr hv h ih =>
    obtain _ | n := n
    · cases hoffsets
    obtain ⟨rfl, hoffsets⟩ := List.cons.inj (hoffsets.trans List.range'_succ)
    rcases List.mem_cons.1 hp with hp | hp
    · obtain ⟨rfl, -⟩ := Prod.mk.inj hp
      obtain ⟨n', rfl⟩ : ∃ n', n = n' + 1 := ⟨n - 1, by omega⟩
      exact List.mem_append_right _ (h.tried_head (hoffsets.trans List.range'_succ))
    · exact List.mem_append_right _
        (ih (fun p hp => hreadable p (List.mem_cons_of_mem _ hp)) hoffsets hp (by omega))

/-- A failure to decode that is the last one ends the run with its evidence. -/
theorem last_failure (hreadable : ∀ p ∈ run.received, call.Recordable p.2) {k : ℕ}
    (hlast : run.received.getLast? = some (k, a)) (he : a.outcome = .error e)
    (hd : call.decodeFailure e = true) (hhttp : e.http = none) :
    ∃ evidence, run.result = .responseInvalid e.typeName e.text (some evidence) := by
  induction h with
  | done last s => cases hlast
  | refused offset offsets last s run hr h ih => exact ih hreadable hlast
  | ended offset offsets last s how hr hv =>
    obtain ⟨rfl, rfl⟩ := Prod.mk.inj (Option.some.inj hlast)
    obtain ⟨evidence, hfailed⟩ := settle_decodeFailure texts offset
      (hreadable _ (List.mem_singleton_self _)) he hd
    rw [hv] at hfailed
    cases hfailed
  | failed offset offsets last s e' run hr hv h ih =>
    cases hreceived : run.received with
    | nil =>
      simp only [hreceived, List.getLast?_singleton, Option.some.injEq] at hlast
      obtain ⟨rfl, rfl⟩ := Prod.mk.inj hlast
      obtain ⟨evidence, hfailed⟩ := settle_decodeFailure texts offset
        (hreadable _ List.mem_cons_self) he hd
      rw [hv] at hfailed
      obtain rfl := Verdict.failed.inj hfailed
      refine ⟨evidence, ?_⟩
      exact (h.result_of_nil hreceived).trans (giveUp_decodeFailure hhttp hd)
    | cons p received =>
      refine ih (fun p hp => hreadable p (List.mem_cons_of_mem _ hp)) ?_
      rw [← hlast, hreceived, List.getLast?_cons_cons]

end Runs

/-! ## Records and reservations -/

def Event.isTried : Event → Bool
  | .tried _ => true
  | _ => false

def Event.isRecorded : Event → Bool
  | .recorded .. => true
  | _ => false

def Event.reservedKey : Event → Option String
  | .reserved _ key _ => some key
  | _ => none

/-- Every request sent is recorded once before the next key is tried. -/
def RecordedOnce (events : List Event) : Prop :=
  ∀ before offset rest, events = before ++ .attempted offset :: rest →
    (rest.takeWhile fun event => !event.isTried).countP Event.isRecorded = 1

/-- What follows an attempt: the next key, or the end. -/
def Opens (events : List Event) : Prop := ∀ event ∈ events.head?, event.isTried = true

theorem recordedOnce_nil : RecordedOnce [] := by
  intro before offset rest h
  cases before <;> cases h

theorem recordedOnce_cons {event : Event} {events : List Event}
    (hevent : ∀ offset, event ≠ .attempted offset) (h : RecordedOnce events) :
    RecordedOnce (event :: events) := by
  intro before offset rest hsplit
  cases before with
  | nil => exact absurd (List.cons.inj hsplit).1 (hevent offset)
  | cons event' before => exact h before offset rest (List.cons.inj hsplit).2

theorem recordedOnce_attempted {offset : ℕ} {event : Event} {events : List Event}
    (hevent : event.isRecorded = true) (hopens : Opens events) (h : RecordedOnce events) :
    RecordedOnce (.attempted offset :: event :: events) := by
  intro before offset' rest hsplit
  cases before with
  | nil =>
    obtain ⟨-, rfl⟩ := List.cons.inj hsplit
    have hrest : events.takeWhile (fun event => !event.isTried) = [] := by
      cases events with
      | nil => rfl
      | cons event' events => simp [hopens event' rfl]
    cases event with
    | recorded =>
      rw [List.takeWhile_cons_of_pos rfl, hrest]
      rfl
    | tried | reserved | attempted => cases hevent
  | cons event' before =>
    refine recordedOnce_cons (fun k hk => ?_) h before offset' rest (List.cons.inj hsplit).2
    rw [hk] at hevent
    cases hevent

theorem recordedOnce_passes (texts : Texts) {key : String} {events : List Event} (ha : call.Recordable a)
    (hopens : Opens events) (h : RecordedOnce events) :
    RecordedOnce (call.passes texts offset key a ++ events) := by
  obtain ⟨outcome, retryAfter, usageMetadata, version, hrecorded⟩ := settle_recorded texts offset ha
  unfold Call.passes
  rw [hrecorded]
  refine recordedOnce_cons (fun k hk => ?_) (recordedOnce_cons (fun k hk => ?_) ?_)
  · cases hk
  · cases hk
  cases hsent : a.sent with
  | false => simpa [Call.record, hsent] using h
  | true =>
    simp only [Call.record, hsent, if_true]
    exact recordedOnce_attempted rfl hopens h

theorem settle_reservedKey (texts : Texts) (offset : ℕ) (a : Attempt T) :
    (call.settle texts offset a).1.filterMap Event.reservedKey = [] := by
  have hrecord (outcome : ProviderOutcome) (retryAfter : Option ℤ)
      (usageMetadata : Option (List (String × PyJson))) (version : Option PyStr) :
      (Call.record offset a outcome retryAfter usageMetadata version).filterMap
        Event.reservedKey = [] := by
    unfold Call.record
    split <;> rfl
  unfold Call.settle
  cases a.outcome with
  | ok t => exact hrecord _ _ _ _
  | error e =>
    dsimp only
    split
    · exact hrecord _ _ _ _
    · cases e.http with
      | none =>
        dsimp only
        split
        · exact hrecord _ _ _ _
        · exact hrecord _ _ _ _
      | some reply =>
        cases hevidence : httpFailureEvidence reply call.model call.purpose with
        | error classes => simp only [hevidence, List.filterMap_nil]
        | ok evidence => simpa only [hevidence] using hrecord _ _ _ _

theorem passes_reservedKey (texts : Texts) (offset : ℕ) (key : String) (a : Attempt T) :
    (call.passes texts offset key a).filterMap Event.reservedKey = [key] := by
  have hsent : (if a.sent then [Event.attempted offset] else []).filterMap Event.reservedKey = [] := by
    split <;> rfl
  have hreserved : Event.reservedKey (.reserved offset key call.usage) = some key := rfl
  simp only [Call.passes, List.filterMap_append, settle_reservedKey, List.append_nil]
  rw [List.filterMap_cons_none rfl, List.filterMap_cons_some hreserved, hsent]

namespace Runs

variable (h : Runs call g texts refusal turn offsets last s run)
include h

theorem opens : Opens run.events := by
  cases h with
  | done => exact fun event hevent => by cases hevent
  | refused => exact fun event hevent => Option.some.inj hevent ▸ rfl
  | ended => exact fun event hevent => Option.some.inj hevent ▸ rfl
  | failed => exact fun event hevent => Option.some.inj hevent ▸ rfl

theorem recordedOnce (hreadable : ∀ p ∈ run.received, call.Recordable p.2) :
    RecordedOnce run.events := by
  induction h with
  | done last s => exact recordedOnce_nil
  | refused offset offsets last s run hr h ih =>
    refine recordedOnce_cons (fun k hk => ?_) (ih hreadable)
    cases hk
  | ended offset offsets last s how hr hv =>
    have hopens : Opens [] := fun event hevent => by cases hevent
    simpa using recordedOnce_passes texts (hreadable _ (List.mem_singleton_self _))
      hopens recordedOnce_nil
  | failed offset offsets last s e run hr hv h ih =>
    exact recordedOnce_passes texts (hreadable _ List.mem_cons_self) h.opens
      (ih fun p hp => hreadable p (List.mem_cons_of_mem _ hp))

/-- The keys reserved are those of offsets, each once. -/
theorem reserved_sublist : (run.events.filterMap Event.reservedKey).Sublist
    (offsets.map (g.keyAt call.startIndex)) := by
  induction h with
  | done last s => exact List.Sublist.slnil
  | refused offset offsets last s run hr h ih => exact ih.cons _
  | ended offset offsets last s how hr hv =>
    rw [passes_reservedKey]
    exact List.Sublist.cons_cons _ (List.nil_sublist _)
  | failed offset offsets last s e run hr hv h ih =>
    rw [List.filterMap_append, passes_reservedKey]
    exact ih.cons_cons _

end Runs


namespace GeminiModelGateway

/-- The reservations granted of those asked for. -/
def granted (g : GeminiModelGateway) : List (String × Bool) → Batch → List String
  | [], _ => []
  | (key, grants) :: asked, s =>
    (if (g.reserve key grants s).1 then [key] else []) ++ g.granted asked (g.reserve key grants s).2

/-- The counts of the batch are within the limits. -/
structure Within (g : GeminiModelGateway) (s : Batch) : Prop where
  counts : ∀ key, s.counts key ≤ g.requestsPerKey
  total : ∀ limit, g.batchLimit = some limit → s.total ≤ limit.toNat

/-- A reservation is counted, and made below both limits. -/
theorem reserve_cases (g : GeminiModelGateway) (key : String) (grants : Bool) (s : Batch) :
    g.reserve key grants s = (false, s) ∨
      (s.counts key < g.requestsPerKey ∧
        (∀ limit, g.batchLimit = some limit → (s.total : ℤ) < limit) ∧
        g.reserve key grants s =
          (true, ⟨Function.update s.counts key (s.counts key + 1), s.total + 1⟩)) := by
  unfold reserve
  split
  · exact Or.inl rfl
  · next hbatch =>
    split
    · exact Or.inl rfl
    · next hkey =>
      split
      · exact Or.inl rfl
      · refine Or.inr ⟨by omega, fun limit hlimit => ?_, rfl⟩
        simp only [batchFull, hlimit, decide_eq_true_eq] at hbatch
        omega

variable {g : GeminiModelGateway} {s : Batch}

theorem within_reserve (h : g.Within s) (key : String) (grants : Bool) :
    g.Within (g.reserve key grants s).2 := by
  rcases g.reserve_cases key grants s with heq | ⟨hkey, hbatch, heq⟩
  · rw [heq]
    exact h
  · rw [heq]
    constructor
    · intro key'
      by_cases hk : key' = key
      · subst hk
        simpa using hkey
      · simpa [Function.update_of_ne hk] using h.counts key'
    · intro limit hlimit
      have := hbatch limit hlimit
      simp only
      omega

theorem within_after (h : g.Within s) (asked : List (String × Bool)) : g.Within (g.after asked s) := by
  induction asked generalizing s with
  | nil => exact h
  | cons r asked ih => exact ih (within_reserve h r.1 r.2)

/-- The batch counts what was granted. -/
theorem counts_after (g : GeminiModelGateway) (asked : List (String × Bool)) (s : Batch) :
    (∀ key, (g.after asked s).counts key = s.counts key + (g.granted asked s).count key) ∧
      (g.after asked s).total = s.total + (g.granted asked s).length := by
  induction asked generalizing s with
  | nil => exact ⟨fun _ => rfl, rfl⟩
  | cons r asked ih =>
    obtain ⟨key, grants⟩ := r
    obtain ⟨hcounts, htotal⟩ := ih (g.reserve key grants s).2
    rw [after, List.foldl_cons, ← after, granted]
    rcases g.reserve_cases key grants s with heq | ⟨-, -, heq⟩
    · rw [heq] at hcounts htotal
      rw [heq]
      exact ⟨hcounts, htotal⟩
    · rw [heq] at hcounts htotal
      rw [heq]
      refine ⟨fun key' => ?_, ?_⟩
      · rw [hcounts key']
        by_cases hk : key' = key
        · subst hk
          simp [Nat.add_assoc]
          omega
        · simp [Function.update_of_ne hk, Ne.symm hk]
      · rw [htotal]
        simp
        omega

/-- What is granted stays within the limits. -/
theorem granted_within (g : GeminiModelGateway) (asked : List (String × Bool)) :
    (∀ key, (g.granted asked .empty).count key ≤ g.requestsPerKey) ∧
      ∀ limit, g.batchLimit = some limit → (g.granted asked .empty).length ≤ limit.toNat := by
  have hempty : g.Within .empty := ⟨fun _ => Nat.zero_le _, fun _ _ => Nat.zero_le _⟩
  have hwithin := within_after hempty asked
  obtain ⟨hcounts, htotal⟩ := g.counts_after asked .empty
  refine ⟨fun key => ?_, fun limit hlimit => ?_⟩
  · have := hwithin.counts key
    rw [hcounts key] at this
    simpa [Batch.empty] using this
  · have := hwithin.total limit hlimit
    rw [htotal] at this
    simpa [Batch.empty] using this

theorem after_append (g : GeminiModelGateway) (asked more : List (String × Bool)) (s : Batch) :
    g.after (asked ++ more) s = g.after more (g.after asked s) := List.foldl_append

theorem granted_append (g : GeminiModelGateway) (asked more : List (String × Bool)) (s : Batch) :
    g.granted (asked ++ more) s = g.granted asked s ++ g.granted more (g.after asked s) := by
  induction asked generalizing s with
  | nil => rfl
  | cons r asked ih => rw [List.cons_append, granted, granted, ih, List.append_assoc]; rfl

/-- The offsets of a call visit every entry of the key tuple. -/
theorem keys_perm (g : GeminiModelGateway) (startIndex : ℤ) :
    ((List.range g.apiKeys.length).map (g.keyAt startIndex)).Perm g.apiKeys := by
  have hpos : 0 < g.apiKeys.length := List.length_pos_iff.2 g.nonempty
  have hpos' : (0 : ℤ) < g.apiKeys.length := by exact_mod_cast hpos
  have hrotate : (List.range g.apiKeys.length).map (g.keyAt startIndex) =
      g.apiKeys.rotate (startIndex % g.apiKeys.length).toNat := by
    refine List.ext_getElem (by simp) fun k hk hk' => ?_
    have hindex : ((startIndex + k) % (g.apiKeys.length : ℤ)).toNat =
        (k + (startIndex % g.apiKeys.length).toNat) % g.apiKeys.length := by
      zify
      rw [Int.toNat_of_nonneg (Int.emod_nonneg _ hpos'.ne'),
        Int.toNat_of_nonneg (Int.emod_nonneg _ hpos'.ne'), Int.add_emod_emod, add_comm]
    rw [List.getElem_rotate, List.getElem_map, List.getElem_range, keyAt, hindex]
    exact List.getD_eq_getElem _ _ _
  rw [hrotate]
  exact List.rotate_perm _ _

end GeminiModelGateway

/-- The reservations of a run are among those granted until its end. -/
theorem Runs.reserved_granted (h : Runs call g texts refusal turn offsets last s run) :
    ∃ asked, run.batch = g.after asked s ∧
      (run.events.filterMap Event.reservedKey).Sublist (g.granted asked s) := by
  have hgranted (offset : ℕ) (s : Batch) :
      (call.asks g turn offset s).2 =
        g.after ((turn offset).others ++ [(g.keyAt call.startIndex offset, (turn offset).grants)]) s ∧
      ((call.asks g turn offset s).1 = true →
        [g.keyAt call.startIndex offset].Sublist (g.granted ((turn offset).others ++
          [(g.keyAt call.startIndex offset, (turn offset).grants)]) s)) := by
    refine ⟨?_, fun hr => ?_⟩
    · rw [g.after_append]
      rfl
    rw [g.granted_append]
    refine List.Sublist.trans ?_ (List.sublist_append_right _ _)
    unfold Call.asks at hr
    simp [GeminiModelGateway.granted, hr]
  induction h with
  | done last s => exact ⟨[], rfl, List.Sublist.slnil⟩
  | refused offset offsets last s run hr h ih =>
    obtain ⟨asked, hbatch, hsublist⟩ := ih
    obtain ⟨hasks, -⟩ := hgranted offset s
    rw [hasks, ← g.after_append] at hbatch
    rw [hasks] at hsublist
    refine ⟨_, hbatch, ?_⟩
    rw [g.granted_append]
    exact hsublist.trans (List.sublist_append_right _ _)
  | ended offset offsets last s how hr hv =>
    obtain ⟨hasks, hkey⟩ := hgranted offset s
    refine ⟨_, hasks, ?_⟩
    rw [passes_reservedKey]
    exact hkey hr
  | failed offset offsets last s e run hr hv h ih =>
    obtain ⟨asked, hbatch, hsublist⟩ := ih
    obtain ⟨hasks, hkey⟩ := hgranted offset s
    rw [hasks, ← g.after_append] at hbatch
    rw [hasks] at hsublist
    refine ⟨_, hbatch, ?_⟩
    rw [List.filterMap_append, passes_reservedKey, g.granted_append]
    exact (hkey hr).append hsublist

/-! ## Calls -/

/-- What a call that started at `s` leaves with the accountant and its caller. -/
structure Accounted (call : Call T) (g : GeminiModelGateway) (s : Batch) (run : Run T) : Prop where
  /-- Every entry of the key tuple is reserved at most once. -/
  oncePerKey : ∀ key, (run.events.filterMap Event.reservedKey).count key ≤ g.apiKeys.count key
  /-- Its reservations are among those that the gateway granted. -/
  granted : ∃ asked, run.batch = g.after asked s ∧
    (run.events.filterMap Event.reservedKey).Sublist (g.granted asked s)
  recordedOnce : RecordedOnce run.events
  /-- A failure to decode is followed by the next key. -/
  movesOn : ∀ k a e, (k, a) ∈ run.received → a.outcome = .error e → call.decodeFailure e = true →
    k + 1 < g.apiKeys.length → .tried (k + 1) ∈ run.events
  firstSuccess : ∀ k a t, (k, a) ∈ run.received → a.outcome = .ok t →
    ∃ version, run.result = .returned t version
  /-- A failure to decode that is the last one is returned with its evidence. -/
  lastFailure : ∀ k a e, run.received.getLast? = some (k, a) → a.outcome = .error e →
    call.decodeFailure e = true → e.http = none →
      ∃ evidence, run.result = .responseInvalid e.typeName e.text (some evidence)
  /-- No exception is raised while another is recorded. -/
  noneEscapes : ∀ x, run.result ≠ .escaped x

theorem accounted_of_runs (h : Runs call g texts refusal turn (List.range g.apiKeys.length) none s run) :
    Accounted call g s run ↔ ∀ p ∈ run.received, call.Recordable p.2 := by
  constructor
  · intro haccounted
    exact h.escapes_iff.1 haccounted.noneEscapes
  · intro hreadable
    refine ⟨fun key => ?_, h.reserved_granted, h.recordedOnce hreadable, ?_,
      fun k a t hp ht => h.first_success hp ht,
      fun k a e hlast he hd hhttp => h.last_failure hreadable hlast he hd hhttp,
      h.escapes_iff.2 hreadable⟩
    · exact (h.reserved_sublist.count_le key).trans ((g.keys_perm call.startIndex).count_eq key).le
    · intro k a e hp he hd hk
      have hrange : List.range g.apiKeys.length = List.range' 0 g.apiKeys.length := List.range_eq_range'
      exact h.moves_on hreadable hrange hp he hd (by omega)

/-- **Accounted calls.** The reservations of a gateway, by any calls in any
    order, stay within its limits. A call leaves all its attempts recorded,
    takes a failure to decode to the next key and ends with the first success
    or the evidence of the last failure, if and only if the handlers can
    collect the evidence of everything that it receives. -/
theorem generate_accounted_iff (g : GeminiModelGateway) (texts : Texts) (asked : List (String × Bool)) :
    ((∀ key, (g.granted asked .empty).count key ≤ g.requestsPerKey) ∧
      ∀ limit, g.batchLimit = some limit → (g.granted asked .empty).length ≤ limit.toNat) ∧
    ∀ (call : Call T) (refusal : Refusal) (turn : ℕ → Turn),
      Accounted call g (g.after asked .empty)
          (call.generate g texts refusal turn (g.after asked .empty)) ↔
        ∀ p ∈ (call.generate g texts refusal turn (g.after asked .empty)).received,
          call.Recordable p.2 := by
  refine ⟨g.granted_within asked, fun call refusal turn => ?_⟩
  unfold Call.generate
  split
  · refine ⟨fun _ p hp => ?_, fun _ => ?_⟩
    · cases hp
    · refine ⟨fun key => Nat.zero_le _, ⟨[], rfl, List.Sublist.slnil⟩, recordedOnce_nil,
        fun k a e hp => ?_, fun k a t hp => ?_, fun k a e hlast => ?_, fun x hx => ?_⟩
      · cases hp
      · cases hp
      · cases hlast
      · cases hx
  · exact accounted_of_runs (tries_runs _ _ _)

def firstKeySecondKey : GeminiModelGateway := ⟨["first", "second"], 1, none, by decide, by decide⟩

def reviewCall : Call Unit where
  startIndex := 0
  model := "gemini"
  purpose := "review"
  inputTokens := 10
  promptContract := none
  estimatorVersion := "v1"
  decode := fun _ => .error ⟨["ValueError", "Exception"], PyStr.of "no review", none, none⟩
  retryableHttpCodes := []
  retryableDecodeErrors := ["ValueError"]

/-- A response whose first candidate is a text. -/
def textCandidate : PyJson := .dict [(PyStr.of "candidates", .list [pyString "x"])]

def answersTextCandidate : ℕ → Turn := fun _ => ⟨[], true, none, .ok textCandidate⟩

/-- A response whose first candidate is not an object ends the call at the first
    key, by an exception of the handler: the second key is not tried. -/
theorem not_accounted_textCandidate :
    ¬ Accounted reviewCall firstKeySecondKey .empty
      (reviewCall.generate firstKeySecondKey ⟨fun _ => [], fun _ => []⟩ ⟨none, none, none⟩
        answersTextCandidate .empty) := by
  intro h
  have hnext := h.movesOn 0 _ _ List.mem_cons_self rfl rfl (by decide)
  rcases hnext with _ | ⟨_, _ | ⟨_, _ | ⟨_, _ | ⟨_, hnext⟩⟩⟩⟩
  cases hnext

end Xauusd.Gateway
