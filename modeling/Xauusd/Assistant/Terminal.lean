/-
  Every terminal turn ends with its terminal event.

  * `Ended`: no terminal event while the turn is active, and then one, the
    last, that matches the status;
  * `Sound`: the events of every turn carry the sequences up to its counter,
    and have ended as its status says;
  * `Ending.Slips`, `Completion.Slips`: where the batch finds the counter moved
    by as many events as it inserts itself, so that the status passes its guard
    without the terminal event (or the reverse);
  * `sound_land`: a batch that does not slip keeps `Sound`;
  * `terminal_event_last`: **along requests whose batches do not slip, every
    terminal turn ends with its terminal event**.
-/
import Xauusd.Assistant.Landing

namespace Xauusd.Assistant

open Program

/-! ## Soundness -/

/-- The terminal event of the status. -/
def Phase.endsWith : Phase → EventBody → Bool
  | answered _ _, .conversationCompleted => true
  | ended o _ _, .error _ _ _ => o ≠ .cancelled
  | ended o _ _, .cancelled _ => o = .cancelled
  | _, _ => false

/-- How the events of a turn end, as its status has it. -/
def Ended (phase : Phase) (events : List Event) : Prop :=
  if phase.active then ∀ e ∈ events, e.body.terminal = false
  else ∃ init e, events = init ++ [e] ∧ phase.endsWith e.body = true ∧ ∀ e' ∈ init, e'.body.terminal = false

theorem terminal_of_endsWith {phase : Phase} {b : EventBody} (h : phase.endsWith b = true) : b.terminal = true := by
  cases phase <;> cases b <;> first | rfl | cases h

theorem ended_active {phase : Phase} {events : List Event} (h : phase.active = true) :
    Ended phase events ↔ ∀ e ∈ events, e.body.terminal = false := by
  rw [Ended, if_pos h]

theorem ended_closed {phase : Phase} {events : List Event} (h : phase.active = false) :
    Ended phase events ↔ ∃ init e, events = init ++ [e] ∧ phase.endsWith e.body = true ∧
      ∀ e' ∈ init, e'.body.terminal = false := by
  rw [Ended, if_neg (by rw [h]; exact Bool.false_ne_true)]

/-- The events of the turn carry the sequences up to its counter, and end as
    its status says. -/
structure TurnSound (s : Store) (t : Turn) : Prop where
  sequences : (s.stream t.id).map (·.sequence) = List.range' 1 t.eventSequence
  ends : Ended t.phase (s.stream t.id)

def Sound (s : Store) : Prop := ∀ t ∈ s.turns, TurnSound s t

variable {s s' : Store}

theorem sound_quiet (h : Sound s) (hquiet : Quiet s s') : Sound s' := by
  intro t ht
  rw [hquiet.1] at ht
  obtain ⟨hsequences, hends⟩ := h t ht
  have hstream : s'.stream t.id = s.stream t.id := by rw [Store.stream, hquiet.2, Store.stream]
  exact ⟨hstream ▸ hsequences, hstream ▸ hends⟩

/-- A move keeps `Sound` when the turn that changed has ended as it should. -/
theorem sound_moves {t t' : Turn} {es : List Event} (h : Sound s) (hmoves : Moves s s' t t' es)
    (hends : Ended t'.phase (s.stream t.id ++ es)) : Sound s' := by
  intro r hr
  rcases hmoves.mem_iff.1 hr with rfl | ⟨hr, hid⟩
  · refine ⟨hmoves.stream_sequences (h t hmoves.mem).sequences, ?_⟩
    rw [hmoves.id, hmoves.stream_self]
    exact hends
  · have hstream := hmoves.stream_other hid
    obtain ⟨hsequences, hends⟩ := h r hr
    exact ⟨hstream ▸ hsequences, hstream ▸ hends⟩

/-- Events that are not terminal, on a turn that stays active. -/
theorem sound_progress {t t' : Turn} {es : List Event} (h : Sound s) (hmoves : Moves s s' t t' es)
    (hactive : t.phase.active = true) (hactive' : t'.phase.active = true)
    (hes : ∀ e ∈ es, e.body.terminal = false) : Sound s' := by
  refine sound_moves h hmoves ((ended_active hactive').2 fun e he => ?_)
  rcases List.mem_append.1 he with he | he
  · exact (ended_active hactive).1 (h t hmoves.mem).ends e he
  · exact hes e he

/-- The terminal event, on a turn that was active. -/
theorem sound_close {t t' : Turn} {es : List Event} {e : Event} (h : Sound s) (hmoves : Moves s s' t t' (es ++ [e]))
    (hactive : t.phase.active = true) (hclosed : t'.phase.active = false)
    (hes : ∀ e' ∈ es, e'.body.terminal = false) (he : t'.phase.endsWith e.body = true) : Sound s' := by
  refine sound_moves h hmoves ((ended_closed hclosed).2 ⟨s.stream t.id ++ es, e, ?_, he, ?_⟩)
  · rw [List.append_assoc]
  · intro e' he'
    rcases List.mem_append.1 he' with he' | he'
    · exact (ended_active hactive).1 (h t hmoves.mem).ends e' he'
    · exact hes e' he'

/-! ## Where a batch slips -/

/-- One event came between the read of `terminalizeTurn` and its batch. -/
def Ending.Slips (s : Store) (c : Ending) : Prop :=
  ∃ t ∈ s.turns, t.id = c.turn ∧ t.phase.active = true ∧ t.eventSequence = c.sequence + 1

/-- As many events came between the read of `completeAssistantChatTurn` and its
    batch as it has itself; or all but one, with an answer message. -/
def Completion.Slips (s : Store) (c : Completion) : Prop :=
  ∃ t ∈ s.turns, t.id = c.turn ∧ t.heldBy c.token c.now = true ∧
    ((t.eventSequence = c.sequence + c.drafts.length ∧ ¬ s.answers t.id) ∨
      (t.eventSequence + 1 = c.sequence + c.drafts.length ∧ s.answers t.id ∧
        ∀ e ∈ s.events, e.turn = t.id → e.key ≠ "completion:conversation-completed"))

def Batch.Slips (s : Store) : Batch → Prop
  | terminalize c => c.Slips s
  | complete c => c.Slips s
  | _ => False

instance (s : Store) (c : Ending) : Decidable (c.Slips s) := by unfold Ending.Slips; infer_instance

instance (s : Store) (c : Completion) : Decidable (c.Slips s) := by
  unfold Completion.Slips; infer_instance

instance (s : Store) : (b : Batch) → Decidable (b.Slips s)
  | .terminalize c => inferInstanceAs (Decidable (c.Slips s))
  | .complete c => inferInstanceAs (Decidable (c.Slips s))
  | .create _ | .recover .. | .claim .. | .renew .. | .append .. | .retry .. => .isFalse not_false

/-! ## Batches -/

theorem active_of_heldBy {t : Turn} {token : String} {now : ℤ} (h : t.heldBy token now = true) :
    t.phase.active = true := by
  obtain ⟨l, hl, -⟩ := Turn.heldBy_iff.1 h
  rw [hl]
  rfl

theorem sound_create {c : Creation} (hfresh : Fresh s (.create c)) (h : Sound s) (hexec : s.create c = some s') :
    Sound s' := by
  have hcreated := create_cases hfresh hexec
  intro t ht
  rcases hcreated.mem_iff.1 ht with ht | rfl
  · obtain ⟨hsequences, hends⟩ := h t ht
    have hstream := hcreated.stream_old hfresh ht
    exact ⟨hstream ▸ hsequences, hstream ▸ hends⟩
  · have hstream : s'.stream (c.row.advanced 1).id = [c.started] := hcreated.stream_new hfresh
    refine ⟨?_, ?_⟩
    · rw [hstream]
      rfl
    · rw [hstream]
      refine (ended_active rfl).2 fun e he => ?_
      rw [List.mem_singleton.1 he]
      rfl

theorem sound_terminalize {c : Ending} (hfresh : Fresh s (.terminalize c)) (hslip : ¬ c.Slips s)
    (h : Sound s) (hexec : s.terminalize c = some s') : Sound s' := by
  rcases terminalize_cases hfresh hexec with ⟨rfl, -⟩ | ⟨t, t', es, hmoves, -, hid, hactive, hphase, -, hcases⟩
  · exact h
  rcases hcases with ⟨-, rfl⟩ | ⟨hsequence, -⟩
  · have hmoves : Moves s s' t t' ([] ++ [c.terminalEvent]) := hmoves
    refine sound_close h hmoves hactive (by rw [hphase]; rfl) (fun e he => nomatch he) ?_
    rw [hphase]
    show Phase.endsWith _ c.body = true
    unfold Ending.body
    split
    · next hcancelled => simp [Phase.endsWith, hcancelled]
    · next hcancelled => simp [Phase.endsWith, hcancelled]
  · exact absurd ⟨t, hmoves.mem, hid, hactive, hsequence⟩ hslip

/-! ## Completion -/

/-- The answer events of a completion, as they are appended. -/
def Completion.answerDrafts (c : Completion) : List Draft :=
  c.answerEvents.mapIdx fun i b => ⟨c.eventId i, b.1, b.2⟩

/-- Its last event. -/
def Completion.completedEvent (c : Completion) : Event :=
  { id := c.eventId c.answerEvents.length, turn := c.turn, sequence := c.sequence + c.answerDrafts.length + 1
    body := .conversationCompleted, occurredAt := c.now, key := "completion:conversation-completed" }

theorem Completion.drafts_eq (c : Completion) : c.drafts = c.answerDrafts ++
    [⟨c.eventId c.answerEvents.length, "completion:conversation-completed", .conversationCompleted⟩] := by
  rw [drafts, List.mapIdx_append, answerDrafts]
  simp

theorem Completion.length_drafts (c : Completion) : c.drafts.length = c.answerDrafts.length + 1 := by
  rw [drafts_eq, List.length_append, List.length_singleton]

theorem Completion.events_eq (c : Completion) :
    c.events = numbered c.turn c.now c.sequence c.answerDrafts ++ [c.completedEvent] := by
  rw [events, drafts_eq, numbered_append]
  rfl

theorem Completion.answer_not_terminal (c : Completion) : ∀ d ∈ c.answerDrafts, d.body.terminal = false := by
  have hanswer : ∀ b ∈ c.answerEvents, b.2.terminal = false := by
    intro b hb
    simp only [answerEvents, List.mem_append, List.mem_cons, List.mem_mapIdx, List.not_mem_nil, or_false] at hb
    rcases hb with ((rfl | ⟨i, hi, rfl⟩) | ⟨i, hi, rfl⟩) | rfl <;> rfl
  intro d hd
  obtain ⟨i, hi, rfl⟩ := List.mem_mapIdx.1 hd
  exact hanswer _ (List.getElem_mem hi)

/-- The event of the answer that names the message. -/
theorem Completion.last_answer (c : Completion) {e : Event}
    (he : e ∈ numbered c.turn c.now c.sequence c.answerDrafts)
    (hlast : e.sequence = c.sequence + c.answerDrafts.length) : e.body.messageId = some c.message := by
  have hsplit : ∃ ds d, c.answerDrafts = ds ++ [d] ∧ d.body.messageId = some c.message := by
    rw [answerDrafts, answerEvents, List.mapIdx_append]
    exact ⟨_, _, rfl, rfl⟩
  obtain ⟨ds, d, hds, hbody⟩ := hsplit
  rw [hds, numbered_append, List.mem_append] at he
  rw [hds, List.length_append, List.length_singleton] at hlast
  rcases he with he | he
  · have := (mem_numbered he).2.2.2.1
    omega
  · rw [numbered, numbered_nil, List.mem_singleton] at he
    rw [he]
    exact hbody

theorem insertAnswer_quiet (s : Store) (c : Completion) : Quiet s (s.insertAnswer c) := by
  unfold Store.insertAnswer
  split
  · exact ⟨rfl, rfl⟩
  · split <;> exact ⟨rfl, rfl⟩

/-- The events of a completion where its turn is: some of the answer's, and
    then the statements of the last. -/
theorem complete_moves {c : Completion} {s₁ : Store} {t : Turn} (hfresh : Fresh s (.complete c)) (ht : t ∈ s.turns)
    (hid : t.id = c.turn) (h : (s.insertAnswer c).emitAll (·.heldBy c.token c.now) c.events = some s₁) :
    ∃ s₀ es, es.Sublist (numbered c.turn c.now c.sequence c.answerDrafts) ∧ Frame (s.insertAnswer c) s₀ ∧
      Moves s s₀ t (t.advanced es.length) es ∧ (es = [] → s₀ = s.insertAnswer c) ∧
      (es ≠ [] → t.heldBy c.token c.now = true) ∧
      (∀ e ∈ es, ∀ m ∈ e.body.messageId, ∃ message ∈ (s.insertAnswer c).messages, message.id = m) ∧
      (∀ e ∈ s₀.events, e.id ≠ c.completedEvent.id) ∧
      s₀.emit (·.heldBy c.token c.now) c.completedEvent = some s₁ := by
  have hquiet := insertAnswer_quiet s c
  have hids : (c.events.map (·.id)).Nodup := by
    rw [Completion.events, id_numbered]
    have hnodup := hfresh.1
    simp only [Batch.draws, List.cons_append, List.nil_append, List.nodup_cons] at hnodup
    exact hnodup.2.2
  have hnew : ∀ e ∈ c.events, ∀ e' ∈ s.events, e'.id ≠ e.id := by
    intro e he e' he'
    obtain ⟨-, -, -, -, d, hd, heq, -⟩ := mem_numbered he
    rw [heq]
    refine (fresh_event (hfresh.2 _ ?_) e' he').1
    exact List.mem_append_right _ (List.mem_map_of_mem hd)
  rw [Completion.events_eq] at h hids hnew
  rw [Store.emitAll, List.foldlM_append, Option.bind_eq_bind, Option.bind_eq_some_iff] at h
  obtain ⟨s₀, h₀, h₁⟩ := h
  rw [List.foldlM_cons, Option.bind_eq_bind, Option.bind_eq_some_iff] at h₁
  obtain ⟨s₁', h₁, heq⟩ := h₁
  cases heq
  rw [List.map_append, List.nodup_append] at hids
  obtain ⟨es, hsub, hframe, hmoves, hsame, hheld, hmessages⟩ := emitAll_moves
    (fun e he => ((mem_numbered he).1).trans hid.symm) hids.1
    (by rw [hquiet.2]; exact fun e he => hnew e (List.mem_append_left _ he)) (by rw [hquiet.1]; exact ht) h₀
  have hmoves := hmoves.congr hquiet ⟨rfl, rfl⟩
  refine ⟨s₀, es, hsub, hframe, hmoves, hsame, hheld, hmessages, ?_, h₁⟩
  intro e he
  rw [← Table.mem_rows, hmoves.events, List.mem_append] at he
  rcases he with he | he
  · exact hnew _ (List.mem_append_right _ List.mem_cons_self) e he
  · exact hids.2.2 _ (List.mem_map_of_mem (hsub.subset he)) _ (List.mem_singleton.2 rfl)

/-- The message of a completion is in the store once it is inserted there. -/
theorem answer_inserted {c : Completion} {t : Turn} (hmessage : c.message ∉ s.ids) (ht : t ∈ s.turns)
    (hid : t.id = c.turn) (hheld : t.heldBy c.token c.now = true) :
    (∃ m ∈ (s.insertAnswer c).messages, m.id = c.message) ↔ ¬ s.answers t.id := by
  rcases insertAnswer_held hmessage ht hid hheld with ⟨hanswers, hsame⟩ | ⟨hno, -, hrows⟩
  · rw [hsame]
    refine ⟨fun ⟨m, hm, heq⟩ => absurd heq (fresh_message hmessage m hm).1, fun hno => absurd hanswers hno⟩
  · refine ⟨fun _ => hno, fun _ => ⟨c.answerMessage t, ?_, rfl⟩⟩
    rw [← Table.mem_rows, hrows]
    exact List.mem_append_right _ List.mem_cons_self

theorem finishAnswer_cases {c : Completion} (h : s.finishAnswer c = some s') :
    (s' = s ∧ ∀ t ∈ s.turns, t.id = c.turn → t.heldBy c.token c.now = true →
        t.eventSequence = c.sequence + c.drafts.length → ∀ m ∈ s.messages, m.id = c.message → m.source ≠ c.turn) ∨
      ∃ t t', Moves s s' t t' [] ∧ Frame s s' ∧ t.id = c.turn ∧ t.heldBy c.token c.now = true ∧
        t.eventSequence = c.sequence + c.drafts.length ∧ (∃ m ∈ s.messages, m.id = c.message) ∧
        t'.phase = .answered c.message c.now ∧ t'.attemptCount = t.attemptCount := by
  rcases updateTurn_moves h fun _ => rfl with ⟨rfl, hno⟩ | ⟨t, hid, hguard, -, hframe, hmoves⟩
  · refine .inl ⟨rfl, fun t ht hid hheld hsequence m hm heq hsource => ?_⟩
    have hfalse := hno t ht hid
    have hany : (s'.messages.rows.any fun m => m.id = c.message && m.source = c.turn) = true :=
      List.any_eq_true.2 ⟨m, hm, by simp [heq, hsource]⟩
    rw [hheld, hsequence, hany] at hfalse
    simp at hfalse
  · rw [Bool.and_eq_true, Bool.and_eq_true, decide_eq_true_eq, List.any_eq_true] at hguard
    obtain ⟨⟨hheld, hsequence⟩, m, hm, hsame⟩ := hguard
    rw [Bool.and_eq_true, decide_eq_true_eq] at hsame
    exact .inr ⟨t, _, hmoves, hframe, hid, hheld, hsequence, ⟨m, hm, hsame.1⟩, rfl, rfl⟩

theorem sound_complete {c : Completion} (hfresh : Fresh s (.complete c)) (hslip : ¬ c.Slips s) (h : Sound s)
    (hexec : s.complete c = some s') : Sound s' := by
  obtain ⟨s₁, s₂, h₁, h₂, hquiet, -⟩ := complete_split hexec
  refine sound_quiet ?_ hquiet
  have hmessage : c.message ∉ s.ids := hfresh.2 _ (by simp [Batch.draws])
  by_cases hturn : ∃ t ∈ s.turns, t.id = c.turn
  case neg =>
    have hnone : ∀ t ∈ s.turns, t.id ≠ c.turn := fun t ht hid => hturn ⟨t, ht, hid⟩
    rw [insertAnswer_lost fun t ht hid => absurd hid (hnone t ht)] at h₁
    obtain rfl := emitAll_none (fun e he => (mem_numbered he).1) hnone h₁
    rcases finishAnswer_cases h₂ with ⟨rfl, -⟩ | ⟨t, t', hmoves, -, hid, -⟩
    · exact h
    · exact absurd hid (hnone t hmoves.mem)
  obtain ⟨t, ht, hid⟩ := hturn
  obtain ⟨s₀, es, hsub, hframe, hmoves, hsame, hheld, hmessages, hnew, hlast⟩ := complete_moves hfresh ht hid h₁
  have hes : ∀ e ∈ es, e.body.terminal = false := by
    intro e he
    obtain ⟨-, -, -, -, d, hd, -, -, hbody⟩ := mem_numbered (hsub.subset he)
    rw [hbody]
    exact c.answer_not_terminal d hd
  have hbound := advanced_le hmoves hsub
  have hlength := c.length_drafts
  have hcount : ∀ {n}, (t.advanced es.length).eventSequence = n → es = [] → t.eventSequence = n := by
    rintro n hn rfl
    exact hn
  -- the counter of a turn that got an answer event is that of a draft
  rcases emit_moves hnew hlast with ⟨rfl, -⟩ | ⟨t₁, hid₁, hheld₁, hsequence₁, -, hnoclash, hframe₁, hmoves₁⟩
  · -- the last event is not inserted, and the counter is short of the drafts
    rcases finishAnswer_cases h₂ with ⟨rfl, -⟩ | ⟨t₁, t', hmoves₁, -, hid₁, hheld₁, hsequence₁, hexists, -⟩
    · by_cases hactive : t.phase.active = true
      · exact sound_progress h hmoves hactive hactive hes
      · rcases List.eq_nil_or_concat' es with rfl | ⟨es', e, rfl⟩
        · refine sound_moves h hmoves ?_
          rw [List.append_nil]
          exact (h t ht).ends
        · exact absurd (active_of_heldBy (hheld (by simp))) hactive
    · obtain rfl : t₁ = t.advanced es.length :=
        s₁.turns.eq_of_key_eq hmoves₁.mem hmoves.mem_after (hid₁.trans hid.symm)
      rcases hbound with hnil | ⟨-, hle⟩
      · refine absurd ⟨t, ht, hid, hheld₁, .inl ⟨hcount hsequence₁ hnil, ?_⟩⟩ hslip
        rw [← answer_inserted hmessage ht hid hheld₁, ← hframe.messages]
        exact hexists
      · omega
  · obtain rfl : t₁ = t.advanced es.length :=
      s₀.turns.eq_of_key_eq hmoves₁.mem hmoves.mem_after (hid₁.trans hid.symm)
    have hsequence₂ : (t.advanced es.length).eventSequence + 1 = c.sequence + c.drafts.length := by
      rw [hsequence₁, hlength]
      rfl
    have hno : ¬ s.answers t.id := by
      intro hanswers
      rcases List.eq_nil_or_concat' es with hnil | ⟨es', e, hes'⟩
      · refine hslip ⟨t, ht, hid, hheld₁, .inr ⟨?_, hanswers, ?_⟩⟩
        · rw [← hsequence₂, hnil]
          rfl
        · intro e he hturn hkey
          have hclash := hnoclash e (by rw [hsame hnil, (insertAnswer_quiet s c).2]; exact he)
          simp [Event.clash, Completion.completedEvent, hturn, hid, hkey] at hclash
      · rw [hes'] at hmoves
        have hmem : e ∈ es := by rw [hes']; exact List.mem_append_right _ List.mem_cons_self
        obtain ⟨m, hm, heq⟩ := hmessages e hmem c.message (c.last_answer (hsub.subset hmem) (by
          rw [hmoves.last_sequence, ← hes']
          omega))
        exact (answer_inserted hmessage ht hid hheld₁).1 ⟨m, hm, heq⟩ hanswers
    -- the message is there, and the status passes its guard
    rcases finishAnswer_cases h₂ with ⟨-, hnone⟩ | ⟨t₂, t', hmoves₂, -, hid₂, -, -, -, hphase, -⟩
    · rcases insertAnswer_held hmessage ht hid hheld₁ with ⟨hanswers, -⟩ | ⟨-, -, hrows⟩
      · exact absurd hanswers hno
      · refine absurd hid (hnone _ hmoves₁.mem_after hid hheld₁ hsequence₂ (c.answerMessage t) ?_ rfl)
        rw [hframe₁.messages, hframe.messages, ← Table.mem_rows, hrows]
        exact List.mem_append_right _ List.mem_cons_self
    · obtain rfl : t₂ = (t.advanced es.length).advanced 1 :=
        s₁.turns.eq_of_key_eq hmoves₂.mem hmoves₁.mem_after (hid₂.trans hid.symm)
      have hall := (hmoves.trans hmoves₁).trans hmoves₂
      rw [List.append_nil] at hall
      refine sound_close h hall (active_of_heldBy hheld₁) (by rw [hphase]; rfl) hes ?_
      rw [hphase]
      rfl

/-! ## Runs -/

theorem terminal_of_progress {b : EventBody} (h : b.progress = true) : b.terminal = false := by
  cases b <;> first | rfl | cases h

/-- **One batch.** -/
theorem sound_land {b : Batch} (hformed : Formed b) (hfresh : Fresh s b) (hslip : ¬ b.Slips s) (h : Sound s)
    (hexec : exec b s = some s') : Sound s' := by
  have hnone : ∀ e ∈ ([] : List Event), e.body.terminal = false := fun e he => nomatch he
  cases b with
  | create c => exact sound_create hfresh h hexec
  | recover turn now =>
    rcases recover_cases hexec with rfl | ⟨t, l, t', hmoves, -, -, hphase, -, hphase', -⟩
    · exact h
    · exact sound_progress h hmoves (by rw [hphase]; rfl) (by rw [hphase']; rfl) hnone
  | claim worker token now =>
    rcases claim_cases hexec with rfl | ⟨t, code, hphase, -, -, -, -, -, -, hmoves⟩
    · exact h
    · exact sound_progress h hmoves (by rw [hphase]; rfl) rfl hnone
  | renew turn token now =>
    rcases renew_cases hexec with ⟨rfl, -⟩ | ⟨t, l, t', hmoves, -, -, hphase, -, -, hphase', -⟩
    · exact h
    · exact sound_progress h hmoves (by rw [hphase]; rfl) (by rw [hphase']; rfl) hnone
  | append turn token sequence drafts now =>
    rcases append_cases hfresh hexec with rfl | ⟨t, es, hmoves, -, -, hheld, hsub⟩
    · exact h
    · have hactive := active_of_heldBy hheld
      refine sound_progress h hmoves hactive hactive fun e he => ?_
      obtain ⟨-, -, -, -, d, hd, -, -, hbody⟩ := mem_numbered (hsub.subset he)
      rw [hbody]
      exact terminal_of_progress (hformed.1 d hd)
  | complete c => exact sound_complete hfresh hslip h hexec
  | retry turn token code event availableAt now =>
    rcases retry_cases hexec with ⟨rfl, -⟩ | ⟨t, l, t', hmoves, -, -, hphase, -, hphase', -⟩
    · exact h
    · exact sound_progress h hmoves (by rw [hphase]; rfl) (by rw [hphase']; rfl) hnone
  | terminalize c => exact sound_terminalize hfresh hslip h hexec

/-- The ids that the batch drew are new, and it does not slip. -/
def Steady (w : World) (b : Batch) : Prop := Fresh w.state b ∧ ¬ b.Slips w.state

instance (w : World) (b : Batch) : Decidable (Steady w b) := by unfold Steady; infer_instance

/-- **Every terminal turn ends with its terminal event.** Along any interleaving
    of requests whose batches do not slip, the events of every turn carry the
    sequences up to its counter, an active turn has no terminal event, and a
    terminal turn has one, the last, that matches its status. -/
theorem terminal_event_last {actions : List (FlightAction Request)}
    (hactions : Machine.Along step (FlightAction.Meets Steady) Flight.initial actions) :
    ∀ t ∈ (Machine.run step Flight.initial actions).world.state.turns,
      TurnSound (Machine.run step Flight.initial actions).world.state t := by
  refine (Program.flight_invariant (I := fun w => Sound w.state) program_sends ?_ hactions ?_ ?_).2
  · intro b w w' hformed hsteady h hland
    exact sound_land hformed hsteady.1 hsteady.2 h (Program.land_eq_some hland).1
  · exact fun p hp => nomatch hp
  · exact fun t ht => absurd ht (Table.not_mem_empty t)

/-! ## A turn that slips -/

/-- A new conversation with the message `m`. -/
def askedBy (owner turn key : String) (conversation : Option String) (now : ℤ) : CreateBody :=
  { owner := owner, idempotencyKey := key, message := "m", conversation := conversation, title := "m", turnId := turn
    userMessageId := "user-" ++ turn, eventId := "start-" ++ turn, conversationId := "chat-" ++ turn, now := now }

/-- A turn is created and claimed. -/
def claimedTurn : List (FlightAction Request) :=
  [.start (.create (askedBy "owner" "turn" "0123456789abcdef" none 0)), .advance 0, .advance 0, .advance 0,
    .start (.claim "worker" "lease" "missing" (fun _ => "recovery") 1), .advance 1, .advance 1, .advance 1, .advance 1]

/-- The owner cancels it. -/
def cancelledTurn : List (FlightAction Request) :=
  claimedTurn ++ [.start (.cancel "owner" "turn" "cancel" 2), .advance 2, .advance 2, .advance 2]

theorem terminal_event_last_sample :
    (∃ t ∈ (Machine.run step Flight.initial cancelledTurn).world.state.turns,
      t.phase = .ended .cancelled "USER_CANCELLED" 2) ∧
    ∀ t ∈ (Machine.run step Flight.initial cancelledTurn).world.state.turns,
      TurnSound (Machine.run step Flight.initial cancelledTurn).world.state t :=
  ⟨by decide, terminal_event_last (by decide)⟩

/-- The same cancellation has read the turn when the worker's progress event is
    appended. -/
def overtakenTurn : List (FlightAction Request) :=
  claimedTurn ++ [.start (.cancel "owner" "turn" "cancel" 2), .advance 2, .advance 2,
    .start (.append "turn" "lease" [⟨"progress", "progress-0000001", .reasoningStarted "SIMPLE"⟩] 2),
    .advance 3, .advance 3, .advance 3, .advance 3, .advance 2]

/-- A terminal turn whose events are not terminal has not ended as it should. -/
theorem not_sound_of_no_terminal {t : Turn} (hclosed : t.phase.active = false)
    (hnone : ∀ e ∈ s.stream t.id, e.body.terminal = false) : ¬ TurnSound s t := by
  intro h
  obtain ⟨init, e, hevents, hends, -⟩ := (ended_closed hclosed).1 h.ends
  have hmem : e ∈ s.stream t.id := by
    rw [hevents]
    exact List.mem_append_right _ List.mem_cons_self
  have hterminal := terminal_of_endsWith hends
  rw [hnone e hmem] at hterminal
  cases hterminal

/-- A cancelled turn without its terminal event. -/
theorem overtaken_turn_has_no_terminal_event : ¬ ∀ actions : List (FlightAction Request),
    Machine.Along step (FlightAction.Meets fun w b => Fresh w.state b) Flight.initial actions →
      ∀ t ∈ (Machine.run step Flight.initial actions).world.state.turns,
        TurnSound (Machine.run step Flight.initial actions).world.state t := by
  intro h
  have hturn : ∃ t ∈ (Machine.run step Flight.initial overtakenTurn).world.state.turns, t.phase.active = false ∧
      ∀ e ∈ (Machine.run step Flight.initial overtakenTurn).world.state.stream t.id, e.body.terminal = false := by
    decide
  obtain ⟨t, ht, hclosed, hnone⟩ := hturn
  exact not_sound_of_no_terminal hclosed hnone (h overtakenTurn (by decide) t ht)

end Xauusd.Assistant
