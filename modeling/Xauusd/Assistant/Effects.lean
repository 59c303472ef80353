/-
  What the batches do to a turn and its events.

  * `Store.stream`: the events of a turn, in the order of their insertion;
  * `Moves s s' t t' es`: between two stores, only the turn `t` changed, to
    `t'`, and it got the events `es`, in sequence;
  * `Quiet`: turns and events are as they were;
  * `updateTurn_moves`, `emit_moves`, `emitAll_moves`: what the statements do;
  * `numbered_append`, `mem_numbered`: the events of some drafts.
-/
import Xauusd.Assistant.Requests

namespace Xauusd.Assistant

/-! ## Moves -/

/-- The events of a turn, in the order of their insertion. -/
def Store.stream (s : Store) (turn : String) : List Event := s.events.rows.filter fun e => e.turn = turn

/-- Only `t` changed, to `t'`, with the events `es` in sequence. -/
structure Moves (s s' : Store) (t t' : Turn) (es : List Event) : Prop where
  mem : t ∈ s.turns
  set : t' = t.set t'.toTurnState
  turns : s'.turns.rows = s.turns.rows.map fun r => if r.id = t.id then t' else r
  events : s'.events.rows = s.events.rows ++ es
  own : ∀ e ∈ es, e.turn = t.id
  sequences : es.map (·.sequence) = List.range' (t.eventSequence + 1) es.length
  sequence : t'.eventSequence = t.eventSequence + es.length

/-- Turns and events are as they were. -/
def Quiet (s s' : Store) : Prop := s'.turns = s.turns ∧ s'.events = s.events

/-- The other tables are as they were. -/
structure Frame (s s' : Store) : Prop where
  messages : s'.messages = s.messages
  conversations : s'.conversations = s.conversations
  titleJobs : s'.titleJobs = s.titleJobs
  claims : s'.claims = s.claims

theorem Frame.refl (s : Store) : Frame s s := ⟨rfl, rfl, rfl, rfl⟩

theorem Frame.trans {s s' s'' : Store} (h : Frame s s') (h' : Frame s' s'') : Frame s s'' :=
  ⟨h'.messages.trans h.messages, h'.conversations.trans h.conversations, h'.titleJobs.trans h.titleJobs,
    h'.claims.trans h.claims⟩

theorem Turn.set_self (t : Turn) : t.set t.toTurnState = t := rfl

@[simp] theorem Turn.id_set (t : Turn) (state : TurnState) : (t.set state).id = t.id := rfl
@[simp] theorem Turn.toTurnState_set (t : Turn) (state : TurnState) : (t.set state).toTurnState = state := rfl
@[simp] theorem Turn.set_set (t : Turn) (state state' : TurnState) : (t.set state).set state' = t.set state' := rfl

/-- The turn after `n` more events. -/
def Turn.advanced (t : Turn) (n : ℕ) : Turn := t.set { t.toTurnState with eventSequence := t.eventSequence + n }

@[simp] theorem Turn.id_advanced (t : Turn) (n : ℕ) : (t.advanced n).id = t.id := rfl
@[simp] theorem Turn.phase_advanced (t : Turn) (n : ℕ) : (t.advanced n).phase = t.phase := rfl
@[simp] theorem Turn.eventSequence_advanced (t : Turn) (n : ℕ) :
    (t.advanced n).eventSequence = t.eventSequence + n := rfl
@[simp] theorem Turn.advanced_zero (t : Turn) : t.advanced 0 = t := rfl

theorem Turn.advanced_advanced (t : Turn) (n m : ℕ) : (t.advanced n).advanced m = t.advanced (n + m) := by
  simp [Turn.advanced, Turn.set, Nat.add_assoc]

namespace Moves

variable {s s' s'' : Store} {t t' t'' : Turn} {es es' : List Event}

theorem id (h : Moves s s' t t' es) : t'.id = t.id := by
  rw [h.set, Turn.id_set]

/-- The turns after a move. -/
theorem mem_iff (h : Moves s s' t t' es) {r : Turn} : r ∈ s'.turns ↔ r = t' ∨ (r ∈ s.turns ∧ r.id ≠ t.id) := by
  rw [← Table.mem_rows, h.turns, List.mem_map]
  refine ⟨?_, ?_⟩
  · rintro ⟨r₀, hr₀, rfl⟩
    by_cases hid : r₀.id = t.id
    · exact .inl (if_pos hid)
    · exact .inr ⟨by rwa [if_neg hid], by rwa [if_neg hid]⟩
  · rintro (rfl | ⟨hr, hid⟩)
    · exact ⟨t, h.mem, if_pos rfl⟩
    · exact ⟨r, hr, if_neg hid⟩

theorem mem_after (h : Moves s s' t t' es) : t' ∈ s'.turns := h.mem_iff.2 (.inl rfl)

theorem stream_self (h : Moves s s' t t' es) : s'.stream t.id = s.stream t.id ++ es := by
  have hes : es.filter (fun e => e.turn = t.id) = es :=
    List.filter_eq_self.2 fun e he => decide_eq_true (h.own e he)
  rw [Store.stream, h.events, List.filter_append, hes, Store.stream]

/-- The sequences of the turn that changed stay those up to its counter. -/
theorem stream_sequences (h : Moves s s' t t' es)
    (hbefore : (s.stream t.id).map (·.sequence) = List.range' 1 t.eventSequence) :
    (s'.stream t'.id).map (·.sequence) = List.range' 1 t'.eventSequence := by
  rw [h.id, h.stream_self, List.map_append, hbefore, h.sequences, h.sequence, ← List.range'_append_1, Nat.add_comm 1]

theorem stream_other (h : Moves s s' t t' es) {id : String} (hid : id ≠ t.id) : s'.stream id = s.stream id := by
  have hes : es.filter (fun e => e.turn = id) = [] := by
    refine List.filter_eq_nil_iff.2 fun e he => ?_
    rw [h.own e he]
    simpa using Ne.symm hid
  rw [Store.stream, h.events, List.filter_append, hes, List.append_nil, Store.stream]

/-- The counter is the sequence of the last event. -/
theorem last_sequence {e : Event} (h : Moves s s' t t' (es ++ [e])) : e.sequence = t'.eventSequence := by
  have hsequences := h.sequences
  rw [List.map_append, List.length_append, List.length_singleton, List.range'_1_concat, List.map_singleton] at hsequences
  have hlast := List.append_inj_right' hsequences rfl
  rw [h.sequence, List.length_append, List.length_singleton]
  have := (List.cons.inj hlast).1
  omega

theorem refl (ht : t ∈ s.turns) : Moves s s t t [] where
  mem := ht
  set := rfl
  turns := by
    conv_lhs => rw [← List.map_id s.turns.rows]
    refine List.map_congr_left fun r hr => ?_
    split
    · next hid => exact s.turns.eq_of_key_eq hr ht hid
    · rfl
  events := (List.append_nil _).symm
  own := fun e he => nomatch he
  sequences := rfl
  sequence := rfl

theorem trans (h : Moves s s' t t' es) (h' : Moves s' s'' t' t'' es') : Moves s s'' t t'' (es ++ es') where
  mem := h.mem
  set := by
    have h₁ := h.set
    have h₂ := h'.set
    rw [h₁, Turn.set_set] at h₂
    exact h₂
  turns := by
    rw [h'.turns, h.turns, List.map_map]
    refine List.map_congr_left fun r _ => ?_
    by_cases hid : r.id = t.id
    · simp [hid, h.id]
    · simp [hid, h.id]
  events := by rw [h'.events, h.events, List.append_assoc]
  own := by
    intro e he
    rcases List.mem_append.1 he with he | he
    · exact h.own e he
    · rw [h'.own e he, h.id]
  sequences := by
    rw [List.map_append, h.sequences, h'.sequences, h.sequence, List.length_append, ← List.range'_append_1]
    congr 2
    omega
  sequence := by rw [h'.sequence, h.sequence, List.length_append, Nat.add_assoc]

/-- Stores that differ in other tables only. -/
theorem congr {u u' : Store} (h : Moves s s' t t' es) (hs : Quiet u s) (hs' : Quiet s' u') : Moves u u' t t' es where
  mem := by rw [← hs.1]; exact h.mem
  set := h.set
  turns := by rw [hs'.1, h.turns, hs.1]
  events := by rw [hs'.2, h.events, hs.2]
  own := h.own
  sequences := h.sequences
  sequence := h.sequence

end Moves

/-! ## Statements -/

variable {s s' : Store}

/-- An update of a turn that keeps its sequence. -/
theorem updateTurn_moves {id : String} {guard : Turn → Bool} {set : Turn → TurnState}
    (h : s.updateTurn id guard set = some s') (hset : ∀ t, (set t).eventSequence = t.eventSequence) :
    (s' = s ∧ ∀ t ∈ s.turns, t.id = id → guard t = false) ∨
      ∃ t, t.id = id ∧ guard t = true ∧ s.admits t (t.set (set t)) ∧ Frame s s' ∧
        Moves s s' t (t.set (set t)) [] := by
  rcases Store.updateTurn_cases h with hquiet | ⟨t, ht, hid, hguard, hadmits, rfl⟩
  · exact .inl hquiet
  · refine .inr ⟨t, hid, hguard, hadmits, ⟨rfl, rfl, rfl, rfl⟩, ht, rfl, ?_, (List.append_nil _).symm, ?_, rfl,
      hset t⟩
    · show (s.turns.rows.map _) = _
      refine List.map_congr_left fun r hr => ?_
      subst hid
      by_cases hid : r.id = t.id
      · have hrt := s.turns.eq_of_key_eq hr ht hid
        simp [hrt]
      · simp [hid]
    · exact fun e he => nomatch he

/-- The store with an event and the sequence of its turn advanced to it. -/
theorem emit_moves {guard : Turn → Bool} {e : Event} (hfresh : ∀ e' ∈ s.events, e'.id ≠ e.id)
    (h : s.emit guard e = some s') :
    (s' = s ∧ ∀ t ∈ s.turns, t.id = e.turn → guard t = true → t.eventSequence + 1 = e.sequence →
        ∃ e' ∈ s.events, Event.clash e e' = true) ∨
      ∃ t, t.id = e.turn ∧ guard t = true ∧ t.eventSequence + 1 = e.sequence ∧ s.allows t e ∧
        (∀ e' ∈ s.events, Event.clash e e' = false) ∧ Frame s s' ∧ Moves s s' t (t.advanced 1) [e] := by
  have hadvance : ∀ s'', s.advance e = some s'' → s'' = s := by
    intro s'' h
    rcases Store.updateTurn_cases h with ⟨rfl, -⟩ | ⟨t, -, -, hguard, -⟩
    · rfl
    · rw [Bool.and_eq_true, List.any_eq_true] at hguard
      obtain ⟨e', he', hid⟩ := hguard.2
      rw [Bool.and_eq_true, decide_eq_true_eq] at hid
      exact absurd hid.1 (hfresh e' he')
  rw [Store.emit, Option.bind_eq_some_iff] at h
  obtain ⟨s₁, h₁, h₂⟩ := h
  unfold Store.insertNext at h₁
  split at h₁
  · next hnone =>
    cases h₁
    refine .inl ⟨hadvance _ h₂, fun t ht hid => ?_⟩
    exact absurd hid (Table.find?_eq_none_iff.1 hnone t ht)
  next t hfind =>
  obtain ⟨ht, hid⟩ := Table.find?_eq_some_iff.1 hfind
  split at h₁
  · next hguard =>
    obtain ⟨t₁, ht₁, hid₁, hallows, hcases⟩ := Store.insertEvent_cases h₁
    obtain rfl : t₁ = t := s.turns.eq_of_key_eq ht₁ ht (hid₁.trans hid.symm)
    rcases hcases with ⟨rfl, -, e', he', hclash⟩ | ⟨hnew, hs₁, hrows⟩
    · refine .inl ⟨hadvance _ h₂, fun _ _ _ _ _ => ⟨e', he', hclash.resolve_left (hfresh e' he')⟩⟩
    · refine .inr ⟨t₁, hid, hguard.1, hguard.2, hallows, fun e' he' => (hnew e' he').2, ?_⟩
      have hturns : s₁.turns = s.turns := by rw [hs₁]
      rcases Store.updateTurn_cases h₂ with ⟨-, hno⟩ | ⟨t₂, ht₂, hid₂, -, -, rfl⟩
      · have := hno t₁ (by rw [hturns]; exact ht) hid
        rw [Bool.and_eq_false_iff, decide_eq_false_iff_not, List.any_eq_false] at this
        rcases this with hne | hnone
        · exact absurd hguard.2 hne
        · refine absurd ?_ (hnone e (by rw [hrows]; exact List.mem_append_right _ List.mem_cons_self))
          simp
      · rw [hturns] at ht₂
        obtain rfl : t₂ = t₁ := s.turns.eq_of_key_eq ht₂ ht (hid₂.trans hid.symm)
        refine ⟨⟨by rw [hs₁], by rw [hs₁], by rw [hs₁], by rw [hs₁]⟩, ht, rfl, ?_, hrows, ?_, ?_, rfl⟩
        · show (s₁.turns.rows.map _) = _
          rw [hturns]
          refine List.map_congr_left fun r hr => ?_
          rw [← hid]
          by_cases hr' : r.id = t₂.id
          · have hrt := s.turns.eq_of_key_eq hr ht hr'
            simp [hrt, Turn.advanced, ← hguard.2]
          · simp [hr']
        · intro e' he'
          rw [List.mem_singleton.1 he', hid]
        · simp [hguard.2]
  · next hguard =>
    cases h₁
    refine .inl ⟨hadvance _ h₂, fun t' ht' hid' hg hsequence => ?_⟩
    obtain rfl : t' = t := s.turns.eq_of_key_eq ht' ht (hid'.trans hid.symm)
    exact absurd ⟨hg, hsequence⟩ hguard

/-- The events of one turn, some of which are inserted. -/
theorem emitAll_moves {guard : Turn → Bool} {es : List Event} {t : Turn}
    (hown : ∀ e ∈ es, e.turn = t.id) (hids : (es.map (·.id)).Nodup)
    (hfresh : ∀ e ∈ es, ∀ e' ∈ s.events, e'.id ≠ e.id) (ht : t ∈ s.turns) (h : s.emitAll guard es = some s') :
    ∃ es', es'.Sublist es ∧ Frame s s' ∧ Moves s s' t (t.advanced es'.length) es' ∧
      (es' = [] → s' = s) ∧ (es' ≠ [] → guard t = true) ∧
      ∀ e ∈ es', ∀ m ∈ e.body.messageId, ∃ message ∈ s.messages, message.id = m := by
  induction es generalizing s t with
  | nil =>
    cases h
    exact ⟨[], List.Sublist.slnil, .refl _, .refl ht, fun _ => rfl, (absurd rfl ·), fun e he => nomatch he⟩
  | cons e es ih =>
    rw [Store.emitAll, List.foldlM_cons, Option.bind_eq_bind, Option.bind_eq_some_iff] at h
    obtain ⟨s₁, h₁, h₂⟩ := h
    rw [List.map_cons, List.nodup_cons] at hids
    have hown' : ∀ e' ∈ es, e'.turn = t.id := fun e' he' => hown e' (List.mem_cons_of_mem _ he')
    have hfresh' : ∀ e' ∈ es, ∀ e'' ∈ s.events, e''.id ≠ e'.id :=
      fun e' he' => hfresh e' (List.mem_cons_of_mem _ he')
    rcases emit_moves (hfresh e List.mem_cons_self) h₁ with ⟨rfl, -⟩ |
      ⟨t₁, hid, hg, hsequence, hallows, -, hframe, hmoves⟩
    · obtain ⟨es', hsub, hrest⟩ := ih hown' hids.2 hfresh' ht h₂
      exact ⟨es', hsub.cons e, hrest⟩
    · obtain rfl : t₁ = t :=
        s.turns.eq_of_key_eq hmoves.mem ht (hid.trans (hown e List.mem_cons_self))
      have hfresh₁ : ∀ e' ∈ es, ∀ e'' ∈ s₁.events, e''.id ≠ e'.id := by
        intro e' he' e'' he''
        rw [← Table.mem_rows, hmoves.events, List.mem_append, List.mem_singleton] at he''
        rcases he'' with he'' | rfl
        · exact hfresh' e' he' e'' he''
        · exact fun hid' => hids.1 (hid' ▸ List.mem_map_of_mem he')
      obtain ⟨es', hsub, hframe', hmoves', -, -, hmessages⟩ :=
        ih (t := t₁.advanced 1) hown' hids.2 hfresh₁ hmoves.mem_after h₂
      refine ⟨e :: es', hsub.cons_cons e, hframe.trans hframe', ?_, (fun h => nomatch h), fun _ => hg, ?_⟩
      · have := hmoves.trans hmoves'
        rwa [Turn.advanced_advanced, Nat.add_comm, ← List.length_cons] at this
      · intro e' he' m hm
        rcases List.mem_cons.1 he' with rfl | he'
        · obtain ⟨message, hmessage, hid, -⟩ := hallows.2.2.1 m hm
          exact ⟨message, hmessage, hid⟩
        · rw [← hframe.messages]
          exact hmessages e' he' m hm

/-- Without the turn, its events are not inserted. -/
theorem emitAll_none {guard : Turn → Bool} {turn : String} {es : List Event} (hown : ∀ e ∈ es, e.turn = turn)
    (hnone : ∀ t ∈ s.turns, t.id ≠ turn) (h : s.emitAll guard es = some s') : s' = s := by
  induction es with
  | nil => cases h; rfl
  | cons e es ih =>
    rw [Store.emitAll, List.foldlM_cons, Option.bind_eq_bind, Option.bind_eq_some_iff] at h
    obtain ⟨s₁, h₁, h₂⟩ := h
    have hfind : s.turns.find? e.turn = none := by
      rw [Table.find?_eq_none_iff, hown e List.mem_cons_self]
      exact hnone
    have h₁ : s₁ = s := by
      rw [Store.emit, Store.insertNext, hfind, Option.bind_some, Store.advance, Store.updateTurn, hfind] at h₁
      exact (Option.some.inj h₁).symm
    rw [h₁] at h₂
    exact ih (fun e' he' => hown e' (List.mem_cons_of_mem _ he')) h₂

/-! ## Drafts -/

@[simp] theorem numbered_nil (turn : String) (now : ℤ) (q : ℕ) : numbered turn now q [] = [] := rfl

theorem numbered_append (turn : String) (now : ℤ) (q : ℕ) (ds ds' : List Draft) :
    numbered turn now q (ds ++ ds') = numbered turn now q ds ++ numbered turn now (q + ds.length) ds' := by
  induction ds generalizing q with
  | nil => rfl
  | cons d ds ih =>
    rw [List.cons_append, numbered, numbered, ih, List.cons_append, List.length_cons, Nat.add_assoc,
      Nat.add_comm 1]

theorem length_numbered (turn : String) (now : ℤ) (q : ℕ) (ds : List Draft) :
    (numbered turn now q ds).length = ds.length := by
  induction ds generalizing q with
  | nil => rfl
  | cons d ds ih => rw [numbered, List.length_cons, List.length_cons, ih]

theorem id_numbered (turn : String) (now : ℤ) (q : ℕ) (ds : List Draft) :
    (numbered turn now q ds).map (·.id) = ds.map (·.id) := by
  induction ds generalizing q with
  | nil => rfl
  | cons d ds ih => rw [numbered, List.map_cons, List.map_cons, ih]

theorem sequence_numbered (turn : String) (now : ℤ) (q : ℕ) (ds : List Draft) :
    (numbered turn now q ds).map (·.sequence) = List.range' (q + 1) ds.length := by
  induction ds generalizing q with
  | nil => rfl
  | cons d ds ih => rw [numbered, List.map_cons, ih, List.length_cons, List.range'_succ]

/-- What an event has of its draft. -/
theorem mem_numbered {turn : String} {now : ℤ} {q : ℕ} {ds : List Draft} {e : Event}
    (h : e ∈ numbered turn now q ds) :
    e.turn = turn ∧ e.occurredAt = now ∧ q < e.sequence ∧ e.sequence ≤ q + ds.length ∧
      ∃ d ∈ ds, e.id = d.id ∧ e.key = d.key ∧ e.body = d.body := by
  induction ds generalizing q with
  | nil => cases h
  | cons d ds ih =>
    rcases List.mem_cons.1 h with rfl | h
    · exact ⟨rfl, rfl, Nat.lt_succ_self q, by simp, d, List.mem_cons_self, rfl, rfl, rfl⟩
    · obtain ⟨hturn, hnow, hlow, hhigh, d', hd', heq⟩ := ih h
      rw [List.length_cons]
      exact ⟨hturn, hnow, by omega, by omega, d', List.mem_cons_of_mem _ hd', heq⟩

/-- The sequence of a turn does not pass that of the last draft, unless it was
    past it. -/
theorem advanced_le {turn : String} {now : ℤ} {q : ℕ} {ds : List Draft} {t t' : Turn} {es : List Event}
    (hmoves : Moves s s' t t' es) (hsub : es.Sublist (numbered turn now q ds)) :
    es = [] ∨ (q ≤ t.eventSequence ∧ t'.eventSequence ≤ q + ds.length) := by
  cases es with
  | nil => exact .inl rfl
  | cons e es =>
    refine .inr ⟨?_, ?_⟩
    · have hfirst := (mem_numbered (hsub.subset List.mem_cons_self)).2.2.1
      have hsequence := hmoves.sequences
      rw [List.map_cons, List.length_cons, List.range'_succ] at hsequence
      have := (List.cons.inj hsequence).1
      omega
    · have hlast : t.eventSequence + (e :: es).length ∈ (e :: es).map (·.sequence) := by
        rw [hmoves.sequences, List.mem_range'_1, List.length_cons]
        omega
      obtain ⟨e', he', hsequence⟩ := List.mem_map.1 hlast
      have := (mem_numbered (hsub.subset he')).2.2.2.1
      have hcount := hmoves.sequence
      omega

end Xauusd.Assistant
