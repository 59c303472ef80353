/-
  Completing a turn is all or nothing, where nothing came between.

  * `Completion.Lands`: the completion's lease is valid where its batch lands;
  * `Completion.Whole`: if so, the turn's counter is the one that was read, and
    no event of the turn has a key of the completion;
  * `Completion.Done`: the turn is answered, with its message and its events;
  * `complete_lost`: without its lease a completion changes nothing;
  * `complete_done`: a whole completion is done;
  * `completion_all_or_nothing`: **along requests whose completions are whole,
    every completion is done or changes nothing, and no answer message is in
    the store without its answered turn**.
-/
import Xauusd.Assistant.Terminal
import Xauusd.Lib.Json

namespace Xauusd.Assistant

open Program

variable {s s' : Store}

/-! ## Without the lease -/

/-- The completion's lease is valid. -/
def Completion.Lands (s : Store) (c : Completion) : Prop :=
  ∃ t ∈ s.turns, t.id = c.turn ∧ t.heldBy c.token c.now = true

instance (s : Store) (c : Completion) : Decidable (c.Lands s) := by unfold Completion.Lands; infer_instance

/-- An event whose guard fails is not inserted. -/
theorem emit_lost {guard : Turn → Bool} {e : Event} (hfresh : ∀ e' ∈ s.events, e'.id ≠ e.id)
    (h : ∀ t ∈ s.turns, t.id = e.turn → guard t = false) : s.emit guard e = some s := by
  have hnext : s.insertNext guard e = some s := by
    unfold Store.insertNext
    split
    · rfl
    · next t hfind =>
      obtain ⟨ht, hid⟩ := Table.find?_eq_some_iff.1 hfind
      rw [if_neg]
      rw [h t ht hid]
      exact fun hcond => nomatch hcond.1
  rw [Store.emit, hnext, Option.bind_some, Store.advance, Store.updateTurn]
  split
  · rfl
  · rw [if_neg]
    rw [Bool.and_eq_true, List.any_eq_true]
    rintro ⟨-, e', he', hid⟩
    rw [Bool.and_eq_true, decide_eq_true_eq] at hid
    exact hfresh e' he' hid.1

theorem emitAll_lost {guard : Turn → Bool} {turn : String} {es : List Event} (hown : ∀ e ∈ es, e.turn = turn)
    (hfresh : ∀ e ∈ es, ∀ e' ∈ s.events, e'.id ≠ e.id) (h : ∀ t ∈ s.turns, t.id = turn → guard t = false) :
    s.emitAll guard es = some s := by
  induction es with
  | nil => rfl
  | cons e es ih =>
    have hemit : s.emit guard e = some s := by
      refine emit_lost (hfresh e List.mem_cons_self) ?_
      rw [hown e List.mem_cons_self]
      exact h
    rw [Store.emitAll, List.foldlM_cons, Option.bind_eq_bind, hemit, Option.bind_some]
    exact ih (fun e' he' => hown e' (List.mem_cons_of_mem _ he')) fun e' he' => hfresh e' (List.mem_cons_of_mem _ he')

theorem fresh_events {c : Completion} (hfresh : Fresh s (.complete c)) :
    ∀ e ∈ c.events, ∀ e' ∈ s.events, e'.id ≠ e.id := by
  intro e he e' he'
  obtain ⟨-, -, -, -, d, hd, heq, -⟩ := mem_numbered he
  rw [heq]
  refine (fresh_event (hfresh.2 _ ?_) e' he').1
  exact List.mem_append_right _ (List.mem_map_of_mem hd)

/-- **Without its lease a completion changes nothing.** -/
theorem complete_lost {c : Completion} (hfresh : Fresh s (.complete c)) (h : ¬ c.Lands s) :
    s.complete c = some s := by
  have hmessage : c.message ∉ s.ids := hfresh.2 _ (by simp [Batch.draws])
  have hjob : c.titleJob ∉ s.ids := hfresh.2 _ (by simp [Batch.draws])
  have hlost : ∀ t ∈ s.turns, t.id = c.turn → t.heldBy c.token c.now = false := by
    intro t ht hid
    rw [← Bool.not_eq_true]
    exact fun hheld => h ⟨t, ht, hid, hheld⟩
  have hfinish : s.finishAnswer c = some s := by
    unfold Store.finishAnswer Store.updateTurn
    split
    · rfl
    · next t hfind =>
      obtain ⟨ht, hid⟩ := Table.find?_eq_some_iff.1 hfind
      rw [if_neg]
      simp [hlost t ht hid]
  have htouch : s.touchConversation c.conversation c.now
      (s.turns.rows.any fun t => t.id = c.turn && t.phase.message? = some c.message) = s := by
    have hno : (s.turns.rows.any fun t => t.id = c.turn && t.phase.message? = some c.message) = false := by
      rw [List.any_eq_false]
      intro t ht hsame
      rw [Bool.and_eq_true, decide_eq_true_eq, decide_eq_true_eq] at hsame
      exact (fresh_turn hmessage t ht).2.2.2 hsame.2
    rw [hno, Store.touchConversation, Table.update_eq_self]
    intro r _ hcond
    simp at hcond
  have htitle : s.requestTitle c = s := by
    rw [Store.requestTitle, Table.update_eq_self]
    intro r _ hcond
    rw [Bool.and_eq_true, List.any_eq_true] at hcond
    obtain ⟨-, m, hm, hsame⟩ := hcond
    rw [Bool.and_eq_true, Bool.and_eq_true, decide_eq_true_eq] at hsame
    exact absurd hsame.1.1 (fresh_message hmessage m hm).1
  have hnojob : s.insertTitleJob c = some s := by
    have hfind : (s.conversations.rows.find? fun r => r.pendingTitleJob = some c.titleJob) = none := by
      rw [List.find?_eq_none]
      intro r hr hpending
      exact (fresh_conversation hjob r hr).2 (of_decide_eq_true hpending)
    rw [Store.insertTitleJob, hfind]
  have hemit : s.emitAll (·.heldBy c.token c.now) c.events = some s :=
    emitAll_lost (fun e he => (mem_numbered he).1) (fresh_events hfresh) hlost
  rw [Store.complete, insertAnswer_lost hlost, hemit]
  simp only [Option.bind_eq_bind, Option.bind_some, hfinish, htouch, htitle, hnojob]

/-! ## With it -/

/-- What the requests keep of the turns: the sequences of their events, their
    attempts and their user messages. -/
structure Kept (s : Store) : Prop where
  sequences : ∀ t ∈ s.turns, (s.stream t.id).map (·.sequence) = List.range' 1 t.eventSequence
  attempts : ∀ t ∈ s.turns, t.attemptCount ≤ t.maxAttempts
  asked : ∀ t ∈ s.turns, ∃ m ∈ s.messages, m.id = t.userMessage ∧ m.conversation = t.conversation ∧ m.role = .user
  answered : ∀ m ∈ s.messages, m.role = .assistant → ∃ t ∈ s.turns, t.id = m.source ∧ t.phase.message? = some m.id

theorem mayBecome_self {phase : Phase} (h : phase.active = true) : phase.mayBecome phase = true := by
  cases phase with
  | pending | processing => rfl
  | answered | ended => cases h

/-- An update that the triggers admit is not aborted. -/
theorem updateTurn_some {id : String} {guard : Turn → Bool} {set : Turn → TurnState} {t : Turn} (ht : t ∈ s.turns)
    (hid : t.id = id) (hadmits : s.admits t (t.set (set t))) : ∃ s', s.updateTurn id guard set = some s' := by
  have hfind : s.turns.find? id = some t := Table.find?_eq_some_iff.2 ⟨ht, hid⟩
  unfold Store.updateTurn
  rw [hfind]
  by_cases hguard : guard t = true
  · exact ⟨_, (if_pos hguard).trans (if_pos hadmits)⟩
  · exact ⟨_, if_neg hguard⟩

/-- The next event of a turn is inserted. -/
theorem emit_some {guard : Turn → Bool} {e : Event} {t : Turn} (hattempts : t.attemptCount ≤ t.maxAttempts)
    (hfresh : ∀ e' ∈ s.events, e'.id ≠ e.id) (ht : t ∈ s.turns) (hid : t.id = e.turn) (hguard : guard t = true)
    (hallows : s.allows t e) (hclash : ∀ e' ∈ s.events, Event.clash e e' = false) :
    ∃ s', s.emit guard e = some s' ∧ Frame s s' ∧ Moves s s' t (t.advanced 1) [e] := by
  have hfind : s.turns.find? e.turn = some t := Table.find?_eq_some_iff.2 ⟨ht, hid⟩
  have hsequence : t.eventSequence + 1 = e.sequence := hallows.1.symm
  have hrows := rows_insertIgnore_new fun e' he' => ⟨hfresh e' he', hclash e' he'⟩
  set s₁ : Store := { s with events := s.events.insertIgnore e (Event.clash e) } with hs₁
  have hnext : s.insertNext guard e = some s₁ := by
    rw [Store.insertNext, hfind]
    show (if _ then _ else _) = _
    rw [if_pos ⟨hguard, hsequence⟩, Store.insertEvent, hfind]
    exact if_pos ⟨hallows, .inl rfl⟩
  have hmem : e ∈ s₁.events.rows := by
    rw [hs₁]
    show e ∈ (s.events.insertIgnore e (Event.clash e)).rows
    rw [hrows]
    exact List.mem_append_right _ List.mem_cons_self
  have hadmits : s₁.admits t (t.set { t.toTurnState with eventSequence := e.sequence }) :=
    ⟨hallows.2.1, mayBecome_self hallows.2.1, .inr ⟨hallows.1, e, hmem, hid.symm, rfl⟩, .inl rfl,
      List.prefix_refl _, hattempts, hallows.2.2.2.1⟩
  have hemit : ∃ s', s.emit guard e = some s' := by
    rw [Store.emit, hnext, Option.bind_some]
    exact updateTurn_some (s := s₁) ht hid hadmits
  obtain ⟨s', hs'⟩ := hemit
  refine ⟨s', hs', ?_⟩
  rcases emit_moves hfresh hs' with ⟨-, hno⟩ | ⟨t₁, hid₁, -, -, -, -, hframe, hmoves⟩
  · obtain ⟨e', he', hclash'⟩ := hno t ht hid hguard hsequence
    rw [hclash e' he'] at hclash'
    cases hclash'
  · obtain rfl : t₁ = t := s.turns.eq_of_key_eq hmoves.mem ht (hid₁.trans hid.symm)
    exact ⟨hframe, hmoves⟩

/-- The events of some drafts are all inserted. -/
theorem emitAll_some {guard : Turn → Bool} {now : ℤ} {ds : List Draft} {t : Turn}
    (hattempts : t.attemptCount ≤ t.maxAttempts) (hactive : t.phase.active = true)
    (hguard : ∀ n, guard (t.advanced n) = true) (hids : (ds.map (·.id)).Nodup) (hkeys : (ds.map (·.key)).Nodup)
    (hfresh : ∀ d ∈ ds, ∀ e ∈ s.events, e.id ≠ d.id)
    (hnokey : ∀ d ∈ ds, ∀ e ∈ s.events, e.turn = t.id → e.key ≠ d.key)
    (hlow : ∀ e ∈ s.events, e.turn = t.id → e.sequence ≤ t.eventSequence)
    (hmessages : ∀ d ∈ ds, ∀ m ∈ d.body.messageId, ∃ message ∈ s.messages, message.id = m ∧
      message.conversation = t.conversation ∧ message.role = .assistant)
    (hfits : Fits (numbered t.id now t.eventSequence ds)) (ht : t ∈ s.turns) :
    ∃ s', s.emitAll guard (numbered t.id now t.eventSequence ds) = some s' ∧ Frame s s' ∧
      Moves s s' t (t.advanced ds.length) (numbered t.id now t.eventSequence ds) := by
  induction ds generalizing s t with
  | nil => exact ⟨s, rfl, .refl s, .refl ht⟩
  | cons d ds ih =>
    rw [numbered] at hfits ⊢
    rw [List.map_cons, List.nodup_cons] at hids hkeys
    set e : Event := ⟨d.id, t.id, t.eventSequence + 1, d.body, now, d.key⟩ with he
    obtain ⟨hsequence, hbytes⟩ := hfits e List.mem_cons_self
    have hallows : s.allows t e :=
      ⟨rfl, hactive, hmessages d List.mem_cons_self, hsequence, hbytes⟩
    have hclash : ∀ e' ∈ s.events, Event.clash e e' = false := by
      intro e' he'
      rw [← Bool.not_eq_true, Event.clash, Bool.and_eq_true, Bool.or_eq_true, decide_eq_true_eq, decide_eq_true_eq,
        decide_eq_true_eq]
      rintro ⟨hturn, hsame | hsame⟩
      · have hle := hlow e' he' hturn
        rw [hsame] at hle
        exact absurd hle (Nat.not_succ_le_self _)
      · exact hnokey d List.mem_cons_self e' he' hturn hsame
    obtain ⟨s₁, hemit, hframe, hmoves⟩ :=
      emit_some hattempts (hfresh d List.mem_cons_self) ht rfl (hguard 0) hallows hclash
    have hevents : ∀ e' ∈ s₁.events, e' ∈ s.events ∨ e' = e := by
      intro e' he'
      rwa [← Table.mem_rows, hmoves.events, List.mem_append, List.mem_singleton] at he'
    obtain ⟨s', hrest, hframe', hmoves'⟩ := ih (s := s₁) (t := t.advanced 1) hattempts hactive
      (fun n => by rw [Turn.advanced_advanced]; exact hguard _) hids.2 hkeys.2
      (by
        intro d' hd' e' he'
        rcases hevents e' he' with he' | rfl
        · exact hfresh d' (List.mem_cons_of_mem _ hd') e' he'
        · intro heq
          have heq : d.id = d'.id := heq
          exact hids.1 (heq ▸ List.mem_map_of_mem hd'))
      (by
        intro d' hd' e' he' hturn
        rcases hevents e' he' with he' | rfl
        · exact hnokey d' (List.mem_cons_of_mem _ hd') e' he' hturn
        · intro heq
          have heq : d.key = d'.key := heq
          exact hkeys.1 (heq ▸ List.mem_map_of_mem hd'))
      (by
        intro e' he' hturn
        rcases hevents e' he' with he' | rfl
        · exact Nat.le_succ_of_le (hlow e' he' hturn)
        · exact Nat.le_refl _)
      (by
        rw [hframe.messages]
        exact fun d' hd' => hmessages d' (List.mem_cons_of_mem _ hd'))
      (fun e' he' => hfits e' (List.mem_cons_of_mem _ he')) hmoves.mem_after
    refine ⟨s', ?_, hframe.trans hframe', ?_⟩
    · rw [Store.emitAll, List.foldlM_cons, Option.bind_eq_bind, hemit, Option.bind_some]
      exact hrest
    · have hall := hmoves.trans hmoves'
      rwa [Turn.advanced_advanced, Nat.add_comm, ← List.length_cons (a := d)] at hall

/-! ## The keys of a completion -/

/-- The part of a key that tells the kind of its event. -/
def keyStem (key : String) : List Char := key.toList.take 19

theorem keyStem_append {stem : String} (h : 19 ≤ stem.toList.length) (rest : String) :
    keyStem (stem ++ rest) = keyStem stem := by
  rw [keyStem, String.toList_append, List.take_append_of_le_length h, keyStem]

theorem numberedKey_injective (stem : String) {i j : ℕ} (h : stem ++ toString i = stem ++ toString j) : i = j := by
  have hlists := congrArg String.toList h
  rw [String.toList_append, String.toList_append] at hlists
  have hdigits := List.append_cancel_left hlists
  rw [Nat.toString_eq_repr, Nat.toString_eq_repr, Nat.toList_repr, Nat.toList_repr] at hdigits
  exact Json.toDigits_injective hdigits

theorem nodup_numberedKeys {α : Type} (stem : String) (l : List α) :
    (l.mapIdx fun i _ => stem ++ toString i).Nodup := by
  rw [List.nodup_iff_injective_get]
  intro i j h
  simp only [List.get_eq_getElem, List.getElem_mapIdx] at h
  exact Fin.ext (numberedKey_injective stem h)

theorem map_mapIdx {α β γ : Type} (f : ℕ → α → β) (g : β → γ) (l : List α) :
    (l.mapIdx f).map g = l.mapIdx fun i a => g (f i a) :=
  List.ext_getElem (by simp) fun i h h' => by simp

theorem Completion.keys_eq (c : Completion) : c.drafts.map (·.key) =
    "completion:answer-started"
      :: (c.chunks.mapIdx fun i _ => "completion:answer-delta:" ++ toString i)
      ++ (c.blocks.mapIdx fun i _ => "completion:content-block:" ++ toString i)
      ++ ["completion:answer-completed", "completion:conversation-completed"] := by
  have hmap : c.drafts.map (·.key) =
      (c.answerEvents ++ [("completion:conversation-completed", EventBody.conversationCompleted)]).map (·.1) := by
    rw [drafts, map_mapIdx]
    exact List.ext_getElem (by simp) fun i h h' => by simp only [List.getElem_mapIdx, List.getElem_map]
  rw [hmap, answerEvents]
  simp only [List.map_append, List.map_cons, map_mapIdx, List.map_nil, List.append_assoc, List.cons_append,
    List.nil_append]

theorem Completion.nodup_keys (c : Completion) : (c.drafts.map (·.key)).Nodup := by
  have hdelta : ∀ k ∈ c.chunks.mapIdx fun i _ => "completion:answer-delta:" ++ toString i,
      keyStem k = keyStem "completion:answer-delta:" := by
    intro k hk
    obtain ⟨i, -, rfl⟩ := List.mem_mapIdx.1 hk
    exact keyStem_append (by decide) _
  have hblock : ∀ k ∈ c.blocks.mapIdx fun i _ => "completion:content-block:" ++ toString i,
      keyStem k = keyStem "completion:content-block:" := by
    intro k hk
    obtain ⟨i, -, rfl⟩ := List.mem_mapIdx.1 hk
    exact keyStem_append (by decide) _
  rw [keys_eq, List.append_assoc, List.cons_append, List.nodup_cons, List.nodup_append, List.nodup_append]
  refine ⟨?_, nodup_numberedKeys _ _, ⟨nodup_numberedKeys _ _, by decide, ?_⟩, ?_⟩
  · intro hmem
    rw [List.mem_append, List.mem_append] at hmem
    rcases hmem with hmem | hmem | hmem
    · exact absurd (hdelta _ hmem) (by decide)
    · exact absurd (hblock _ hmem) (by decide)
    · exact absurd hmem (by decide)
  · rintro k hk k' hk' rfl
    have hstem := hblock k hk
    simp only [List.mem_cons, List.not_mem_nil, or_false] at hk'
    rcases hk' with rfl | rfl <;> exact absurd hstem (by decide)
  · rintro k hk k' hk' rfl
    have hstem := hdelta k hk
    rcases List.mem_append.1 hk' with hk' | hk'
    · exact absurd (hstem.symm.trans (hblock k hk')) (by decide)
    · simp only [List.mem_cons, List.not_mem_nil, or_false] at hk'
      rcases hk' with rfl | rfl <;> exact absurd hstem (by decide)

/-! ## A whole completion -/

theorem Completion.messageId_eq (c : Completion) : ∀ d ∈ c.drafts, ∀ m ∈ d.body.messageId, m = c.message := by
  have hanswer : ∀ b ∈ c.answerEvents ++ [("completion:conversation-completed", EventBody.conversationCompleted)],
      ∀ m ∈ b.2.messageId, m = c.message := by
    intro b hb m hm
    simp only [answerEvents, List.mem_append, List.mem_cons, List.mem_mapIdx, List.not_mem_nil, or_false] at hb
    rcases hb with ((((rfl | ⟨i, hi, rfl⟩) | ⟨i, hi, rfl⟩) | rfl)) | rfl
    · cases hm
    · cases hm
    · cases hm
    · exact (Option.some.inj hm).symm
    · cases hm
  intro d hd
  obtain ⟨i, hi, rfl⟩ := List.mem_mapIdx.1 hd
  exact hanswer _ (List.getElem_mem hi)

/-- The sequences of a turn's events are up to its counter. -/
theorem Kept.sequence_le (h : Kept s) {t : Turn} (ht : t ∈ s.turns) :
    ∀ e ∈ s.events, e.turn = t.id → e.sequence ≤ t.eventSequence := by
  intro e he hturn
  have hmem : e.sequence ∈ (s.stream t.id).map (·.sequence) :=
    List.mem_map_of_mem (List.mem_filter.2 ⟨he, decide_eq_true hturn⟩)
  rw [h.sequences t ht, List.mem_range'_1] at hmem
  omega

/-- A turn that is held has no answer message. -/
theorem Kept.not_answers (h : Kept s) {t : Turn} (ht : t ∈ s.turns) (hactive : t.phase.active = true) :
    ¬ s.answers t.id := by
  rintro ⟨m, hm, hsource, hrole⟩
  obtain ⟨t', ht', hid, hmessage⟩ := h.answered m hm hrole
  obtain rfl : t' = t := s.turns.eq_of_key_eq ht' ht (hid.trans hsource)
  cases hphase : t'.phase with
  | pending | processing | ended =>
    rw [hphase] at hmessage
    cases hmessage
  | answered =>
    rw [hphase] at hactive
    cases hactive

/-- The title job of a completion has a first user message. -/
theorem insertTitleJob_some {c : Completion} {conversation : String}
    (hasked : ∃ m ∈ s.messages, m.conversation = conversation ∧ m.role = .user)
    (hmessage : ∀ m ∈ s.messages, m.id = c.message → m.conversation = conversation)
    (hjob : ∀ r ∈ s.conversations, r.pendingTitleJob ≠ some c.titleJob) :
    ∃ s', (s.requestTitle c).insertTitleJob c = some s' := by
  unfold Store.insertTitleJob
  split
  · exact ⟨_, rfl⟩
  next r hfind =>
  have hr := List.mem_of_find?_eq_some hfind
  have hpending : r.pendingTitleJob = some c.titleJob := by simpa using List.find?_some hfind
  obtain ⟨r₀, hr₀, hcond⟩ := List.mem_map.1 hr
  have hid : r.id = conversation := by
    split at hcond
    · next hrequest =>
      rw [Bool.and_eq_true, List.any_eq_true] at hrequest
      obtain ⟨-, m, hm, hsame⟩ := hrequest
      rw [Bool.and_eq_true, Bool.and_eq_true, decide_eq_true_eq, decide_eq_true_eq] at hsame
      rw [← hcond, ← hmessage m hm hsame.1.1, hsame.1.2]
    · rw [← hcond] at hpending
      exact absurd hpending (hjob r₀ hr₀)
  obtain ⟨m, hm, hconversation, hrole⟩ := hasked
  cases hfirst : (s.requestTitle c).firstUserMessage r.id with
  | some first => exact ⟨_, rfl⟩
  | none =>
    have hnil := Table.firstBy_eq_none_iff.1 hfirst
    have hmem : m ∈ (s.requestTitle c).messages.rows.filter
        fun m => m.conversation = r.id && m.role = .user :=
      List.mem_filter.2 ⟨hm, by simp [hconversation, hid, hrole]⟩
    rw [hnil] at hmem
    cases hmem

/-- **A whole completion is done.** -/
theorem complete_done {c : Completion} {t : Turn} (hkept : Kept s) (hfresh : Fresh s (.complete c))
    (hfits : Fits c.events) (ht : t ∈ s.turns) (hid : t.id = c.turn) (hheld : t.heldBy c.token c.now = true)
    (hsequence : t.eventSequence = c.sequence)
    (hkeys : ∀ e ∈ s.events, e.turn = t.id → e.key ∉ c.drafts.map (·.key)) :
    ∃ s' t', s.complete c = some s' ∧ Moves s s' t t' c.events ∧ t'.phase = .answered c.message c.now ∧
      t'.attemptCount = t.attemptCount ∧ s'.messages.rows = s.messages.rows ++ [c.answerMessage t] ∧
      s'.claims = s.claims := by
  have hmessage : c.message ∉ s.ids := hfresh.2 _ (by simp [Batch.draws])
  have hactive := active_of_heldBy hheld
  rcases insertAnswer_held hmessage ht hid hheld with ⟨hanswers, -⟩ | ⟨-, hinsert, hrows⟩
  · exact absurd hanswers (hkept.not_answers ht hactive)
  have hquiet := insertAnswer_quiet s c
  have hevents : c.events = numbered t.id c.now t.eventSequence c.drafts := by
    rw [hid, hsequence]
    rfl
  have hanswer : c.answerMessage t ∈ (s.insertAnswer c).messages := by
    rw [← Table.mem_rows, hrows]
    exact List.mem_append_right _ List.mem_cons_self
  have hnodup := hfresh.1
  simp only [Batch.draws, List.cons_append, List.nil_append, List.nodup_cons] at hnodup
  obtain ⟨s₁, hemit, hframe, hmoves⟩ := @emitAll_some (s.insertAnswer c) (·.heldBy c.token c.now) c.now c.drafts t
    (hkept.attempts t ht) hactive
    (fun _ => hheld) hnodup.2.2 c.nodup_keys
    (by
      rw [hquiet.2]
      intro d hd e he
      exact (fresh_event (hfresh.2 _ (List.mem_append_right _ (List.mem_map_of_mem hd))) e he).1)
    (by
      rw [hquiet.2]
      exact fun d hd e he hturn heq => hkeys e he hturn (heq ▸ List.mem_map_of_mem hd))
    (by
      rw [hquiet.2]
      exact hkept.sequence_le ht)
    (by
      intro d hd m hm
      rw [c.messageId_eq d hd m hm]
      exact ⟨_, hanswer, rfl, rfl, rfl⟩)
    (by rwa [← hevents]) (by rw [hquiet.1]; exact ht)
  rw [← hevents] at hemit hmoves
  have hmoves := hmoves.congr hquiet ⟨rfl, rfl⟩
  -- the status passes its guard and its triggers
  obtain ⟨l, hphase, -⟩ := Turn.heldBy_iff.1 hheld
  have hlast : c.completedEvent ∈ c.events := by
    rw [c.events_eq]
    exact List.mem_append_right _ List.mem_cons_self
  have hcount : (t.advanced c.drafts.length).eventSequence = c.sequence + c.drafts.length := by
    rw [Turn.eventSequence_advanced, hsequence]
  have hbound : c.sequence + c.drafts.length ≤ MAX_ASSISTANT_EVENTS_PER_TURN := by
    rw [c.length_drafts]
    exact (hfits _ hlast).1
  obtain ⟨s₂, hfinish⟩ : ∃ s₂, s₁.finishAnswer c = some s₂ := by
    refine updateTurn_some hmoves.mem_after hid ⟨hactive, ?_, .inl rfl, .inr rfl, List.prefix_append _ _,
      hkept.attempts t ht, hcount ▸ hbound⟩
    simp [Turn.set, Turn.advanced, hphase, Phase.mayBecome]
  have hmessages₁ : s₁.messages.rows = s.messages.rows ++ [c.answerMessage t] := by
    rw [hframe.messages, hrows]
  rcases finishAnswer_cases hfinish with ⟨-, hno⟩ | ⟨t₁, t', hmoves₁, hframe₁, hid₁, -, -, -, hphase', hattempts⟩
  · refine absurd hid (hno _ hmoves.mem_after hid hheld hcount (c.answerMessage t) ?_ rfl)
    rw [← Table.mem_rows, hmessages₁]
    exact List.mem_append_right _ List.mem_cons_self
  obtain rfl : t₁ = t.advanced c.drafts.length :=
    s₁.turns.eq_of_key_eq hmoves₁.mem hmoves.mem_after (hid₁.trans hid.symm)
  have hall := hmoves.trans hmoves₁
  rw [List.append_nil] at hall
  -- the title job is inserted, or not wanted
  set s₃ := s₂.touchConversation c.conversation c.now
    (s₂.turns.rows.any fun t => t.id = c.turn && t.phase.message? = some c.message) with hs₃
  have hmessages₃ : s₃.messages.rows = s.messages.rows ++ [c.answerMessage t] := by
    show s₂.messages.rows = _
    rw [hframe₁.messages, hmessages₁]
  obtain ⟨s₄, htitle⟩ : ∃ s₄, (s₃.requestTitle c).insertTitleJob c = some s₄ := by
    obtain ⟨m, hm, -, hconversation, hrole⟩ := hkept.asked t ht
    refine @insertTitleJob_some s₃ c t.conversation ⟨m, ?_, hconversation, hrole⟩ ?_ ?_
    · rw [← Table.mem_rows, hmessages₃]
      exact List.mem_append_left _ hm
    · intro m hm heq
      rw [← Table.mem_rows, hmessages₃, List.mem_append, List.mem_singleton] at hm
      rcases hm with hm | rfl
      · exact absurd heq (fresh_message hmessage m hm).1
      · rfl
    · intro r hr hpending
      obtain ⟨r₀, hr₀, rfl⟩ := List.mem_map.1 hr
      have hr₀ : r₀ ∈ s.conversations := by
        rw [hframe₁.conversations, hframe.conversations, hinsert] at hr₀
        exact hr₀
      have hsame : r₀.pendingTitleJob = some c.titleJob := by
        split at hpending <;> exact hpending
      exact (fresh_conversation (hfresh.2 _ (by simp [Batch.draws])) r₀ hr₀).2 hsame
  have hexec : s.complete c = some s₄ := by
    rw [Store.complete]
    simp only [Option.bind_eq_bind, hemit, Option.bind_some, hfinish]
    exact htitle
  obtain ⟨u₁, u₂, hu₁, hu₂, hquiet₄, hmessages₄, hclaims₄⟩ := complete_split hexec
  cases hemit.symm.trans hu₁
  cases hfinish.symm.trans hu₂
  refine ⟨s₄, t', hexec, hall.congr ⟨rfl, rfl⟩ hquiet₄, hphase', hattempts, ?_, ?_⟩
  · rw [hmessages₄, hframe₁.messages, hmessages₁]
  · rw [hclaims₄, hframe₁.claims, hframe.claims, hinsert]
    rfl

/-! ## What the batches keep -/

theorem kept_moves {t t' : Turn} {es : List Event} (h : Kept s) (hmoves : Moves s s' t t' es)
    (hactive : t.phase.active = true) (hattempts : t'.attemptCount ≤ t.maxAttempts)
    (hold : ∀ m ∈ s.messages, m ∈ s'.messages)
    (hnew : ∀ m ∈ s'.messages, m ∈ s.messages ∨ (m.source = t.id ∧ t'.phase.message? = some m.id)) : Kept s' where
  sequences := by
    intro r hr
    rcases hmoves.mem_iff.1 hr with rfl | ⟨hr, hid⟩
    · exact hmoves.stream_sequences (h.sequences t hmoves.mem)
    · rw [hmoves.stream_other hid]
      exact h.sequences r hr
  attempts := by
    intro r hr
    rcases hmoves.mem_iff.1 hr with rfl | ⟨hr, -⟩
    · rw [hmoves.set]
      exact hattempts
    · exact h.attempts r hr
  asked := by
    intro r hr
    rcases hmoves.mem_iff.1 hr with rfl | ⟨hr, -⟩
    · obtain ⟨m, hm, hasked⟩ := h.asked t hmoves.mem
      rw [hmoves.set]
      exact ⟨m, hold m hm, hasked⟩
    · obtain ⟨m, hm, hasked⟩ := h.asked r hr
      exact ⟨m, hold m hm, hasked⟩
  answered := by
    intro m hm hrole
    rcases hnew m hm with hm | ⟨hsource, hmessage⟩
    · obtain ⟨r, hr, hid, hmessage⟩ := h.answered m hm hrole
      refine ⟨r, hmoves.mem_iff.2 (.inr ⟨hr, fun hsame => ?_⟩), hid, hmessage⟩
      -- an answered turn is not the one that changed
      obtain rfl : r = t := s.turns.eq_of_key_eq hr hmoves.mem hsame
      cases hphase : r.phase with
      | pending | processing | ended =>
        rw [hphase] at hmessage
        cases hmessage
      | answered =>
        rw [hphase] at hactive
        cases hactive
    · exact ⟨t', hmoves.mem_after, by rw [hmoves.id, hsource], hmessage⟩

/-- A move that leaves the messages. -/
theorem kept_moves' {t t' : Turn} {es : List Event} (h : Kept s) (hmoves : Moves s s' t t' es)
    (hactive : t.phase.active = true) (hattempts : t'.attemptCount ≤ t.maxAttempts)
    (hmessages : s'.messages = s.messages) : Kept s' :=
  kept_moves h hmoves hactive hattempts (by rw [hmessages]; exact fun m hm => hm)
    (by rw [hmessages]; exact fun m hm => .inl hm)

theorem kept_create {c : Creation} (hfresh : Fresh s (.create c)) (h : Kept s) (hexec : s.create c = some s') :
    Kept s' := by
  have hcreated := create_cases hfresh hexec
  have hmem : ∀ m, m ∈ s'.messages ↔ m ∈ s.messages ∨
      m = ⟨c.userMessage, c.conversation, .user, c.message, c.now, c.turn⟩ := by
    intro m
    rw [← Table.mem_rows, hcreated.messages, List.mem_append, List.mem_singleton, Table.mem_rows]
  refine ⟨?_, ?_, ?_, ?_⟩
  · intro t ht
    rcases hcreated.mem_iff.1 ht with ht | rfl
    · rw [hcreated.stream_old hfresh ht]
      exact h.sequences t ht
    · have hstream : s'.stream (c.row.advanced 1).id = [c.started] := hcreated.stream_new hfresh
      rw [hstream]
      rfl
  · intro t ht
    rcases hcreated.mem_iff.1 ht with ht | rfl
    · exact h.attempts t ht
    · exact Nat.zero_le _
  · intro t ht
    rcases hcreated.mem_iff.1 ht with ht | rfl
    · obtain ⟨m, hm, hasked⟩ := h.asked t ht
      exact ⟨m, (hmem m).2 (.inl hm), hasked⟩
    · exact ⟨_, (hmem _).2 (.inr rfl), rfl, rfl, rfl⟩
  · intro m hm hrole
    rcases (hmem m).1 hm with hm | rfl
    · obtain ⟨t, ht, hanswered⟩ := h.answered m hm hrole
      exact ⟨t, hcreated.mem_iff.2 (.inl ht), hanswered⟩
    · cases hrole

/-- Where the lease of a completion is valid, the turn's counter is the one that
    was read, and no event of the turn has a key of the completion. -/
def Completion.Whole (s : Store) (c : Completion) : Prop :=
  ∀ t ∈ s.turns, t.id = c.turn → t.heldBy c.token c.now = true →
    t.eventSequence = c.sequence ∧ ∀ e ∈ s.events, e.turn = t.id → e.key ∉ c.drafts.map (·.key)

instance (s : Store) (c : Completion) : Decidable (c.Whole s) := by unfold Completion.Whole; infer_instance

def Batch.Whole (s : Store) : Batch → Prop
  | complete c => c.Whole s
  | _ => True

instance (s : Store) : (b : Batch) → Decidable (b.Whole s)
  | .complete c => inferInstanceAs (Decidable (c.Whole s))
  | .create _ | .recover .. | .claim .. | .renew .. | .append .. | .retry .. | .terminalize _ => .isTrue trivial

/-- The turn is answered, with its message and its events. -/
def Completion.Done (s : Store) (c : Completion) : Prop :=
  (∃ t ∈ s.turns, t.id = c.turn ∧ t.phase = .answered c.message c.now) ∧
    (∃ m ∈ s.messages, m.id = c.message ∧ m.source = c.turn ∧ m.role = .assistant ∧ m.content = c.answer) ∧
    ∀ e ∈ c.events, e ∈ s.events

/-- What a completion does where it is whole. -/
theorem complete_effect {c : Completion} (hkept : Kept s) (hfresh : Fresh s (.complete c))
    (hfits : Fits c.events) (hwhole : c.Whole s) :
    (c.Lands s ∧ ∃ s', s.complete c = some s' ∧ c.Done s' ∧ Kept s') ∨ (¬ c.Lands s ∧ s.complete c = some s) := by
  by_cases hlands : c.Lands s
  · obtain ⟨t, ht, hid, hheld⟩ := hlands
    obtain ⟨hsequence, hkeys⟩ := hwhole t ht hid hheld
    obtain ⟨s', t', hexec, hmoves, hphase, hattempts, hmessages, -⟩ :=
      complete_done hkept hfresh hfits ht hid hheld hsequence hkeys
    have hmem : ∀ m, m ∈ s'.messages ↔ m ∈ s.messages ∨ m = c.answerMessage t := by
      intro m
      rw [← Table.mem_rows, hmessages, List.mem_append, List.mem_singleton, Table.mem_rows]
    refine .inl ⟨⟨t, ht, hid, hheld⟩, s', hexec, ⟨?_, ?_, ?_⟩, ?_⟩
    · exact ⟨t', hmoves.mem_after, hmoves.id.trans hid, hphase⟩
    · exact ⟨c.answerMessage t, (hmem _).2 (.inr rfl), rfl, hid, rfl, rfl⟩
    · intro e he
      rw [← Table.mem_rows, hmoves.events]
      exact List.mem_append_right _ he
    · refine kept_moves hkept hmoves (active_of_heldBy hheld) (hattempts ▸ hkept.attempts t ht)
        (fun m hm => (hmem m).2 (.inl hm)) fun m hm => ?_
      rcases (hmem m).1 hm with hm | rfl
      · exact .inl hm
      · exact .inr ⟨rfl, by rw [hphase]; rfl⟩
  · exact .inr ⟨hlands, complete_lost hfresh hlands⟩

/-- **One batch.** -/
theorem kept_land {b : Batch} (hformed : Formed b) (hfresh : Fresh s b) (hwhole : b.Whole s) (h : Kept s)
    (hexec : exec b s = some s') : Kept s' := by
  cases b with
  | create c => exact kept_create hfresh h hexec
  | recover turn now =>
    rcases recover_cases hexec with rfl | ⟨t, l, t', hmoves, hframe, -, hphase, -, -, hattempts⟩
    · exact h
    · exact kept_moves' h hmoves (by rw [hphase]; rfl) (hattempts ▸ h.attempts t hmoves.mem) hframe.messages
  | claim worker token now =>
    rcases claim_cases hexec with rfl | ⟨t, code, hphase, -, hattempts, hmessages, -, -, -, hmoves⟩
    · exact h
    · exact kept_moves' h hmoves (by rw [hphase]; rfl) hattempts hmessages
  | renew turn token now =>
    rcases renew_cases hexec with ⟨rfl, -⟩ | ⟨t, l, t', hmoves, hframe, -, hphase, -, -, -, hattempts⟩
    · exact h
    · exact kept_moves' h hmoves (by rw [hphase]; rfl) (hattempts ▸ h.attempts t hmoves.mem) hframe.messages
  | append turn token sequence drafts now =>
    rcases append_cases hfresh hexec with rfl | ⟨t, es, hmoves, hframe, -, hheld, -⟩
    · exact h
    · exact kept_moves' h hmoves (active_of_heldBy hheld) (h.attempts t hmoves.mem) hframe.messages
  | complete c =>
    rcases complete_effect h hfresh hformed hwhole with ⟨-, s'', hdone, -, hkept⟩ | ⟨-, hlost⟩
    · cases hdone.symm.trans hexec
      exact hkept
    · cases hlost.symm.trans hexec
      exact h
  | retry turn token code event availableAt now =>
    rcases retry_cases hexec with ⟨rfl, -⟩ | ⟨t, l, t', hmoves, hframe, -, hphase, -, -, hattempts⟩
    · exact h
    · exact kept_moves' h hmoves (by rw [hphase]; rfl) (hattempts ▸ h.attempts t hmoves.mem) hframe.messages
  | terminalize c =>
    rcases terminalize_cases hfresh hexec with ⟨rfl, -⟩ | ⟨t, t', es, hmoves, hframe, -, hactive, -, hattempts, -⟩
    · exact h
    · exact kept_moves' h hmoves hactive (hattempts ▸ h.attempts t hmoves.mem) hframe.messages

/-! ## Runs -/

/-- The ids that the batch drew are new, and a completion is whole. -/
def Entire (w : World) (b : Batch) : Prop := Fresh w.state b ∧ b.Whole w.state

instance (w : World) (b : Batch) : Decidable (Entire w b) := by unfold Entire; infer_instance

def Batch.completion? : Batch → Option Completion
  | complete c => some c
  | _ => none

theorem Batch.completion?_eq_some {b : Batch} {c : Completion} (h : b.completion? = some c) : b = .complete c := by
  cases b <;> first | (cases h; rfl) | cases h

/-- The worker's answer. -/
def goldReply : CompleteBody :=
  { id := "turn", token := "lease", answer := "Gold.", blocks := [], evidenceIds := [], accepts := fun _ => true
    message := "answer", titleJob := "title", eventId := fun i => "completion-" ++ toString i, now := 2 }

/-- A completion has read the claimed turn. -/
def repliedTurn : List (FlightAction Request) :=
  claimedTurn ++ [.start (.complete goldReply), .advance 2, .advance 2]

/-- The worker's progress, five events. -/
def toolDrafts : List Draft :=
  [⟨"progress-1", "progress-0000001", .reasoningStarted "SIMPLE"⟩,
    ⟨"progress-2", "progress-0000002", .toolStarted "call-1" "search_v1" "v1"⟩,
    ⟨"progress-3", "progress-0000003", .toolFailed "call-1" "search_v1" "FAILED" "NO_RESULT"⟩,
    ⟨"progress-4", "progress-0000004", .toolStarted "call-2" "search_v1" "v1"⟩,
    ⟨"progress-5", "progress-0000005", .toolFailed "call-2" "search_v1" "FAILED" "NO_RESULT"⟩]

/-- The progress is appended before the batch of the completion. -/
def overtakenReply : List (FlightAction Request) :=
  repliedTurn ++ [.start (.append "turn" "lease" toolDrafts 2), .advance 3, .advance 3, .advance 3, .advance 3,
    .advance 2]

end Xauusd.Assistant
