/-
  What each batch does where it lands.

  * `Fresh`: the ids that a batch drew are nowhere in the store;
  * `Created`, `create_cases`: an admission adds a turn with its message and
    its first event, or nothing lands;
  * `recover_cases`, `claim_cases`, `renew_cases`, `retry_cases`: nothing, or
    one change of the turn's lease;
  * `append_cases`: nothing, or some of its events;
  * `complete_split`: the answer message, its events, the status, and the rest;
  * `terminalize_cases`: nothing, or the status with its event, or the status
    alone when one other event came between.
-/
import Xauusd.Assistant.Effects

namespace Xauusd.Assistant

/-- Every id in the store. -/
def Store.ids (s : Store) : List String :=
  s.conversations.rows.flatMap (fun r => r.id :: r.pendingTitleJob.toList)
    ++ s.messages.rows.flatMap (fun m => [m.id, m.source])
    ++ s.turns.rows.flatMap (fun t => [t.id, t.userMessage] ++ (t.phase.lease?.map (·.token)).toList
      ++ t.phase.message?.toList)
    ++ s.events.rows.flatMap (fun e => [e.id, e.turn] ++ e.body.messageId.toList)
    ++ s.titleJobs.rows.map (·.id) ++ s.claims.map (·.1)

/-- The ids that the batch drew are nowhere in the store. -/
def Fresh (s : Store) (b : Batch) : Prop := b.draws.Nodup ∧ ∀ id ∈ b.draws, id ∉ s.ids

instance (s : Store) (b : Batch) : Decidable (Fresh s b) := by unfold Fresh; infer_instance

section
variable {s : Store} {id : String} (h : id ∉ s.ids)
include h

theorem fresh_conversation : ∀ r ∈ s.conversations, r.id ≠ id ∧ r.pendingTitleJob ≠ some id := by
  intro r hr
  refine ⟨?_, ?_⟩
  · rintro rfl
    refine h ?_
    simp only [Store.ids, List.append_assoc, List.mem_append, List.mem_flatMap]
    exact .inl ⟨r, hr, List.mem_cons_self⟩
  · intro hjob
    refine h ?_
    simp only [Store.ids, List.append_assoc, List.mem_append, List.mem_flatMap]
    exact .inl ⟨r, hr, by simp [hjob]⟩

theorem fresh_message : ∀ m ∈ s.messages, m.id ≠ id ∧ m.source ≠ id := by
  intro m hm
  refine ⟨?_, ?_⟩ <;> rintro rfl <;> refine h ?_ <;>
    simp only [Store.ids, List.append_assoc, List.mem_append, List.mem_flatMap] <;>
    exact .inr (.inl ⟨m, hm, by simp⟩)

theorem fresh_turn : ∀ t ∈ s.turns, t.id ≠ id ∧ t.userMessage ≠ id ∧
    (∀ l ∈ t.phase.lease?, l.token ≠ id) ∧ t.phase.message? ≠ some id := by
  intro t ht
  have hmem : ∀ x ∈ [t.id, t.userMessage] ++ (t.phase.lease?.map (·.token)).toList ++ t.phase.message?.toList,
      x ∈ s.ids := by
    intro x hx
    simp only [Store.ids, List.append_assoc, List.mem_append, List.mem_flatMap]
    exact .inr (.inr (.inl ⟨t, ht, by simpa [or_assoc] using hx⟩))
  refine ⟨?_, ?_, ?_, ?_⟩
  · rintro rfl
    exact h (hmem _ (by simp))
  · rintro rfl
    exact h (hmem _ (by simp))
  · rintro l hl rfl
    exact h (hmem _ (by simp [Option.mem_def.1 hl]))
  · intro hmessage
    exact h (hmem _ (by simp [hmessage]))

theorem fresh_event : ∀ e ∈ s.events, e.id ≠ id ∧ e.turn ≠ id ∧ e.body.messageId ≠ some id := by
  intro e he
  have hmem : ∀ x ∈ [e.id, e.turn] ++ e.body.messageId.toList, x ∈ s.ids := by
    intro x hx
    simp only [Store.ids, List.append_assoc, List.mem_append, List.mem_flatMap]
    exact .inr (.inr (.inr (.inl ⟨e, he, by simpa [or_assoc] using hx⟩)))
  refine ⟨?_, ?_, ?_⟩
  · rintro rfl
    exact h (hmem _ (by simp))
  · rintro rfl
    exact h (hmem _ (by simp))
  · intro hmessage
    exact h (hmem _ (by simp [hmessage]))

theorem fresh_titleJob : ∀ j ∈ s.titleJobs, j.id ≠ id := by
  rintro j hj rfl
  refine h ?_
  simp only [Store.ids, List.append_assoc, List.mem_append, List.mem_map]
  exact .inr (.inr (.inr (.inr (.inl ⟨j, hj, rfl⟩))))

theorem fresh_claim : ∀ p ∈ s.claims, p.1 ≠ id := by
  rintro p hp rfl
  refine h ?_
  simp only [Store.ids, List.append_assoc, List.mem_append, List.mem_map]
  exact .inr (.inr (.inr (.inr (.inr ⟨p, hp, rfl⟩))))

end

/-! ## Admission -/

/-- What an admission adds. -/
structure Created (s s' : Store) (c : Creation) : Prop where
  capacity : s.capacity c.owner c.key c.now = true
  joined : ∃ r ∈ (if c.fresh then s.createConversation c else s).conversations, r.id = c.conversation
  idle : ∀ t ∈ s.turns, t.conversation = c.conversation → t.phase.active = false
  turns : s'.turns.rows = s.turns.rows ++ [c.row.advanced 1]
  events : s'.events.rows = s.events.rows ++ [c.started]
  messages : s'.messages.rows = s.messages.rows ++
    [⟨c.userMessage, c.conversation, .user, c.message, c.now, c.turn⟩]
  titleJobs : s'.titleJobs = s.titleJobs
  claims : s'.claims = s.claims
  conversations : ∃ p, s'.conversations =
    ((if c.fresh then s.createConversation c else s).touchConversation c.conversation c.now p).conversations

variable {s s' : Store}

theorem rows_insertIgnore_new {ρ κ : Type} [DecidableEq κ] {key : ρ → κ} {t : Table key} {r : ρ} {clash : ρ → Bool}
    (h : ∀ r' ∈ t, key r' ≠ key r ∧ clash r' = false) : (t.insertIgnore r clash).rows = t.rows ++ [r] := by
  obtain ⟨-, r', hr', hclash⟩ | ⟨-, hrows⟩ := t.insertIgnore_cases r clash
  · obtain ⟨hkey, hfalse⟩ := h r' hr'
    rcases hclash with hclash | hclash
    · exact absurd hclash hkey
    · rw [hfalse] at hclash
      cases hclash
  · exact hrows

/-- A message that clashes with no other. -/
theorem insertMessage_rows {m : Message}
    (h : ∀ m' ∈ s.messages, m'.id ≠ m.id ∧ ¬ (m'.source = m.source ∧ m'.role = m.role)) :
    (s.insertMessage m).messages.rows = s.messages.rows ++ [m] := by
  refine rows_insertIgnore_new fun m' hm' => ⟨(h m' hm').1, ?_⟩
  rw [← Bool.not_eq_true, Bool.and_eq_true, decide_eq_true_eq, decide_eq_true_eq]
  exact (h m' hm').2

theorem capacity_congr {u : Store} (h : u.turns = s.turns) (owner key : String) (now : ℤ) :
    u.capacity owner key now = s.capacity owner key now := by
  rw [Store.capacity, Store.capacity, h]

/-- The conversation statement of an admission. -/
theorem createConversation_frame (c : Creation) :
    (s.createConversation c).turns = s.turns ∧ (s.createConversation c).events = s.events ∧
      (s.createConversation c).messages = s.messages ∧ (s.createConversation c).titleJobs = s.titleJobs ∧
      (s.createConversation c).claims = s.claims := by
  unfold Store.createConversation
  split <;> exact ⟨rfl, rfl, rfl, rfl, rfl⟩

/-- The message statement of an admission. -/
theorem createUserMessage_cases (s : Store) (c : Creation) :
    s.createUserMessage c = s ∨
      (s.capacity c.owner c.key c.now = true ∧ (∃ r ∈ s.conversations, r.id = c.conversation) ∧
        (∀ t ∈ s.turns, t.conversation = c.conversation → t.phase.active = false) ∧
        s.createUserMessage c =
          s.insertMessage ⟨c.userMessage, c.conversation, .user, c.message, c.now, c.turn⟩) := by
  unfold Store.createUserMessage
  split
  · exact .inl rfl
  next conversation hfind =>
  split
  · next hcond =>
    exact .inr ⟨hcond.2.2.1, ⟨conversation, Table.find?_eq_some_iff.1 hfind⟩, hcond.2.2.2, rfl⟩
  · exact .inl rfl

/-- The turn statement of an admission, when its ids are new. -/
theorem createTurn_cases {c : Creation} (hturn : ∀ t ∈ s.turns, t.id ≠ c.turn ∧ t.userMessage ≠ c.userMessage)
    (h : s.createTurn c = some s') :
    s' = s ∨ ((∃ m ∈ s.messages, m.id = c.userMessage) ∧ Frame s s' ∧ s'.events = s.events ∧
      s'.turns.rows = s.turns.rows ++ [c.row]) := by
  unfold Store.createTurn at h
  split at h
  · cases h
    exact .inl rfl
  next conversation hjoins =>
  split at h
  · cases h
    exact .inl rfl
  next hkey =>
  split at h
  · cases h
    rw [List.any_eq_true] at hkey
    rw [Store.joins, Option.filter_eq_some_iff, Bool.and_eq_true, List.any_eq_true] at hjoins
    obtain ⟨-, -, m, hm, hid⟩ := hjoins
    simp only [Bool.and_eq_true, decide_eq_true_eq] at hid
    refine .inr ⟨⟨m, hm, hid.1.1⟩, ⟨rfl, rfl, rfl, rfl⟩, rfl, ?_⟩
    refine rows_insertIgnore_new fun t ht => ⟨(hturn t ht).1, ?_⟩
    rw [Bool.or_eq_false_iff, decide_eq_false_iff_not]
    refine ⟨(hturn t ht).2, ?_⟩
    rw [← Bool.not_eq_true]
    exact fun hsame => hkey ⟨t, ht, hsame⟩
  · cases h

/-- The last two statements of an admission on a turn that is new. -/
theorem start_moves {c : Creation} (hsource : ∀ e ∈ s.events, e.id ≠ c.event) (ht : c.row ∈ s.turns)
    {s₁ : Store} (h : s.insertEvent false c.started = some s₁) (h' : s₁.advance c.started = some s') :
    Frame s s' ∧ Moves s s' c.row (c.row.advanced 1) [c.started] := by
  have hemit : s.emit (fun _ => true) c.started = some s' := by
    have hnext : s.insertNext (fun _ => true) c.started = some s₁ := by
      have hfind : s.turns.find? c.started.turn = some c.row := Table.find?_eq_some_iff.2 ⟨ht, rfl⟩
      obtain ⟨t, -, -, hallows, hcases⟩ := Store.insertEvent_cases h
      have hinsert : s.insertEvent true c.started = some s₁ := by
        rw [Store.insertEvent, hfind] at h ⊢
        dsimp only at h ⊢
        split at h
        · next hcond => rwa [if_pos ⟨hcond.1, .inl rfl⟩]
        · cases h
      rw [Store.insertNext, hfind]
      exact (if_pos ⟨rfl, rfl⟩).trans hinsert
    rw [Store.emit, hnext]
    exact h'
  rcases emit_moves hsource hemit with ⟨heq, hclash⟩ | ⟨t, hid, -, -, -, -, hframe, hmoves⟩
  · obtain ⟨e, he, hclash⟩ := hclash _ ht rfl rfl rfl
    obtain ⟨t, -, -, -, hcases⟩ := Store.insertEvent_cases h
    rcases hcases with ⟨-, hfalse, -⟩ | ⟨hnew, -⟩
    · cases hfalse
    · rw [(hnew e he).2] at hclash
      cases hclash
  · obtain rfl : t = c.row := s.turns.eq_of_key_eq hmoves.mem ht hid
    exact ⟨hframe, hmoves⟩

theorem create_cases {c : Creation} (hfresh : Fresh s (.create c)) (h : s.create c = some s') :
    Created s s' c := by
  have hturn : c.turn ∉ s.ids := hfresh.2 _ (by simp [Batch.draws])
  have hmessage : c.userMessage ∉ s.ids := hfresh.2 _ (by simp [Batch.draws])
  have hevent : c.event ∉ s.ids := hfresh.2 _ (by simp [Batch.draws])
  set s₁ := if c.fresh then s.createConversation c else s with hs₁
  obtain ⟨hturns₁, hevents₁, hmessages₁, hjobs₁, hclaims₁⟩ :
      s₁.turns = s.turns ∧ s₁.events = s.events ∧ s₁.messages = s.messages ∧ s₁.titleJobs = s.titleJobs ∧
        s₁.claims = s.claims := by
    rw [hs₁]
    split
    · exact createConversation_frame c
    · exact ⟨rfl, rfl, rfl, rfl, rfl⟩
  rw [Store.create, ← hs₁] at h
  simp only [Option.bind_eq_bind, Option.bind_eq_some_iff, Option.pure_def, Option.some.injEq] at h
  obtain ⟨s₃, h₃, s₄, h₄, s₅, h₅, rfl⟩ := h
  have hnew : ∀ t ∈ s.turns, t.id ≠ c.turn ∧ t.userMessage ≠ c.userMessage :=
    fun t ht => ⟨(fresh_turn hturn t ht).1, (fresh_turn hmessage t ht).2.1⟩
  -- without the turn the first event aborts
  have hnoturn : s₃.turns ≠ s.turns := by
    intro hturns
    obtain ⟨t, ht, hid, -⟩ := Store.insertEvent_cases h₄
    rw [hturns] at ht
    exact (hnew t ht).1 hid
  have hturns₂ : (s₁.createUserMessage c).turns = s.turns ∧ (s₁.createUserMessage c).events = s.events := by
    rcases createUserMessage_cases s₁ c with heq | ⟨-, -, -, heq⟩
    · rw [heq]
      exact ⟨hturns₁, hevents₁⟩
    · rw [heq]
      exact ⟨hturns₁, hevents₁⟩
  rcases createTurn_cases (by rw [hturns₂.1]; exact hnew) h₃ with rfl | ⟨⟨m, hm, hid⟩, hframe₃, hevents₃, hrows₃⟩
  · exact absurd hturns₂.1 hnoturn
  rcases createUserMessage_cases s₁ c with heq | ⟨hcapacity, hjoined, hidle, heq⟩
  · rw [heq, hmessages₁] at hm
    exact absurd hid (fresh_message hmessage m hm).1
  rw [hturns₂.1] at hrows₃
  obtain ⟨hframe, hmoves⟩ := start_moves
    (by rw [hevents₃, hturns₂.2]; exact fun e he => (fresh_event hevent e he).1)
    (by rw [← Table.mem_rows, hrows₃]; exact List.mem_append_right _ List.mem_cons_self) h₄ h₅
  rw [heq] at hframe₃
  refine ⟨?_, hjoined, ?_, ?_, ?_, ?_, ?_, ?_, ?_⟩
  · rwa [← capacity_congr hturns₁]
  · rwa [hturns₁] at hidle
  · show s₅.turns.rows = _
    rw [hmoves.turns, hrows₃, List.map_append]
    congr 1
    · conv_rhs => rw [← List.map_id s.turns.rows]
      refine List.map_congr_left fun t ht => ?_
      exact if_neg (hnew t ht).1
    · simp
  · show s₅.events.rows = _
    rw [hmoves.events, hevents₃, hturns₂.2]
  · show s₅.messages.rows = _
    rw [hframe.messages, hframe₃.messages]
    show (s₁.insertMessage _).messages.rows = _
    rw [insertMessage_rows, hmessages₁]
    intro m' hm'
    rw [hmessages₁] at hm'
    exact ⟨(fresh_message hmessage m' hm').1, fun hsame => (fresh_message hturn m' hm').2 hsame.1⟩
  · show s₅.titleJobs = _
    rw [hframe.titleJobs, hframe₃.titleJobs]
    exact hjobs₁
  · show s₅.claims = _
    rw [hframe.claims, hframe₃.claims]
    exact hclaims₁
  · have hconversations : s₅.conversations = s₁.conversations := by
      rw [hframe.conversations, hframe₃.conversations]
      rfl
    exact ⟨_, by rw [Store.touchConversation, Store.touchConversation, hconversations]⟩

/-- The events of a turn after an admission. -/
theorem Created.stream {c : Creation} (h : Created s s' c) (id : String) :
    s'.stream id = s.stream id ++ if c.turn = id then [c.started] else [] := by
  rw [Store.stream, h.events, List.filter_append, Store.stream]
  by_cases hid : c.turn = id
  · simp [hid, Creation.started]
  · simp [hid, Creation.started]

theorem Created.mem_iff {c : Creation} (h : Created s s' c) {t : Turn} :
    t ∈ s'.turns ↔ t ∈ s.turns ∨ t = c.row.advanced 1 := by
  rw [← Table.mem_rows, h.turns, List.mem_append, List.mem_singleton, Table.mem_rows]

/-- The events of the new turn. -/
theorem Created.stream_new {c : Creation} (h : Created s s' c) (hfresh : Fresh s (.create c)) :
    s'.stream c.turn = [c.started] := by
  have hnone : s.stream c.turn = [] :=
    List.filter_eq_nil_iff.2 fun e he => by
      simpa using (fresh_event (hfresh.2 c.turn (by simp [Batch.draws])) e he).2.1
  rw [h.stream, hnone, if_pos rfl, List.nil_append]

/-- The events of the others. -/
theorem Created.stream_old {c : Creation} (h : Created s s' c) (hfresh : Fresh s (.create c)) {t : Turn}
    (ht : t ∈ s.turns) : s'.stream t.id = s.stream t.id := by
  have hne : c.turn ≠ t.id := (fresh_turn (hfresh.2 c.turn (by simp [Batch.draws])) t ht).1.symm
  rw [h.stream, if_neg hne, List.append_nil]

/-! ## Leases -/

theorem any_lease {t : Turn} {p : TurnLease → Bool} (h : t.phase.lease?.any p = true) :
    ∃ l, t.phase = .processing l ∧ p l = true := by
  cases hphase : t.phase with
  | processing l =>
    rw [hphase] at h
    exact ⟨l, rfl, h⟩
  | pending | answered | ended =>
    rw [hphase] at h
    cases h

theorem recover_cases {id : String} {now : ℤ} (h : s.recoverTurn id now = some s') :
    s' = s ∨ ∃ t l t', Moves s s' t t' [] ∧ Frame s s' ∧ t.id = id ∧ t.phase = .processing l ∧
      l.expiresAt ≤ now ∧ t'.phase = .pending (some "LEASE_EXPIRED") ∧ t'.attemptCount = t.attemptCount := by
  rcases updateTurn_moves h fun _ => rfl with ⟨rfl, -⟩ | ⟨t, hid, hguard, -, hframe, hmoves⟩
  · exact .inl rfl
  · obtain ⟨l, hphase, hexpired⟩ := any_lease hguard
    exact .inr ⟨t, l, _, hmoves, hframe, hid, hphase, of_decide_eq_true hexpired, rfl, rfl⟩

theorem retry_cases {id token code event : String} {availableAt now : ℤ}
    (h : s.retryTurn id token code event availableAt now = some s') :
    (s' = s ∧ ∀ t ∈ s.turns, t.id = id → ∀ l, t.phase = .processing l → l.token ≠ token) ∨
      ∃ t l t', Moves s s' t t' [] ∧ Frame s s' ∧ t.id = id ∧ t.phase = .processing l ∧ l.token = token ∧
        t'.phase = .pending (some code) ∧ t'.attemptCount = t.attemptCount := by
  rcases updateTurn_moves h fun _ => rfl with ⟨rfl, hno⟩ | ⟨t, hid, hguard, -, hframe, hmoves⟩
  · refine .inl ⟨rfl, fun t ht hid l hl htoken => ?_⟩
    have hfalse := hno t ht hid
    rw [hl] at hfalse
    exact (of_decide_eq_false hfalse) htoken
  · obtain ⟨l, hphase, htoken⟩ := any_lease hguard
    exact .inr ⟨t, l, _, hmoves, hframe, hid, hphase, of_decide_eq_true htoken, rfl, rfl⟩

theorem renew_cases {id token : String} {now : ℤ} (h : s.renewTurn id token now = some s') :
    (s' = s ∧ ∀ t ∈ s.turns, t.id = id → (t.heldBy token now && now < t.expiresAt) = false) ∨
      ∃ t l t', Moves s s' t t' [] ∧ Frame s s' ∧ t.id = id ∧ t.phase = .processing l ∧ l.token = token ∧
        now < l.expiresAt ∧ t'.phase = .processing { l with expiresAt := min (now + leaseMs) t.expiresAt } ∧
        t'.attemptCount = t.attemptCount := by
  rcases updateTurn_moves h fun _ => rfl with hquiet | ⟨t, hid, hguard, -, hframe, hmoves⟩
  · exact .inl hquiet
  · rw [Bool.and_eq_true] at hguard
    obtain ⟨l, hphase, htoken, hnow⟩ := Turn.heldBy_iff.1 hguard.1
    refine .inr ⟨t, l, _, hmoves, hframe, hid, hphase, htoken, hnow, ?_, rfl⟩
    simp [Turn.set, hphase]

theorem mem_claimable {now : ℤ} {t : Turn} (h : t ∈ s.claimable now) :
    t ∈ s.turns ∧ (∃ code, t.phase = .pending code) ∧ now < t.expiresAt ∧ t.attemptCount < t.maxAttempts := by
  unfold Store.claimable at h
  rw [List.mem_filter] at h
  obtain ⟨ht, hcond⟩ := h
  simp only [Bool.and_eq_true, decide_eq_true_eq] at hcond
  obtain ⟨⟨⟨hpending, -⟩, hexpires⟩, hattempts⟩ := hcond
  refine ⟨ht, ?_, hexpires, hattempts⟩
  cases hphase : t.phase with
  | pending code => exact ⟨code, rfl⟩
  | processing | answered | ended =>
    rw [hphase] at hpending
    cases hpending

theorem claim_cases {worker token : String} {now : ℤ} (h : s.claimTurn worker token now = some s') :
    s' = s ∨ ∃ t code, t.phase = .pending code ∧ now < t.expiresAt ∧ t.attemptCount < t.maxAttempts ∧
      s'.messages = s.messages ∧ s'.conversations = s.conversations ∧ s'.titleJobs = s.titleJobs ∧
      s'.claims = s.claims ++ [(token, t.set (Store.claimedState worker token now t))] ∧
      Moves s s' t (t.set (Store.claimedState worker token now t)) [] := by
  unfold Store.claimTurn at h
  split at h
  · cases h
    exact .inl rfl
  next t hnext =>
  rw [Option.map_eq_some_iff] at h
  obtain ⟨s₁, h₁, rfl⟩ := h
  obtain ⟨ht, ⟨code, hphase⟩, hexpires, hattempts⟩ := mem_claimable (Table.mem_of_firstBy hnext)
  rcases updateTurn_moves h₁ fun _ => rfl with ⟨-, hno⟩ | ⟨t₁, hid, -, -, hframe, hmoves⟩
  · exact absurd (hno t ht rfl) (by simp)
  · obtain rfl : t₁ = t := s.turns.eq_of_key_eq hmoves.mem ht hid
    refine .inr ⟨t₁, code, hphase, hexpires, hattempts, hframe.messages, hframe.conversations, hframe.titleJobs,
      ?_, hmoves.congr ⟨rfl, rfl⟩ ⟨rfl, rfl⟩⟩
    show s₁.claims ++ _ = _
    rw [hframe.claims]

/-! ## Events -/

theorem append_cases {turn token : String} {sequence : ℕ} {drafts : List Draft} {now : ℤ}
    (hfresh : Fresh s (.append turn token sequence drafts now))
    (h : s.append turn token sequence drafts now = some s') :
    s' = s ∨ ∃ t es, Moves s s' t (t.advanced es.length) es ∧ Frame s s' ∧ t.id = turn ∧
      t.heldBy token now = true ∧ es.Sublist (numbered turn now sequence drafts) := by
  have hown : ∀ e ∈ numbered turn now sequence drafts, e.turn = turn := fun e he => (mem_numbered he).1
  by_cases hturn : ∃ t ∈ s.turns, t.id = turn
  · obtain ⟨t, ht, rfl⟩ := hturn
    have hids : ((numbered t.id now sequence drafts).map (·.id)).Nodup := by
      rw [id_numbered]
      exact hfresh.1
    have hnew : ∀ e ∈ numbered t.id now sequence drafts, ∀ e' ∈ s.events, e'.id ≠ e.id := by
      intro e he e' he'
      obtain ⟨-, -, -, -, d, hd, hid, -⟩ := mem_numbered he
      rw [hid]
      exact (fresh_event (hfresh.2 _ (List.mem_map_of_mem hd)) e' he').1
    obtain ⟨es, hsub, hframe, hmoves, hsame, hheld, -⟩ := emitAll_moves hown hids hnew ht h
    cases es with
    | nil => exact .inl (hsame rfl)
    | cons e es => exact .inr ⟨t, e :: es, hmoves, hframe, rfl, hheld (by simp), hsub⟩
  · exact .inl (emitAll_none hown (fun t ht hid => hturn ⟨t, ht, hid⟩) h)

/-! ## Terminal statuses -/

theorem terminalize_cases {c : Ending} (hfresh : Fresh s (.terminalize c)) (h : s.terminalize c = some s') :
    (s' = s ∧ ∀ t ∈ s.turns, t.id = c.turn → t.phase.active = true → t.eventSequence ≠ c.sequence + 1) ∨
      ∃ t t' es, Moves s s' t t' es ∧ Frame s s' ∧ t.id = c.turn ∧ t.phase.active = true ∧
        t'.phase = .ended c.outcome c.code c.now ∧ t'.attemptCount = t.attemptCount ∧
        ((t.eventSequence = c.sequence ∧ es = [c.terminalEvent]) ∨ (t.eventSequence = c.sequence + 1 ∧ es = [])) := by
  rw [Store.terminalize, Option.bind_eq_bind, Option.bind_eq_some_iff] at h
  obtain ⟨s₁, h₁, h₂⟩ := h
  have hnew : ∀ e ∈ s.events, e.id ≠ c.terminalEvent.id :=
    fun e he => (fresh_event (hfresh.2 _ (by simp [Batch.draws, Ending.terminalEvent])) e he).1
  rcases emit_moves hnew h₁ with ⟨rfl, -⟩ | ⟨t, hid, hactive, hsequence, -, -, hframe, hmoves⟩
  · rcases updateTurn_moves h₂ fun _ => rfl with ⟨rfl, hno⟩ | ⟨t, hid, hguard, -, hframe, hmoves⟩
    · refine .inl ⟨rfl, fun t ht hid hactive hsequence => ?_⟩
      have hfalse := hno t ht hid
      simp [hactive, hsequence] at hfalse
    · rw [Bool.and_eq_true, decide_eq_true_eq] at hguard
      exact .inr ⟨t, _, [], hmoves, hframe, hid, hguard.1, rfl, rfl, .inr ⟨hguard.2, rfl⟩⟩
  · have hcount : t.eventSequence = c.sequence := Nat.add_right_cancel hsequence
    rcases updateTurn_moves h₂ fun _ => rfl with ⟨-, hno⟩ | ⟨t₁, hid₁, -, -, hframe₁, hmoves₁⟩
    · have hfalse := hno _ hmoves.mem_after hid
      simp [hactive, hcount] at hfalse
    · obtain rfl : t₁ = t.advanced 1 := s₁.turns.eq_of_key_eq hmoves₁.mem hmoves.mem_after (hid₁.trans hid.symm)
      exact .inr ⟨t, _, _, hmoves.trans hmoves₁, hframe.trans hframe₁, hid, hactive, rfl, rfl,
        .inl ⟨hcount, List.append_nil _⟩⟩

/-! ## Completion -/

theorem complete_split {c : Completion} (h : s.complete c = some s') :
    ∃ s₁ s₂, (s.insertAnswer c).emitAll (·.heldBy c.token c.now) c.events = some s₁ ∧
      s₁.finishAnswer c = some s₂ ∧ Quiet s₂ s' ∧ s'.messages = s₂.messages ∧ s'.claims = s₂.claims := by
  rw [Store.complete] at h
  simp only [Option.bind_eq_bind, Option.bind_eq_some_iff] at h
  obtain ⟨s₁, h₁, s₂, h₂, h₃⟩ := h
  refine ⟨s₁, s₂, h₁, h₂, ?_⟩
  unfold Store.insertTitleJob at h₃
  split at h₃
  · cases h₃
    exact ⟨⟨rfl, rfl⟩, rfl, rfl⟩
  · rw [Option.map_eq_some_iff] at h₃
    obtain ⟨first, -, rfl⟩ := h₃
    exact ⟨⟨rfl, rfl⟩, rfl, rfl⟩

/-- The message that a completion inserts. -/
def Completion.answerMessage (c : Completion) (t : Turn) : Message :=
  { id := c.message, conversation := t.conversation, role := .assistant, content := c.answer
    createdAt := c.now, source := t.id }

/-- The turn has an answer message. -/
def Store.answers (s : Store) (turn : String) : Prop := ∃ m ∈ s.messages, m.source = turn ∧ m.role = .assistant

instance (s : Store) (turn : String) : Decidable (s.answers turn) := by unfold Store.answers; infer_instance

theorem insertAnswer_lost {c : Completion} (h : ∀ t ∈ s.turns, t.id = c.turn → t.heldBy c.token c.now = false) :
    s.insertAnswer c = s := by
  unfold Store.insertAnswer
  split
  · rfl
  next t hfind =>
  obtain ⟨ht, hid⟩ := Table.find?_eq_some_iff.1 hfind
  rw [if_neg (by rw [h t ht hid]; exact Bool.false_ne_true)]

theorem insertAnswer_held {c : Completion} {t : Turn} (hmessage : c.message ∉ s.ids) (ht : t ∈ s.turns)
    (hid : t.id = c.turn) (hheld : t.heldBy c.token c.now = true) :
    (s.answers t.id ∧ s.insertAnswer c = s) ∨
      (¬ s.answers t.id ∧ s.insertAnswer c = s.insertMessage (c.answerMessage t) ∧
        (s.insertAnswer c).messages.rows = s.messages.rows ++ [c.answerMessage t]) := by
  have hfind : s.turns.find? c.turn = some t := Table.find?_eq_some_iff.2 ⟨ht, hid⟩
  have hinsert : s.insertAnswer c = s.insertMessage (c.answerMessage t) := by
    rw [Store.insertAnswer, hfind]
    exact if_pos hheld
  by_cases hanswers : s.answers t.id
  · refine .inl ⟨hanswers, ?_⟩
    obtain ⟨m, hm, hsource, hrole⟩ := hanswers
    rw [hinsert, Store.insertMessage]
    have hsame : s.messages.insertIgnore (c.answerMessage t)
        (fun m' => m'.source = (c.answerMessage t).source && decide (m'.role = (c.answerMessage t).role)) =
          s.messages := by
      unfold Table.insertIgnore
      refine dif_pos ⟨m, hm, .inr ?_⟩
      simp [Completion.answerMessage, hsource, hrole]
    rw [hsame]
  · refine .inr ⟨hanswers, hinsert, ?_⟩
    rw [hinsert]
    refine insertMessage_rows fun m hm => ⟨(fresh_message hmessage m hm).1, ?_⟩
    exact fun hsame => hanswers ⟨m, hm, hsame⟩

end Xauusd.Assistant
