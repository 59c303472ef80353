/-
  What a batch does to one turn, and what the worker of the turn relies on.

  * `Change`: what a batch does to the turn that it changes;
  * `land_cases`: a batch creates a turn, or changes one at most;
  * `Leased`: what holds of the leases and of the attempts left;
  * `Later`: what a turn's lease can have become in a later store;
  * `Batch.Pledged`: what a worker that gives up its turn relies on;
  * `leased_land`, `later_land`: a batch keeps both, given what it relies on;
  * `request_relies`: every request may rely on it.
-/
import Xauusd.Assistant.Completion

namespace Xauusd.Assistant

open Program

variable {s s' : Store}

/-! ## One batch -/

/-- The tokens that were ever drawn for a lease. -/
def Store.tokens (s : Store) : List String := s.claims.map (·.1)

/-- What a batch does to the turn that it changes. -/
inductive Change (s s' : Store) : Batch → Turn → Turn → Prop
  | recover {t t' l now code} : t.phase = .processing l → l.expiresAt ≤ now → t'.phase = .pending code →
      t'.attemptCount = t.attemptCount → Change s s' (.recover t.id now) t t'
  | claim {t t' code worker token now} : t.phase = .pending code → t.attemptCount < t.maxAttempts →
      t'.phase = .processing ⟨worker, token, min (now + leaseMs) t.expiresAt, now⟩ →
      token ∉ s.tokens → token ∈ s'.tokens → Change s s' (.claim worker token now) t t'
  | renew {t t' l token now} : t.phase = .processing l →
      t'.phase = .processing { l with expiresAt := min (now + leaseMs) t.expiresAt } →
      t'.attemptCount = t.attemptCount → Change s s' (.renew t.id token now) t t'
  | retry {t t' l token code event availableAt now code'} : t.phase = .processing l → l.token = token →
      t'.phase = .pending code' → t'.attemptCount = t.attemptCount →
      Change s s' (.retry t.id token code event availableAt now) t t'
  | progress {b t t'} : t.phase.active = true → t'.phase = t.phase → t'.attemptCount = t.attemptCount →
      Change s s' b t t'
  | close {b t t'} : t.phase.active = true → t'.phase.active = false → Change s s' b t t'

/-- Only an active turn changes. -/
theorem Change.active {b : Batch} {t t' : Turn} (h : Change s s' b t t') : t.phase.active = true := by
  cases h with
  | recover hphase => rw [hphase]; rfl
  | claim hphase => rw [hphase]; rfl
  | renew hphase => rw [hphase]; rfl
  | retry hphase => rw [hphase]; rfl
  | progress hactive => exact hactive
  | close hactive => exact hactive

/-- What every batch leaves that creates no turn. -/
structure Aside (s s' : Store) : Prop where
  conversations : s'.conversations.rows.map (·.id) = s.conversations.rows.map (·.id)
  asked : s'.messages.rows.filter (·.role = .user) = s.messages.rows.filter (·.role = .user)
  claims : s.claims <+: s'.claims

theorem Aside.refl (s : Store) : Aside s s := ⟨rfl, rfl, List.prefix_refl _⟩

theorem Frame.aside (h : Frame s s') : Aside s s' :=
  ⟨by rw [h.conversations], by rw [h.messages], [], by rw [h.claims, List.append_nil]⟩

def Batch.creation? : Batch → Option Creation
  | create c => some c
  | _ => none

theorem insertAnswer_asked (s : Store) (c : Completion) :
    (s.insertAnswer c).messages.rows.filter (·.role = .user) = s.messages.rows.filter (·.role = .user) := by
  unfold Store.insertAnswer
  split
  · rfl
  split
  · unfold Store.insertMessage
    dsimp only
    rcases s.messages.insertIgnore_cases _ _ with ⟨hsame, -⟩ | ⟨-, hrows⟩
    · rw [hsame]
    · rw [hrows, List.filter_append]
      simp
  · rfl

theorem insertAnswer_claims (s : Store) (c : Completion) :
    (s.insertAnswer c).claims = s.claims ∧ (s.insertAnswer c).conversations = s.conversations := by
  unfold Store.insertAnswer
  split
  · exact ⟨rfl, rfl⟩
  split <;> exact ⟨rfl, rfl⟩

theorem ids_update (t : Table Conversation.id) (p : Conversation → Bool) (f : Conversation → Conversation)
    (hf : ∀ r, (f r).id = r.id) : (t.update p f hf).rows.map (·.id) = t.rows.map (·.id) :=
  t.map_update p f hf hf

/-- The conversations after the title statements of a completion. -/
theorem complete_conversations {c : Completion} (h : s.complete c = some s') :
    ∃ s₁ s₂, (s.insertAnswer c).emitAll (·.heldBy c.token c.now) c.events = some s₁ ∧ s₁.finishAnswer c = some s₂ ∧
      s'.conversations.rows.map (·.id) = s₂.conversations.rows.map (·.id) := by
  rw [Store.complete] at h
  simp only [Option.bind_eq_bind, Option.bind_eq_some_iff] at h
  obtain ⟨s₁, h₁, s₂, h₂, h₃⟩ := h
  refine ⟨s₁, s₂, h₁, h₂, ?_⟩
  have hsame : s'.conversations = ((s₂.touchConversation c.conversation c.now
      (s₂.turns.rows.any fun t => t.id = c.turn && t.phase.message? = some c.message)).requestTitle c).conversations := by
    unfold Store.insertTitleJob at h₃
    split at h₃
    · cases h₃
      rfl
    · rw [Option.map_eq_some_iff] at h₃
      obtain ⟨first, -, rfl⟩ := h₃
      rfl
  rw [hsame]
  refine Eq.trans (ids_update _ _ _ ?_) (ids_update _ _ _ ?_)
  · exact fun _ => rfl
  · exact fun _ => rfl

theorem complete_cases {c : Completion} (hfresh : Fresh s (.complete c)) (h : s.complete c = some s') :
    Aside s s' ∧ (s'.turns = s.turns ∨ ∃ t t' es, Moves s s' t t' es ∧ t.phase.active = true ∧
      (t'.phase = t.phase ∨ t'.phase.active = false) ∧ t'.attemptCount = t.attemptCount) := by
  obtain ⟨s₁, s₂, h₁, h₂, hquiet, hmessages, hclaims⟩ := complete_split h
  obtain ⟨u₁, u₂, hu₁, hu₂, hconversations⟩ := complete_conversations h
  cases h₁.symm.trans hu₁
  cases h₂.symm.trans hu₂
  obtain ⟨hclaims₀, hconversations₀⟩ := insertAnswer_claims s c
  have haside : Frame (s.insertAnswer c) s₂ → Aside s s' := by
    intro hframe
    refine ⟨?_, ?_, ?_⟩
    · rw [hconversations, hframe.conversations, hconversations₀]
    · rw [hmessages, hframe.messages, insertAnswer_asked]
    · exact ⟨[], by rw [hclaims, hframe.claims, hclaims₀, List.append_nil]⟩
  by_cases hturn : ∃ t ∈ s.turns, t.id = c.turn
  case neg =>
    have hnone : ∀ t ∈ s.turns, t.id ≠ c.turn := fun t ht hid => hturn ⟨t, ht, hid⟩
    have hquiet₀ := insertAnswer_quiet s c
    have hsame := emitAll_none (fun e he => (mem_numbered he).1) (by rw [hquiet₀.1]; exact hnone) h₁
    rw [hsame] at h₂
    rcases finishAnswer_cases h₂ with ⟨hsame₂, -⟩ | ⟨t, t', hmoves, -, hid, -⟩
    · rw [hsame₂] at haside hquiet
      exact ⟨haside (.refl _), .inl (hquiet.1.trans hquiet₀.1)⟩
    · have ht := hmoves.mem
      rw [hquiet₀.1] at ht
      exact absurd hid (hnone t ht)
  obtain ⟨t, ht, hid⟩ := hturn
  obtain ⟨s₀, es, -, hframe, hmoves, hsame, hheld, -, hnew, hlast⟩ := complete_moves hfresh ht hid h₁
  -- after the events of the answer, the last event
  have hlast : Frame s₀ s₁ ∧ ((s₁ = s₀ ∧ True) ∨ t.heldBy c.token c.now = true) ∧
      ∃ es₁, Moves s s₁ t (t.advanced es₁.length) es₁ := by
    rcases emit_moves hnew hlast with ⟨rfl, -⟩ | ⟨t₁, hid₁, hheld₁, -, -, -, hframe₁, hmoves₁⟩
    · exact ⟨.refl _, .inl ⟨rfl, trivial⟩, es, hmoves⟩
    · obtain rfl : t₁ = t.advanced es.length :=
        s₀.turns.eq_of_key_eq hmoves₁.mem hmoves.mem_after (hid₁.trans hid.symm)
      refine ⟨hframe₁, .inr hheld₁, es ++ [c.completedEvent], ?_⟩
      have hall := hmoves.trans hmoves₁
      rw [Turn.advanced_advanced] at hall
      rwa [List.length_append]
  obtain ⟨hframe₁, hheld₁, es₁, hmoves₁⟩ := hlast
  rcases finishAnswer_cases h₂ with ⟨rfl, -⟩ | ⟨t₂, t', hmoves₂, hframe₂, hid₂, hheld₂, -, -, hphase, hattempts⟩
  · refine ⟨haside (hframe.trans hframe₁), ?_⟩
    by_cases hactive : t.phase.active = true
    · exact .inr ⟨t, _, _, hmoves₁.congr ⟨rfl, rfl⟩ hquiet, hactive, .inl rfl, rfl⟩
    · -- nothing is inserted for a turn that is not held
      have hnot : ¬ t.heldBy c.token c.now = true := fun hheld => hactive (active_of_heldBy hheld)
      have hnil : es = [] := by
        by_contra hne
        exact hnot (hheld hne)
      rcases hheld₁ with ⟨rfl, -⟩ | hheld₁
      · rw [hsame hnil] at hquiet
        exact .inl (hquiet.1.trans (insertAnswer_quiet s c).1)
      · exact absurd hheld₁ hnot
  · refine ⟨haside ((hframe.trans hframe₁).trans hframe₂), .inr ?_⟩
    obtain rfl : t₂ = t.advanced es₁.length :=
      s₁.turns.eq_of_key_eq hmoves₂.mem hmoves₁.mem_after (hid₂.trans hid.symm)
    exact ⟨t, t', _, (hmoves₁.trans hmoves₂).congr ⟨rfl, rfl⟩ hquiet, active_of_heldBy hheld₂,
      .inr (by rw [hphase]; rfl), hattempts⟩

/-- A batch creates a turn, or changes one at most. -/
theorem land_cases {b : Batch} (hfresh : Fresh s b) (h : exec b s = some s') :
    (∃ c, b = .create c ∧ Created s s' c) ∨ (b.creation? = none ∧ Aside s s' ∧
      (s'.turns = s.turns ∨ ∃ t t' es, Moves s s' t t' es ∧ Change s s' b t t')) := by
  cases b with
  | create c => exact .inl ⟨c, rfl, create_cases hfresh h⟩
  | recover turn now =>
    rcases recover_cases h with rfl | ⟨t, l, t', hmoves, hframe, rfl, hphase, hexpired, hphase', hattempts⟩
    · exact .inr ⟨rfl, .refl _, .inl rfl⟩
    · exact .inr ⟨rfl, hframe.aside, .inr ⟨t, t', _, hmoves, .recover hphase hexpired hphase' hattempts⟩⟩
  | claim worker token now =>
    rcases claim_cases h with rfl | ⟨t, code, hphase, -, hattempts, hmessages, hconversations, -, hclaims, hmoves⟩
    · exact .inr ⟨rfl, .refl _, .inl rfl⟩
    · refine .inr ⟨rfl, ⟨?_, ?_, ?_⟩, .inr ⟨t, _, _, hmoves, .claim hphase hattempts rfl ?_ ?_⟩⟩
      · rw [hconversations]
      · rw [hmessages]
      · rw [hclaims]
        exact List.prefix_append _ _
      · intro hmem
        obtain ⟨p, hp, htoken⟩ := List.mem_map.1 hmem
        exact fresh_claim (hfresh.2 token (by simp [Batch.draws])) p hp htoken
      · simp [Store.tokens, hclaims]
  | renew turn token now =>
    rcases renew_cases h with ⟨rfl, -⟩ | ⟨t, l, t', hmoves, hframe, rfl, hphase, -, -, hphase', hattempts⟩
    · exact .inr ⟨rfl, .refl _, .inl rfl⟩
    · exact .inr ⟨rfl, hframe.aside, .inr ⟨t, t', _, hmoves, .renew hphase hphase' hattempts⟩⟩
  | append turn token sequence drafts now =>
    rcases append_cases hfresh h with rfl | ⟨t, es, hmoves, hframe, -, hheld, -⟩
    · exact .inr ⟨rfl, .refl _, .inl rfl⟩
    · exact .inr ⟨rfl, hframe.aside, .inr ⟨t, _, _, hmoves, .progress (active_of_heldBy hheld) rfl rfl⟩⟩
  | complete c =>
    obtain ⟨haside, hsame | ⟨t, t', es, hmoves, hactive, hphase, hattempts⟩⟩ := complete_cases hfresh h
    · exact .inr ⟨rfl, haside, .inl hsame⟩
    · refine .inr ⟨rfl, haside, .inr ⟨t, t', es, hmoves, ?_⟩⟩
      rcases hphase with hphase | hclosed
      · exact .progress hactive hphase hattempts
      · exact .close hactive hclosed
  | retry turn token code event availableAt now =>
    rcases retry_cases h with ⟨rfl, -⟩ | ⟨t, l, t', hmoves, hframe, rfl, hphase, htoken, hphase', hattempts⟩
    · exact .inr ⟨rfl, .refl _, .inl rfl⟩
    · exact .inr ⟨rfl, hframe.aside, .inr ⟨t, t', _, hmoves, .retry hphase htoken hphase' hattempts⟩⟩
  | terminalize c =>
    rcases terminalize_cases hfresh h with ⟨rfl, -⟩ | ⟨t, t', es, hmoves, hframe, -, hactive, hphase, -⟩
    · exact .inr ⟨rfl, .refl _, .inl rfl⟩
    · exact .inr ⟨rfl, hframe.aside, .inr ⟨t, t', es, hmoves, .close hactive (by rw [hphase]; rfl)⟩⟩

/-! ## Leases over a run -/

/-- What holds of the leases and of the attempts left. -/
structure Leased (w : World) : Prop where
  lease : ∀ t ∈ w.state.turns, ∀ l, t.phase = .processing l →
    l.expiresAt ≤ t.expiresAt ∧ l.token ∈ w.state.tokens ∧ ∃ b ∈ w.log, l.expiresAt ≤ b.now + leaseMs
  left : ∀ t ∈ w.state.turns, ∀ code, t.phase = .pending code → t.attemptCount < t.maxAttempts

/-- A recovery gives back a turn with an attempt left. -/
def Batch.Spares (s : Store) : Batch → Prop
  | recover turn now => ∀ t ∈ s.turns, t.id = turn → (t.phase.lease?.any fun l => l.expiresAt ≤ now) = true →
      t.attemptCount < t.maxAttempts
  | _ => True

instance (s : Store) : (b : Batch) → Decidable (b.Spares s)
  | .recover turn now => inferInstanceAs (Decidable (∀ t ∈ s.turns, t.id = turn →
      (t.phase.lease?.any fun l => l.expiresAt ≤ now) = true → t.attemptCount < t.maxAttempts))
  | .create _ | .claim .. | .renew .. | .append .. | .complete _ | .retry .. | .terminalize _ => .isTrue trivial

/-- What a worker that gives up its turn relies on: nobody else holds the turn
    under its token, and when it ends the turn, nobody else holds it at all. -/
def Batch.Pledged (s : Store) : Batch → Prop
  | retry turn token _ _ _ now => ∃ t ∈ s.turns, t.id = turn ∧ token ∈ s.tokens ∧
      ∀ l, t.phase = .processing l → l.token = token → now < l.expiresAt ∧ t.attemptCount < t.maxAttempts
  | terminalize c => ∀ token ∈ c.worker, ∃ t ∈ s.turns, t.id = c.turn ∧ token ∈ s.tokens ∧
      (t.phase.active = true →
        ∃ l, t.phase = .processing l ∧ l.token = token ∧ c.now < l.expiresAt ∧ t.maxAttempts ≤ t.attemptCount)
  | _ => True

/-- What a turn of the store can have become later: a lease under a token of
    the store is the one it was, or renewed, and a turn with no attempt left
    does not change hands. -/
structure Later (s : Store) (t t' : Turn) : Prop where
  id : t'.id = t.id
  maxAttempts : t'.maxAttempts = t.maxAttempts
  active : t'.phase.active = true → t.phase.active = true
  same : ∀ l', t'.phase = .processing l' → l'.token ∈ s.tokens → ∃ l, t.phase = .processing l ∧
    l.token = l'.token ∧ l.expiresAt ≤ l'.expiresAt ∧ t'.attemptCount = t.attemptCount
  spent : ∀ l, t.phase = .processing l → t.maxAttempts ≤ t.attemptCount → t'.phase.active = true →
    ∃ l', t'.phase = .processing l' ∧ l'.token ∈ s.tokens

theorem Later.refl {w : World} (h : Leased w) {t : Turn} (ht : t ∈ w.state.turns) : Later w.state t t where
  id := rfl
  maxAttempts := rfl
  active := fun hactive => hactive
  same := fun l hphase _ => ⟨l, hphase, rfl, le_refl _, rfl⟩
  spent := fun l hphase _ _ => ⟨l, hphase, (h.lease t ht l hphase).2.1⟩

theorem Later.trans {t t' t'' : Turn} (htokens : s.tokens ⊆ s'.tokens) (h : Later s t t') (h' : Later s' t' t'') :
    Later s t t'' where
  id := h'.id.trans h.id
  maxAttempts := h'.maxAttempts.trans h.maxAttempts
  active := fun hactive => h.active (h'.active hactive)
  same := by
    intro l'' hphase'' htoken
    obtain ⟨l', hphase', htoken', hle', hcount'⟩ := h'.same l'' hphase'' (htokens htoken)
    obtain ⟨l, hphase, htoken'', hle, hcount⟩ := h.same l' hphase' (htoken' ▸ htoken)
    exact ⟨l, hphase, htoken''.trans htoken', hle.trans hle', hcount'.trans hcount⟩
  spent := by
    intro l hphase hspent hactive
    obtain ⟨l', hphase', htoken'⟩ := h.spent l hphase hspent (h'.active hactive)
    obtain ⟨-, -, -, -, hcount⟩ := h.same l' hphase' htoken'
    obtain ⟨l'', hphase'', htoken''⟩ := h'.spent l' hphase' (by rwa [h.maxAttempts, hcount]) hactive
    obtain ⟨u, hu, hsame, -⟩ := h'.same l'' hphase'' htoken''
    rw [hphase', Phase.processing.injEq] at hu
    subst hu
    exact ⟨l'', hphase'', hsame ▸ htoken'⟩

/-- One store is after another, and its leases are sound. -/
def Since (w w' : World) : Prop :=
  Leased w' ∧ w.state.tokens ⊆ w'.state.tokens ∧ ∀ t ∈ w.state.turns, ∃ t' ∈ w'.state.turns, Later w.state t t'

theorem Since.refl {w : World} (h : Leased w) : Since w w :=
  ⟨h, List.Subset.refl _, fun t ht => ⟨t, ht, .refl h ht⟩⟩

theorem Since.trans {w w' w'' : World} (h : Since w w') (h' : Since w' w'') : Since w w'' := by
  refine ⟨h'.1, List.Subset.trans h.2.1 h'.2.1, fun t ht => ?_⟩
  obtain ⟨t', ht', hlater⟩ := h.2.2 t ht
  obtain ⟨t'', ht'', hlater'⟩ := h'.2.2 t' ht'
  exact ⟨t'', ht'', hlater.trans h.2.1 hlater'⟩

/-- What the worker relies on stays. -/
theorem Since.pledged {w w' : World} (h : Since w w') {b : Batch} (hb : b.Pledged w.state) : b.Pledged w'.state := by
  cases b with
  | retry turn token code event availableAt now =>
    obtain ⟨t, ht, hid, htoken, hheld⟩ := hb
    obtain ⟨t', ht', hlater⟩ := h.2.2 t ht
    refine ⟨t', ht', hlater.id.trans hid, h.2.1 htoken, fun l' hphase' heq => ?_⟩
    obtain ⟨l, hphase, hsame, hle, hcount⟩ := hlater.same l' hphase' (heq ▸ htoken)
    obtain ⟨hnow, hleft⟩ := hheld l hphase (hsame.trans heq)
    exact ⟨lt_of_lt_of_le hnow hle, by rwa [hcount, hlater.maxAttempts]⟩
  | terminalize c =>
    intro token hworker
    obtain ⟨t, ht, hid, htoken, hheld⟩ := hb token hworker
    obtain ⟨t', ht', hlater⟩ := h.2.2 t ht
    refine ⟨t', ht', hlater.id.trans hid, h.2.1 htoken, fun hactive => ?_⟩
    obtain ⟨l, hphase, heq, hnow, hspent⟩ := hheld (hlater.active hactive)
    obtain ⟨l', hphase', htoken'⟩ := hlater.spent l hphase hspent hactive
    obtain ⟨u, hu, hsame, hle, hcount⟩ := hlater.same l' hphase' htoken'
    rw [hphase, Phase.processing.injEq] at hu
    subst hu
    exact ⟨l', hphase', hsame.symm.trans heq, lt_of_lt_of_le hnow hle, by rwa [hcount, hlater.maxAttempts]⟩
  | create | recover | claim | renew | append | complete => trivial

/-- A batch that lands finds no later clock, and a recovery spares what it
    should. -/
def Orderly (w : World) (b : Batch) : Prop :=
  Fresh w.state b ∧ ((exec b w.state).isSome = true → (∀ b' ∈ w.log, b'.now ≤ b.now) ∧ b.Spares w.state)

instance (w : World) (b : Batch) : Decidable (Orderly w b) := by unfold Orderly; infer_instance

section
variable {w w' : World} {b : Batch} {t t' : Turn} {es : List Event} (h : Leased w) (hlog : w'.log = b :: w.log)
  (hclock : ∀ b' ∈ w.log, b'.now ≤ b.now) (hspares : b.Spares w.state) (hpledged : b.Pledged w.state)
  (htokens : w.state.tokens ⊆ w'.state.tokens) (hmoves : Moves w.state w'.state t t' es)
  (hchange : Change w.state w'.state b t t')
include h hclock hspares hpledged hmoves hchange

/-- **One change.**  The lease of the turn is later than it was. -/
theorem change_later : Later w.state t t' := by
  have hid := hmoves.id
  have hmax : t'.maxAttempts = t.maxAttempts := by rw [hmoves.set]; rfl
  refine ⟨hid, hmax, fun _ => hchange.active, ?_, ?_⟩
  · intro l' hphase' htoken
    cases hchange with
    | recover _ _ hpending => rw [hpending] at hphase'; cases hphase'
    | claim _ _ hprocessing hnew =>
      rw [hprocessing, Phase.processing.injEq] at hphase'
      subst hphase'
      exact absurd htoken hnew
    | @renew _ _ l _ now hphase hprocessing hcount =>
      rw [hprocessing, Phase.processing.injEq] at hphase'
      subst hphase'
      -- the clock is not before that of the batch that set the expiry
      obtain ⟨hexpires, -, b', hb', hle⟩ := h.lease t hmoves.mem l hphase
      have hnow : b'.now ≤ now := hclock b' hb'
      exact ⟨l, hphase, rfl, le_min (by omega) hexpires, hcount⟩
    | retry _ _ hpending => rw [hpending] at hphase'; cases hphase'
    | progress _ hsame hcount =>
      rw [hsame] at hphase'
      exact ⟨l', hphase', rfl, le_refl _, hcount⟩
    | close _ hclosed => rw [hphase'] at hclosed; cases hclosed
  · intro l hphase hspent hactive
    cases hchange with
    | recover hphase₁ hexpired =>
      have hleft := hspares t hmoves.mem rfl (by rw [hphase₁]; exact decide_eq_true hexpired)
      omega
    | claim hpending => rw [hphase] at hpending; cases hpending
    | renew hphase₁ hprocessing =>
      exact ⟨_, hprocessing, (h.lease t hmoves.mem _ hphase₁).2.1⟩
    | retry hphase₁ htoken =>
      obtain ⟨t₁, ht₁, hid₁, -, hheld⟩ := hpledged
      obtain rfl : t₁ = t := w.state.turns.eq_of_key_eq ht₁ hmoves.mem hid₁
      have hleft := (hheld _ hphase₁ htoken).2
      omega
    | progress _ hsame => exact ⟨l, hsame.trans hphase, (h.lease t hmoves.mem l hphase).2.1⟩
    | close _ hclosed => rw [hclosed] at hactive; cases hactive

include hlog htokens

theorem change_leased : Leased w' := by
  have hmax : t'.maxAttempts = t.maxAttempts ∧ t'.expiresAt = t.expiresAt := by
    rw [hmoves.set]
    exact ⟨rfl, rfl⟩
  have hold : ∀ b', b' ∈ w.log → b' ∈ w'.log := by
    rw [hlog]
    exact fun b' hb' => List.mem_cons_of_mem _ hb'
  have hkeep : ∀ r ∈ w.state.turns, ∀ l, r.phase = .processing l →
      l.expiresAt ≤ r.expiresAt ∧ l.token ∈ w'.state.tokens ∧ ∃ b' ∈ w'.log, l.expiresAt ≤ b'.now + leaseMs := by
    intro r hr l hphase
    obtain ⟨hexpires, htoken, b', hb', hle⟩ := h.lease r hr l hphase
    exact ⟨hexpires, htokens htoken, b', hold b' hb', hle⟩
  have hself : b ∈ w'.log := by
    rw [hlog]
    exact List.mem_cons_self
  refine ⟨fun r hr l hphase => ?_, fun r hr code hphase => ?_⟩
  · rcases hmoves.mem_iff.1 hr with rfl | ⟨hr, -⟩
    · cases hchange with
      | recover _ _ hpending => rw [hpending] at hphase; cases hphase
      | claim _ _ hprocessing _ htoken =>
        rw [hprocessing, Phase.processing.injEq] at hphase
        subst hphase
        exact ⟨hmax.2 ▸ min_le_right _ _, htoken, _, hself, min_le_left _ _⟩
      | renew hphase₁ hprocessing =>
        rw [hprocessing, Phase.processing.injEq] at hphase
        subst hphase
        exact ⟨hmax.2 ▸ min_le_right _ _, (hkeep t hmoves.mem _ hphase₁).2.1, _, hself, min_le_left _ _⟩
      | retry _ _ hpending => rw [hpending] at hphase; cases hphase
      | progress _ hsame =>
        rw [hmax.2]
        exact hkeep t hmoves.mem l (hsame.symm.trans hphase)
      | close _ hclosed => rw [hphase] at hclosed; cases hclosed
    · exact hkeep r hr l hphase
  · rcases hmoves.mem_iff.1 hr with rfl | ⟨hr, -⟩
    · rw [hmax.1]
      cases hchange with
      | recover hphase₁ hexpired _ hcount =>
        rw [hcount]
        exact hspares t hmoves.mem rfl (by rw [hphase₁]; exact decide_eq_true hexpired)
      | claim _ _ hprocessing => rw [hprocessing] at hphase; cases hphase
      | renew _ hprocessing => rw [hprocessing] at hphase; cases hphase
      | retry hphase₁ htoken _ hcount =>
        obtain ⟨t₁, ht₁, hid₁, -, hheld⟩ := hpledged
        obtain rfl : t₁ = t := w.state.turns.eq_of_key_eq ht₁ hmoves.mem hid₁
        rw [hcount]
        exact (hheld _ hphase₁ htoken).2
      | progress _ hsame hcount =>
        rw [hcount]
        exact h.left t hmoves.mem code (hsame.symm.trans hphase)
      | close _ hclosed => rw [hphase] at hclosed; cases hclosed
    · exact h.left r hr code hphase

end

/-- **One batch.** -/
theorem leased_land {w w' : World} {b : Batch} (horderly : Orderly w b) (hpledged : b.Pledged w.state) (h : Leased w)
    (hland : land exec b w = some w') : Leased w' ∧ Since w w' := by
  obtain ⟨hexec, hlog⟩ := Program.land_eq_some hland
  obtain ⟨hclock, hspares⟩ := horderly.2 (by rw [hexec]; rfl)
  have hold : ∀ b', b' ∈ w.log → b' ∈ w'.log := by
    rw [hlog]
    exact fun b' hb' => List.mem_cons_of_mem _ hb'
  rcases land_cases horderly.1 hexec with ⟨c, rfl, hcreated⟩ | ⟨-, haside, hsame | ⟨t, t', es, hmoves, hchange⟩⟩
  · have htokens : w'.state.tokens = w.state.tokens := by rw [Store.tokens, hcreated.claims, Store.tokens]
    have hleased : Leased w' := by
      refine ⟨fun t ht l hphase => ?_, fun t ht code hphase => ?_⟩
      · rcases hcreated.mem_iff.1 ht with ht | rfl
        · obtain ⟨hexpires, htoken, b', hb', hle⟩ := h.lease t ht l hphase
          exact ⟨hexpires, htokens ▸ htoken, b', hold b' hb', hle⟩
        · cases hphase
      · rcases hcreated.mem_iff.1 ht with ht | rfl
        · exact h.left t ht code hphase
        · exact Nat.zero_lt_succ _
    exact ⟨hleased, hleased, by rw [htokens]; exact List.Subset.refl _,
      fun t ht => ⟨t, hcreated.mem_iff.2 (.inl ht), .refl h ht⟩⟩
  · have htokens : w.state.tokens ⊆ w'.state.tokens := (haside.claims.map _).subset
    have hleased : Leased w' := by
      refine ⟨fun t ht l hphase => ?_, fun t ht code hphase => ?_⟩
      · rw [hsame] at ht
        obtain ⟨hexpires, htoken, b', hb', hle⟩ := h.lease t ht l hphase
        exact ⟨hexpires, htokens htoken, b', hold b' hb', hle⟩
      · rw [hsame] at ht
        exact h.left t ht code hphase
    exact ⟨hleased, hleased, htokens, fun t ht => ⟨t, by rwa [hsame], .refl h ht⟩⟩
  · have htokens : w.state.tokens ⊆ w'.state.tokens := (haside.claims.map _).subset
    have hleased := change_leased h hlog hclock hspares hpledged htokens hmoves hchange
    refine ⟨hleased, hleased, htokens, fun r hr => ?_⟩
    by_cases hid : r.id = t.id
    · obtain rfl : r = t := w.state.turns.eq_of_key_eq hr hmoves.mem hid
      exact ⟨t', hmoves.mem_after, change_later h hclock hspares hpledged hmoves hchange⟩
    · exact ⟨r, hmoves.mem_iff.2 (.inr ⟨hr, hid⟩), .refl h hr⟩

/-! ## Requests -/

/-- The request may rely on what its batches are pledged. -/
abbrev Trusts (p : Handler) (w : World) : Prop := p.Relies Since (fun w b => b.Pledged w.state) w

theorem send_trusts {w : World} {b : Batch} (hb : b.Pledged w.state) (reply : Reply) :
    Trusts (send b (done reply)) w := by
  intro w' hw
  refine ⟨hw.pledged hb, fun ok => ?_⟩
  cases ok <;> trivial

theorem terminalizeTurn_trusts {w : World} {row : Turn} {outcome : Outcome} {code event : String}
    {worker : Option String} {now : ℤ} {reply : Reply}
    (hb : (Batch.terminalize ⟨row.id, row.eventSequence, outcome, code, event, worker, now⟩).Pledged w.state) :
    Trusts (terminalizeTurn row outcome code event worker now (done reply)) w := by
  unfold terminalizeTurn
  split
  · trivial
  · intro w' hw
    dsimp only
    split
    · trivial
    · exact send_trusts (hw.pledged hb) reply

theorem mem_of_heldTurn {id token : String} {now : ℤ} {t : Turn} (h : s.heldTurn id token now = some t) :
    t ∈ s.turns ∧ t.id = id ∧ t.heldBy token now = true := by
  rw [Store.heldTurn, Option.filter_eq_some_iff] at h
  obtain ⟨ht, hid⟩ := Table.find?_eq_some_iff.1 h.1
  exact ⟨ht, hid, h.2⟩

theorem fail_trusts {w : World} (id token code event : String) (now : ℤ) :
    Trusts (failAssistantChatTurn id token code event now) w := by
  unfold failAssistantChatTurn
  split
  · trivial
  split
  · trivial
  intro w' hw
  dsimp only
  split
  · trivial
  next row hrow =>
  obtain ⟨ht, -, hheld⟩ := mem_of_heldTurn hrow
  obtain ⟨l, hphase, rfl, hnow⟩ := Turn.heldBy_iff.1 hheld
  obtain ⟨hexpires, htoken, -⟩ := hw.1.lease row ht l hphase
  split
  · -- a lease ends with its turn
    omega
  split
  · next hspent =>
    refine terminalizeTurn_trusts fun token hworker => ?_
    cases hworker
    exact ⟨row, ht, rfl, htoken, fun _ => ⟨l, hphase, rfl, hnow, hspent⟩⟩
  · next hleft =>
    apply send_trusts
    refine ⟨row, ht, rfl, htoken, fun l' hphase' _ => ?_⟩
    rw [hphase, Phase.processing.injEq] at hphase'
    subst hphase'
    exact ⟨hnow, by omega⟩

theorem Plain.pledged {b : Batch} (h : Plain b) (s : Store) : b.Pledged s := by
  cases b with
  | retry => exact h.2.elim
  | terminalize c =>
    intro token hworker
    rw [show c.worker = none from h.2] at hworker
    cases hworker
  | create | recover | claim | renew | append | complete => trivial

theorem request_trusts (request : Request) (w : World) : Trusts request.program w := by
  by_cases hplain : request.Plain
  · exact (plain_sends hplain).relies (fun b w hb => hb.pledged w.state) w
  · cases request with
    | fail id token code event now => exact fail_trusts id token code event now
    | defer id token event now => exact fail_trusts id token _ event now
    | create | claim | renew | append | complete | cancel => exact absurd trivial hplain

/-- A batch that is about to be sent has what it relies on. -/
theorem pending_trusts {f : Flight} (hf : ∀ p ∈ f.requests, Trusts p f.world) (h : Leased f.world) {i : ℕ} {b : Batch}
    (hpending : f.pending i = some b) : b.Pledged f.world.state := by
  unfold Flight.pending at hpending
  split at hpending
  · next b' next hget =>
    cases hpending
    exact (hf _ (List.mem_of_getElem? hget) _ (.refl h)).1
  · cases hpending

end Xauusd.Assistant
