/-
  What admission and leases guarantee of the turns.

  * `Limited`: one active turn in a conversation, two of an owner, ten in all,
    and five turns of an owner created in any window;
  * `Recorded`: each creation that took effect made one turn and one message of
    its user, each new conversation is of one creation, and no two creations
    are of one owner under one key;
  * `Batch.Stale`: the batch of a worker that does not hold its turn;
  * `stale_unchanged`: such a batch changes nothing;
  * `admission_and_lease_safety`: **along requests whose recoveries spare the
    turns with no attempt left, all of this holds, and a pending turn has an
    attempt left**.
-/
import Xauusd.Lib.Window
import Xauusd.Assistant.Leases

namespace Xauusd.Assistant

open Program

variable {s s' : Store}

/-! ## Counts -/

/-- The creations that took effect, oldest first. -/
def creations (log : List Batch) : List Creation := log.reverse.filterMap Batch.creation?

theorem creations_cons (b : Batch) (log : List Batch) :
    creations (b :: log) = creations log ++ b.creation?.toList := by
  rw [creations, List.reverse_cons, List.filterMap_append, creations]
  cases b <;> rfl

/-- The turns of an owner, one each at the instant of its creation. -/
def Store.admitted (s : Store) (owner : String) : List (ℤ × ℕ) :=
  (s.turns.rows.filter fun t => t.owner = owner).map fun t => (t.createdAt, 1)

/-- The limits on the turns. -/
structure Limited (s : Store) : Prop where
  idle : ∀ t ∈ s.turns, ∀ t' ∈ s.turns, t.conversation = t'.conversation → t.phase.active = true →
    t'.phase.active = true → t = t'
  owner : ∀ owner, (s.turns.rows.countP fun t => t.owner = owner && t.phase.active) ≤ activePerOwner
  all : (s.turns.rows.countP fun t => t.phase.active) ≤ activeGlobal
  rate : ∀ owner, Window.Bounded (rateWindowMs + 1) admittedPerOwnerPerMinute (s.admitted owner)

theorem countP_moves {t t' : Turn} {es : List Event} (h : Moves s s' t t' es) {p : Turn → Bool}
    (hp : p t' = true → p t = true) : s'.turns.rows.countP p ≤ s.turns.rows.countP p := by
  rw [h.turns, List.countP_map]
  refine List.countP_mono_left fun r hr hr' => ?_
  rw [Function.comp_apply] at hr'
  split at hr'
  · next hid => rw [s.turns.eq_of_key_eq hr h.mem hid]; exact hp hr'
  · exact hr'

/-- A move leaves what no update sets. -/
theorem map_moves {α : Type} {t t' : Turn} {es : List Event} (h : Moves s s' t t' es) {f : Turn → α}
    (hf : ∀ t state, f (Turn.set t state) = f t) : s'.turns.rows.map f = s.turns.rows.map f := by
  rw [h.turns, List.map_map]
  refine List.map_congr_left fun r hr => ?_
  rw [Function.comp_apply]
  split
  · next hid => rw [h.set, hf, s.turns.eq_of_key_eq hr h.mem hid]
  · rfl

theorem admitted_eq (s : Store) (owner : String) :
    s.admitted owner = ((s.turns.rows.map fun t => (t.owner, t.createdAt)).filter (·.1 = owner)).map
      fun p => (p.2, 1) := by
  rw [List.filter_map, List.map_map]
  rfl

theorem limited_moves {t t' : Turn} {es : List Event} (h : Limited s) (hmoves : Moves s s' t t' es)
    (hactive : t.phase.active = true) : Limited s' where
  idle := by
    have hconversation : t'.conversation = t.conversation := by rw [hmoves.set]; rfl
    intro r hr r' hr' hsame hr₁ hr₂
    rcases hmoves.mem_iff.1 hr with rfl | ⟨hr, hid⟩ <;> rcases hmoves.mem_iff.1 hr' with rfl | ⟨hr', hid'⟩
    · rfl
    · have heq := h.idle t hmoves.mem r' hr' (hconversation.symm.trans hsame) hactive hr₂
      exact absurd (congrArg Turn.id heq.symm) hid'
    · have heq := h.idle r hr t hmoves.mem (hsame.trans hconversation) hr₁ hactive
      exact absurd (congrArg Turn.id heq) hid
    · exact h.idle r hr r' hr' hsame hr₁ hr₂
  owner := by
    intro owner
    refine le_trans (countP_moves hmoves fun hp => ?_) (h.owner owner)
    rw [hmoves.set, Bool.and_eq_true] at hp
    rw [Bool.and_eq_true]
    exact ⟨hp.1, hactive⟩
  all := le_trans (countP_moves hmoves fun _ => hactive) h.all
  rate := by
    intro owner
    rw [admitted_eq, map_moves hmoves (fun _ _ => rfl), ← admitted_eq]
    exact h.rate owner

theorem limited_create {c : Creation} (h : Limited s) (hcreated : Created s s' c)
    (hpast : ∀ t ∈ s.turns, t.createdAt ≤ c.now) : Limited s' := by
  have hcapacity := hcreated.capacity
  simp only [Store.capacity, Bool.and_eq_true, decide_eq_true_eq] at hcapacity
  obtain ⟨⟨⟨howner, hall⟩, hrate⟩, -⟩ := hcapacity
  refine ⟨?_, ?_, ?_, ?_⟩
  · intro t ht t' ht' hsame hactive hactive'
    rcases hcreated.mem_iff.1 ht with ht | rfl <;> rcases hcreated.mem_iff.1 ht' with ht' | rfl
    · exact h.idle t ht t' ht' hsame hactive hactive'
    · rw [hcreated.idle t ht hsame] at hactive
      cases hactive
    · rw [hcreated.idle t' ht' hsame.symm] at hactive'
      cases hactive'
    · rfl
  · intro owner
    rw [hcreated.turns, List.countP_append, List.countP_singleton]
    split
    · next hsame =>
      rw [Bool.and_eq_true, decide_eq_true_eq] at hsame
      have hsame : c.owner = owner := hsame.1
      subst hsame
      omega
    · exact h.owner owner
  · rw [hcreated.turns, List.countP_append, List.countP_singleton]
    split
    · omega
    · exact h.all
  · intro owner
    have hown : (c.row.advanced 1).owner = c.owner := rfl
    rw [Store.admitted, hcreated.turns, List.filter_append, List.map_append]
    by_cases hsame : c.owner = owner
    · subst hsame
      have hnew : ([c.row.advanced 1].filter fun t => t.owner = c.owner).map (fun t => (t.createdAt, 1)) =
          [(c.now, 1)] := by
        rw [List.filter_singleton, hown, decide_eq_true rfl]
        rfl
      rw [hnew]
      refine (h.rate c.owner).snoc ?_ ?_
      · intro e he
        obtain ⟨t, ht, rfl⟩ := List.mem_map.1 he
        exact hpast t (List.mem_filter.1 ht).1
      · rw [Store.admitted, Window.load_ones, List.countP_filter]
        refine Nat.succ_le_of_lt (lt_of_le_of_lt (List.countP_mono_left fun t _ ht => ?_) hrate)
        rw [Bool.and_eq_true, decide_eq_true_eq, decide_eq_true_eq] at ht
        rw [Bool.and_eq_true, decide_eq_true_eq, decide_eq_true_eq]
        exact ⟨ht.2, by omega⟩
    · have hnew : [c.row.advanced 1].filter (fun t => t.owner = owner) = [] := by
        rw [List.filter_singleton, hown, decide_eq_false hsame]
        rfl
      rw [hnew, List.map_nil, List.append_nil]
      exact h.rate owner

/-! ## Creations -/

/-- What each creation that took effect made, and nothing else did. -/
structure Recorded (w : World) : Prop where
  turns : (w.state.turns.rows.map fun t => (t.id, t.owner, t.idempotencyKey)) =
    (creations w.log).map fun c => (c.turn, c.owner, c.key)
  messages : (w.state.messages.rows.filter (·.role = .user)).map (·.id) = (creations w.log).map (·.userMessage)
  conversations : w.state.conversations.rows.map (·.id) =
    ((creations w.log).filter (·.fresh)).map (·.conversation)
  keys : ((creations w.log).map fun c => (c.owner, c.key)).Nodup

theorem recorded_aside {w w' : World} {b : Batch} (h : Recorded w) (hlog : w'.log = b :: w.log)
    (hcreation : b.creation? = none) (haside : Aside w.state w'.state)
    (hturns : (w'.state.turns.rows.map fun t => (t.id, t.owner, t.idempotencyKey)) =
      w.state.turns.rows.map fun t => (t.id, t.owner, t.idempotencyKey)) : Recorded w' := by
  have hsame : creations w'.log = creations w.log := by
    rw [hlog, creations_cons, hcreation]
    exact List.append_nil _
  refine ⟨?_, ?_, ?_, ?_⟩
  · rw [hturns, hsame]
    exact h.turns
  · rw [haside.asked, hsame]
    exact h.messages
  · rw [haside.conversations, hsame]
    exact h.conversations
  · rw [hsame]
    exact h.keys

/-- The conversation of a creation is new, or was there. -/
theorem conversations_created {c : Creation} (hfresh : Fresh s (.create c)) (h : Created s s' c) :
    s'.conversations.rows.map (·.id) =
      s.conversations.rows.map (·.id) ++ if c.fresh then [c.conversation] else [] := by
  obtain ⟨p, hp⟩ := h.conversations
  have hids : s'.conversations.rows.map (·.id) =
      (if c.fresh then s.createConversation c else s).conversations.rows.map (·.id) := by
    rw [hp]
    refine ids_update _ _ _ ?_
    exact fun _ => rfl
  rw [hids]
  split
  · next hf =>
    have hnew : ∀ r ∈ s.conversations, r.id ≠ c.conversation :=
      fun r hr => (fresh_conversation (hfresh.2 _ (by simp [Batch.draws, hf])) r hr).1
    obtain ⟨r, hr, hid⟩ := h.joined
    rw [if_pos hf, Store.createConversation, if_pos h.capacity] at hr
    rw [Store.createConversation, if_pos h.capacity]
    -- a conversation that was ignored could not be joined
    rcases s.conversations.insertIgnore_cases _ _ with ⟨hsame, -⟩ | ⟨-, hrows⟩
    · rw [hsame] at hr
      exact absurd hid (hnew r hr)
    · rw [hrows, List.map_append]
      rfl
  · exact (List.append_nil _).symm

theorem recorded_create {w w' : World} {c : Creation} (hfresh : Fresh w.state (.create c)) (h : Recorded w)
    (hlog : w'.log = .create c :: w.log) (hcreated : Created w.state w'.state c) : Recorded w' := by
  have hsame : creations w'.log = creations w.log ++ [c] := by
    rw [hlog, creations_cons]
    rfl
  refine ⟨?_, ?_, ?_, ?_⟩
  · rw [hcreated.turns, hsame, List.map_append, List.map_append, h.turns]
    rfl
  · rw [hcreated.messages, hsame, List.filter_append, List.map_append, List.map_append, h.messages]
    rfl
  · rw [conversations_created hfresh hcreated, hsame, List.filter_append, List.map_append, h.conversations]
    cases hf : c.fresh <;> simp [hf]
  · -- the key of a creation is under no turn of its owner
    rw [hsame, List.map_append, List.nodup_append]
    refine ⟨h.keys, List.nodup_singleton _, ?_⟩
    rintro p hp q hq rfl
    have hp' : p ∈ w.state.turns.rows.map fun t => (t.owner, t.idempotencyKey) := by
      have hsnd : (w.state.turns.rows.map fun t => (t.owner, t.idempotencyKey)) =
          (creations w.log).map fun c => (c.owner, c.key) := by
        have hturns := congrArg (List.map Prod.snd) h.turns
        rwa [List.map_map, List.map_map] at hturns
      rwa [hsnd]
    obtain ⟨t, ht, heq⟩ := List.mem_map.1 hp'
    rw [List.map_singleton, List.mem_singleton, ← heq, Prod.mk.injEq] at hq
    have hcapacity := hcreated.capacity
    rw [Store.capacity, Bool.and_eq_true, Bool.not_eq_true', List.any_eq_false] at hcapacity
    exact hcapacity.2 t ht (by simp [hq.1, hq.2])

/-! ## Runs -/

/-- What the requests keep of the turns. -/
structure Admitted (w : World) : Prop where
  limited : Limited w.state
  recorded : Recorded w
  past : ∀ t ∈ w.state.turns, ∃ b ∈ w.log, t.createdAt ≤ b.now

/-- **One batch.** -/
theorem admitted_land {w w' : World} {b : Batch} (horderly : Orderly w b) (h : Admitted w)
    (hland : land exec b w = some w') : Admitted w' := by
  obtain ⟨hexec, hlog⟩ := Program.land_eq_some hland
  obtain ⟨hclock, -⟩ := horderly.2 (by rw [hexec]; rfl)
  have hpast : ∀ at', (∃ b' ∈ w.log, at' ≤ b'.now) → ∃ b' ∈ w'.log, at' ≤ b'.now := by
    rintro at' ⟨b', hb', hle⟩
    exact ⟨b', by rw [hlog]; exact List.mem_cons_of_mem _ hb', hle⟩
  rcases land_cases horderly.1 hexec with
    ⟨c, rfl, hcreated⟩ | ⟨hcreation, haside, hsame | ⟨t, t', es, hmoves, hchange⟩⟩
  · refine ⟨limited_create h.limited hcreated fun t ht => ?_, recorded_create horderly.1 h.recorded hlog hcreated,
      fun t ht => ?_⟩
    · obtain ⟨b', hb', hle⟩ := h.past t ht
      exact le_trans hle (hclock b' hb')
    · rcases hcreated.mem_iff.1 ht with ht | rfl
      · exact hpast _ (h.past t ht)
      · exact ⟨_, by rw [hlog]; exact List.mem_cons_self, le_refl _⟩
  · refine ⟨?_, recorded_aside h.recorded hlog hcreation haside (by rw [hsame]), ?_⟩
    · obtain ⟨hidle, howner, hall, hrate⟩ := h.limited
      refine ⟨by rwa [hsame], by rwa [hsame], by rwa [hsame], ?_⟩
      intro owner
      rw [Store.admitted, hsame]
      exact hrate owner
    · rw [hsame]
      exact fun t ht => hpast _ (h.past t ht)
  · refine ⟨limited_moves h.limited hmoves hchange.active,
      recorded_aside h.recorded hlog hcreation haside (map_moves hmoves fun _ _ => rfl), fun r hr => ?_⟩
    rcases hmoves.mem_iff.1 hr with rfl | ⟨hr, -⟩
    · have hcreated : r.createdAt = t.createdAt := by rw [hmoves.set]; rfl
      rw [hcreated]
      exact hpast _ (h.past t hmoves.mem)
    · exact hpast _ (h.past r hr)

/-! ## Stale workers -/

/-- The turn and the token of the worker that sends the batch. -/
def Batch.worker : Batch → Option (String × String)
  | renew turn token _ | append turn token _ _ _ | retry turn token _ _ _ _ => some (turn, token)
  | complete c => some (c.turn, c.token)
  | terminalize c => c.worker.map (c.turn, ·)
  | create _ | recover _ _ | claim _ _ _ => none

/-- The worker does not hold the turn: its token was replaced, or its lease
    expired. -/
def Batch.Stale (s : Store) (b : Batch) : Prop :=
  ∃ p ∈ b.worker, ∀ t ∈ s.turns, t.id = p.1 → t.heldBy p.2 b.now = false

instance (s : Store) (b : Batch) : Decidable (b.Stale s) := by unfold Batch.Stale; infer_instance

theorem updateTurn_lost {id : String} {guard : Turn → Bool} {set : Turn → TurnState}
    (h : ∀ t ∈ s.turns, t.id = id → guard t = false) : s.updateTurn id guard set = some s := by
  unfold Store.updateTurn
  split
  · rfl
  · next t hfind =>
    obtain ⟨ht, hid⟩ := Table.find?_eq_some_iff.1 hfind
    rw [if_neg (by rw [h t ht hid]; exact Bool.false_ne_true)]

/-- **The batch of a worker that does not hold its turn changes nothing.** -/
theorem stale_unchanged {b : Batch} (hfresh : Fresh s b) (hpledged : b.Pledged s) (h : b.Stale s) :
    exec b s = some s := by
  obtain ⟨⟨turn, token⟩, hworker, hlost⟩ := h
  cases b with
  | create | recover | claim => cases hworker
  | renew turn token now =>
    cases hworker
    refine updateTurn_lost fun t ht hid => ?_
    have hfalse : t.heldBy token now = false := hlost t ht hid
    rw [hfalse, Bool.false_and]
  | append turn token sequence drafts now =>
    cases hworker
    refine emitAll_lost (fun e he => (mem_numbered he).1) (fun e he e' he' => ?_) hlost
    obtain ⟨-, -, -, -, d, hd, hid, -⟩ := mem_numbered he
    rw [hid]
    exact (fresh_event (hfresh.2 _ (List.mem_map_of_mem hd)) e' he').1
  | complete c =>
    cases hworker
    refine complete_lost hfresh ?_
    rintro ⟨t, ht, hid, hheld⟩
    have hfalse : t.heldBy c.token c.now = false := hlost t ht hid
    rw [hheld] at hfalse
    cases hfalse
  | retry turn token code event availableAt now =>
    cases hworker
    refine updateTurn_lost fun t ht hid => ?_
    rw [← Bool.not_eq_true]
    intro hany
    obtain ⟨l, hphase, htoken⟩ := any_lease hany
    have htoken := of_decide_eq_true htoken
    obtain ⟨t₁, ht₁, hid₁, -, hheld⟩ := hpledged
    obtain rfl : t₁ = t := s.turns.eq_of_key_eq ht₁ ht (hid₁.trans hid.symm)
    have hfalse : t₁.heldBy token now = false := hlost t₁ ht hid
    rw [Turn.heldBy_iff.2 ⟨l, hphase, htoken, (hheld l hphase htoken).1⟩] at hfalse
    cases hfalse
  | terminalize c =>
    obtain ⟨token', hworker', heq⟩ := Option.map_eq_some_iff.1 hworker
    cases heq
    obtain ⟨t, ht, hid, -, hheld⟩ := hpledged token hworker'
    -- the turn is not active, for the worker would hold it
    have hclosed : ∀ t' ∈ s.turns, t'.id = c.turn → t'.phase.active = false := by
      intro t' ht' hid'
      obtain rfl : t' = t := s.turns.eq_of_key_eq ht' ht (hid'.trans hid.symm)
      rw [← Bool.not_eq_true]
      intro hactive
      obtain ⟨l, hphase, htoken, hnow, -⟩ := hheld hactive
      have hfalse : t'.heldBy token c.now = false := hlost t' ht' hid'
      rw [Turn.heldBy_iff.2 ⟨l, hphase, htoken, hnow⟩] at hfalse
      cases hfalse
    have hemit : s.emit (·.phase.active) c.terminalEvent = some s :=
      emit_lost (fun e he => (fresh_event (hfresh.2 _ (by simp [Batch.draws, Ending.terminalEvent])) e he).1) hclosed
    show s.terminalize c = some s
    rw [Store.terminalize, hemit, Option.bind_eq_bind, Option.bind_some]
    refine updateTurn_lost fun t' ht' hid' => ?_
    rw [hclosed t' ht' hid', Bool.false_and]

/-! ## Admission and leases -/

theorem Limited.window (h : Limited s) (owner : String) (start : ℤ) :
    (s.turns.rows.countP fun t => t.owner = owner && (start ≤ t.createdAt && t.createdAt ≤ start + rateWindowMs)) ≤
      admittedPerOwnerPerMinute := by
  have hload := h.rate owner (start + rateWindowMs)
  rw [Store.admitted, Window.load_ones, List.countP_filter] at hload
  refine le_trans (List.countP_mono_left fun t _ ht => ?_) hload
  simp only [Bool.and_eq_true, decide_eq_true_eq] at ht ⊢
  exact ⟨⟨by omega, ht.2.2⟩, ht.1⟩

/-- **Admission and leases.** After any interleaving of requests whose batches
    commit in the order of their clocks, and whose recoveries spare the turns
    with no attempt left: a conversation has one active turn at most, an owner
    two, the system ten; no owner has more than five turns created within a
    minute; no key of an owner made more than one turn, one message and one
    conversation; a pending turn has an attempt left; and the batch of a worker
    that does not hold its turn changes nothing. -/
theorem admission_and_lease_safety {actions : List (FlightAction Request)}
    (hactions : Machine.Along step (FlightAction.Meets Orderly) Flight.initial actions) :
    let f := Machine.run step Flight.initial actions
    let s := f.world.state
    (∀ t ∈ s.turns, ∀ t' ∈ s.turns, t.conversation = t'.conversation → t.phase.active = true →
      t'.phase.active = true → t = t') ∧
    (∀ owner, (s.turns.rows.countP fun t => t.owner = owner && t.phase.active) ≤ activePerOwner) ∧
    (s.turns.rows.countP fun t => t.phase.active) ≤ activeGlobal ∧
    (∀ owner start, (s.turns.rows.countP fun t =>
      t.owner = owner && (start ≤ t.createdAt && t.createdAt ≤ start + rateWindowMs)) ≤ admittedPerOwnerPerMinute) ∧
    Recorded f.world ∧
    (∀ t ∈ s.turns, ∀ code, t.phase = .pending code → t.attemptCount < t.maxAttempts) ∧
    ∀ i b, f.pending i = some b → Orderly f.world b → b.Stale s → exec b s = some s := by
  intro f s
  obtain ⟨-, htrusts, hleased, hadmitted⟩ := Program.flight_relies
    (S := Since) (R := fun w b => b.Pledged w.state) (I := fun w => Leased w ∧ Admitted w)
    (fun w hw => .refl hw.1) (fun w w' w'' h h' => h.trans h') program_sends (fun k w _ => request_trusts k w)
    (fun b w w' _ horderly hpledged hw hland =>
      have hland' := leased_land horderly hpledged hw.1 hland
      ⟨⟨hland'.1, admitted_land horderly hw.2 hland⟩, hland'.2⟩)
    hactions (fun p hp => nomatch hp) (fun p hp => nomatch hp)
    ⟨⟨fun t ht => absurd ht (Table.not_mem_empty t), fun t ht => absurd ht (Table.not_mem_empty t)⟩,
      ⟨fun t ht => absurd ht (Table.not_mem_empty t), fun _ => Nat.zero_le _, Nat.zero_le _,
        fun _ t => Nat.zero_le _⟩,
      ⟨rfl, rfl, rfl, List.nodup_nil⟩, fun t ht => absurd ht (Table.not_mem_empty t)⟩
  refine ⟨hadmitted.limited.idle, hadmitted.limited.owner, hadmitted.limited.all, hadmitted.limited.window,
    hadmitted.recorded, hleased.left, fun i b hpending horderly hstale => ?_⟩
  exact stale_unchanged horderly.1 (pending_trusts htrusts hleased hpending) hstale

/-- The lease of the claimed turn is renewed when it has expired. -/
def expiredRenewal : List (FlightAction Request) := claimedTurn ++ [.start (.renew "turn" "lease" 300001)]

theorem admission_and_lease_safety_sample :
    let f := Machine.run step Flight.initial expiredRenewal
    ∃ b ∈ f.pending 2, b.Stale f.world.state ∧ exec b f.world.state = some f.world.state := by
  intro f
  have hstale : ∃ b ∈ f.pending 2, Orderly f.world b ∧ b.Stale f.world.state := by decide
  obtain ⟨b, hb, horderly, hstale⟩ := hstale
  obtain ⟨-, -, -, -, -, -, hunchanged⟩ :=
    @admission_and_lease_safety expiredRenewal (by decide)
  exact ⟨b, hb, hstale, hunchanged 2 b hb horderly hstale⟩

/-! ## A recovery that comes late -/

/-- The turn fails, is claimed again, and its lease expires.  A claim reads it,
    and before it recovers it another one recovers it and claims it, for the
    last time. -/
def lateRecovery : List (FlightAction Request) :=
  claimedTurn ++ [.start (.fail "turn" "lease" "MODEL_ERROR" "failed" 2), .advance 2, .advance 2,
    .start (.claim "worker" "lease-2" "missing" (fun _ => "recovery") 40000),
    .advance 3, .advance 3, .advance 3, .advance 3,
    .start (.claim "worker" "lease-4" "missing" (fun _ => "recovery") 640000), .advance 4,
    .start (.claim "other" "lease-3" "missing" (fun _ => "recovery") 340000),
    .advance 5, .advance 5, .advance 5, .advance 5, .advance 5, .advance 4]

/-- A pending turn without an attempt left. -/
theorem late_recovery_leaves_no_attempt : ¬ ∀ actions : List (FlightAction Request),
    Machine.Along step (FlightAction.Meets fun w b => Fresh w.state b ∧ ∀ b' ∈ w.log, b'.now ≤ b.now)
        Flight.initial actions →
      ∀ t ∈ (Machine.run step Flight.initial actions).world.state.turns, ∀ code, t.phase = .pending code →
        t.attemptCount < t.maxAttempts := by
  intro h
  have hspent : ∃ t ∈ (Machine.run step Flight.initial lateRecovery).world.state.turns,
      t.phase = .pending (some "LEASE_EXPIRED") ∧ t.maxAttempts ≤ t.attemptCount := by
    decide
  obtain ⟨t, ht, hphase, hspent⟩ := hspent
  exact absurd (h lateRecovery (by decide) t ht _ hphase) (not_lt.2 hspent)

end Xauusd.Assistant
