/-
  The tables of the assistant runtime, and the statements that write turns,
  messages and events (`0009_assistant_conversations.sql`,
  `0011_assistant_chat_runtime.sql`, `0012_assistant_turn_lease_bound.sql`).

  A statement returns the store after it, none when a trigger or a constraint
  aborts the batch it is in.

  * `Phase`: the columns of a turn that its status determines, so that a row
    that fails the CHECKs on them cannot be built;
  * `Store`: conversations, messages, turns, their events, title jobs;
  * `Store.updateTurn`, `Store.insertEvent`, `Store.insertMessage`;
  * `updateTurn_cases`, `insertEvent_cases`: what a statement that is not
    aborted does.
-/
import Xauusd.Lib.Table
import Xauusd.Assistant.Events

namespace Xauusd.Assistant

/-! ## Rows -/

inductive TitleSource where
  | provisional | ai | user
  deriving DecidableEq, Repr

inductive ConversationStatus where
  | active | archived
  deriving DecidableEq, Repr

/-- `assistant_conversations` -/
structure Conversation where
  id : String
  owner : String
  initialIdempotencyKey : String
  title : String
  titleSource : TitleSource
  titleRevision : ℕ
  titleRequestVersion : ℕ
  pendingTitleJob : Option String
  createdAt : ℤ
  lastActivityAt : ℤ
  status : ConversationStatus
  deriving DecidableEq, Repr

inductive Role where
  | user | assistant
  deriving DecidableEq, Repr

/-- `assistant_messages` of the chat; `source` is the turn. -/
structure Message where
  id : String
  conversation : String
  role : Role
  content : String
  createdAt : ℤ
  source : String
  deriving DecidableEq, Repr

/-- `assistant_title_jobs`, as they are requested. -/
structure TitleJob where
  id : String
  conversation : String
  idempotencyKey : String
  inputVersion : ℕ
  expectedTitleRevision : ℕ
  firstUserMessage : String
  assistantMessage : String
  availableAt : ℤ
  createdAt : ℤ
  deriving DecidableEq, Repr

/-- The lease columns of a turn. -/
structure TurnLease where
  owner : String
  token : String
  expiresAt : ℤ
  startedAt : ℤ
  deriving DecidableEq, Repr

/-- How a turn ends without an answer. -/
inductive Outcome where
  | failed | rejected | expired | cancelled
  deriving DecidableEq, Repr

/-- The status with the columns it determines: the lease columns are those of
    `PROCESSING`, `assistant_message_id` that of `ANSWERED`, `completed_at` that
    of the terminal statuses, and `cancel_requested` is 1 on `CANCELLED` only. -/
inductive Phase where
  | pending (failureCode : Option String)
  | processing (lease : TurnLease)
  | answered (assistantMessage : String) (completedAt : ℤ)
  | ended (outcome : Outcome) (failureCode : String) (completedAt : ℤ)
  deriving DecidableEq, Repr

namespace Phase

/-- `status IN ('PENDING','PROCESSING')` -/
def active : Phase → Bool
  | pending _ | processing _ => true
  | answered _ _ | ended _ _ _ => false

/-- `assistant_turn_jobs_status_transition` -/
def mayBecome : Phase → Phase → Bool
  | pending _, answered _ _ => false
  | pending _, _ => true
  | processing _, ended .rejected _ _ => false
  | processing _, _ => true
  | answered _ _, answered _ _ => true
  | ended o _ _, ended o' _ _ => o = o'
  | _, _ => false

def lease? : Phase → Option TurnLease
  | processing l => some l
  | _ => none

/-- `assistant_message_id` -/
def message? : Phase → Option String
  | answered m _ => some m
  | _ => none

@[simp] theorem active_pending (code : Option String) : (pending code).active = true := rfl
@[simp] theorem active_processing (l : TurnLease) : (processing l).active = true := rfl
@[simp] theorem active_answered (m : String) (at' : ℤ) : (answered m at').active = false := rfl
@[simp] theorem active_ended (o : Outcome) (code : String) (at' : ℤ) : (ended o code at').active = false := rfl

end Phase

/-- An entry of `attempt_history_json`. -/
structure AttemptEntry where
  event : String
  time : ℤ
  attempt : ℕ
  deriving DecidableEq, Repr

/-- The columns of a turn that change. -/
structure TurnState where
  phase : Phase
  eventSequence : ℕ
  availableAt : ℤ
  attemptCount : ℕ
  attemptHistory : List AttemptEntry
  deriving DecidableEq, Repr

/-- `assistant_turn_jobs` -/
structure Turn extends TurnState where
  id : String
  owner : String
  conversation : String
  userMessage : String
  idempotencyKey : String
  messageHash : String
  expiresAt : ℤ
  maxAttempts : ℕ
  createdAt : ℤ
  deriving DecidableEq, Repr

structure Store where
  conversations : Table Conversation.id
  messages : Table Message.id
  turns : Table Turn.id
  events : Table Event.id
  titleJobs : Table TitleJob.id
  /-- What `RETURNING *` of a claim gave, under the token it drew. -/
  claims : List (String × Turn)

def Store.empty : Store :=
  { conversations := .empty, messages := .empty, turns := .empty, events := .empty, titleJobs := .empty
    claims := [] }

/-- The row with a new state. -/
def Turn.set (t : Turn) (state : TurnState) : Turn := { t with toTurnState := state }

/-- The worker with the token holds the turn's lease. -/
def Turn.heldBy (t : Turn) (token : String) (now : ℤ) : Bool :=
  match t.phase with
  | .processing l => l.token = token && now < l.expiresAt
  | _ => false

theorem Turn.heldBy_iff {t : Turn} {token : String} {now : ℤ} :
    t.heldBy token now = true ↔ ∃ l, t.phase = .processing l ∧ l.token = token ∧ now < l.expiresAt := by
  unfold heldBy
  split
  · next l hl =>
    rw [Bool.and_eq_true, decide_eq_true_eq, decide_eq_true_eq]
    refine ⟨fun h => ⟨l, hl, h⟩, ?_⟩
    rintro ⟨l', hl', h⟩
    rw [hl, Phase.processing.injEq] at hl'
    rwa [hl']
  · next hne =>
    refine ⟨(fun h => nomatch h), ?_⟩
    rintro ⟨l, hl, -⟩
    exact (hne l hl).elim

/-- The unique columns that an event shares with another. -/
def Event.clash (e e' : Event) : Bool := e'.turn = e.turn && (e'.sequence = e.sequence || e'.key = e.key)

namespace Store

/-! ## Statements -/

/-- The triggers and the CHECKs of an update of a turn. -/
def admits (s : Store) (old new : Turn) : Prop :=
  old.phase.active = true ∧ old.phase.mayBecome new.phase = true
    ∧ (new.eventSequence = old.eventSequence
      ∨ (new.eventSequence = old.eventSequence + 1
        ∧ ∃ e ∈ s.events, e.turn = old.id ∧ e.sequence = new.eventSequence))
    ∧ (new.phase = old.phase ∨ new.phase.lease?.all (·.expiresAt ≤ old.expiresAt) = true)
    ∧ old.attemptHistory <+: new.attemptHistory
    ∧ new.attemptCount ≤ new.maxAttempts ∧ new.eventSequence ≤ MAX_ASSISTANT_EVENTS_PER_TURN

instance (s : Store) (old new : Turn) : Decidable (s.admits old new) := by
  unfold admits; infer_instance

/-- `UPDATE assistant_turn_jobs SET … WHERE id=? AND …` -/
def updateTurn (s : Store) (id : String) (guard : Turn → Bool) (set : Turn → TurnState) : Option Store :=
  match s.turns.find? id with
  | none => some s
  | some t =>
    if guard t then
      if s.admits t (t.set (set t)) then
        some { s with turns := s.turns.update (fun r => r.id = id) (fun r => r.set (set r)) fun _ => rfl }
      else none
    else some s

/-- The triggers and the CHECKs of an insertion of an event of the turn. -/
def allows (s : Store) (t : Turn) (e : Event) : Prop :=
  e.sequence = t.eventSequence + 1 ∧ t.phase.active = true
    ∧ (∀ m ∈ e.body.messageId, ∃ message ∈ s.messages, message.id = m
      ∧ message.conversation = t.conversation ∧ message.role = .assistant)
    ∧ e.sequence ≤ MAX_ASSISTANT_EVENTS_PER_TURN
    ∧ e.body.payloadBytes ≤ MAX_ASSISTANT_EVENT_PAYLOAD_BYTES

instance (s : Store) (t : Turn) (e : Event) : Decidable (s.allows t e) := by
  unfold allows; infer_instance

/-- `INSERT INTO assistant_turn_events`, with `ON CONFLICT DO NOTHING` or without. -/
def insertEvent (s : Store) (ignore : Bool) (e : Event) : Option Store :=
  match s.turns.find? e.turn with
  | none => none
  | some t =>
    if s.allows t e ∧ (ignore = true ∨ ∀ e' ∈ s.events, e'.id ≠ e.id ∧ Event.clash e e' = false) then
      some { s with events := s.events.insertIgnore e (Event.clash e) }
    else none

/-- `INSERT INTO assistant_messages … ON CONFLICT DO NOTHING` -/
def insertMessage (s : Store) (m : Message) : Store :=
  { s with
    messages := s.messages.insertIgnore m fun m' => m'.source = m.source && decide (m'.role = m.role) }

/-! ## What the statements do -/

variable {s s' : Store}

theorem updateTurn_cases {id : String} {guard : Turn → Bool} {set : Turn → TurnState}
    (h : s.updateTurn id guard set = some s') :
    (s' = s ∧ ∀ t ∈ s.turns, t.id = id → guard t = false) ∨
      ∃ t ∈ s.turns, t.id = id ∧ guard t = true ∧ s.admits t (t.set (set t)) ∧
        s' = { s with turns := s.turns.update (fun r => r.id = id) (fun r => r.set (set r)) fun _ => rfl } := by
  unfold updateTurn at h
  split at h
  · next hnone =>
    cases h
    exact .inl ⟨rfl, fun t ht hid => absurd hid (Table.find?_eq_none_iff.1 hnone t ht)⟩
  · next t ht =>
    obtain ⟨ht, hid⟩ := Table.find?_eq_some_iff.1 ht
    split at h
    · next hguard =>
      split at h
      · next hadmits =>
        cases h
        exact .inr ⟨t, ht, hid, hguard, hadmits, rfl⟩
      · cases h
    · next hguard =>
      cases h
      refine .inl ⟨rfl, fun t' ht' hid' => ?_⟩
      rw [s.turns.eq_of_key_eq ht' ht (hid'.trans hid.symm)]
      exact Bool.eq_false_iff.2 hguard

theorem insertEvent_cases {ignore : Bool} {e : Event} (h : s.insertEvent ignore e = some s') :
    ∃ t ∈ s.turns, t.id = e.turn ∧ s.allows t e ∧
      ((s' = s ∧ ignore = true ∧ ∃ e' ∈ s.events, e'.id = e.id ∨ Event.clash e e' = true) ∨
        ((∀ e' ∈ s.events, e'.id ≠ e.id ∧ Event.clash e e' = false) ∧
          s' = { s with events := s.events.insertIgnore e (Event.clash e) } ∧
          s'.events.rows = s.events.rows ++ [e])) := by
  unfold insertEvent at h
  split at h
  · cases h
  · next t ht =>
    obtain ⟨ht, hid⟩ := Table.find?_eq_some_iff.1 ht
    split at h
    · next hallows =>
      cases h
      refine ⟨t, ht, hid, hallows.1, ?_⟩
      obtain ⟨hsame, hclash⟩ | ⟨hnew, hrows⟩ := s.events.insertIgnore_cases e (Event.clash e)
      · refine .inl ⟨by rw [hsame], ?_, hclash⟩
        rcases hallows.2 with hignore | hnone
        · exact hignore
        · obtain ⟨e', he', hclash⟩ := hclash
          obtain ⟨hid', hfalse⟩ := hnone e' he'
          rcases hclash with hclash | hclash
          · exact absurd hclash hid'
          · rw [hfalse] at hclash
            cases hclash
      · exact .inr ⟨hnew, rfl, hrows⟩
    · cases h

end Store

end Xauusd.Assistant
