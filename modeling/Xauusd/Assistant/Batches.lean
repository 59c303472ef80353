/-
  The batches that the requests on assistant turns send (`assistant-chat.ts`).

  Each is taken whole, or not at all when one of its statements aborts.

  * `Store.create`: admission of a turn, with its conversation and message;
  * `Store.recoverTurn`, `Store.claimTurn`, `Store.renewTurn`,
    `Store.retryTurn`: the statements of the lease;
  * `Store.emit`: the two statements of an event;
  * `Store.append`, `Store.complete`, `Store.terminalize`;
  * `Batch`, `exec`, with the clock, the worker and the drawn ids of a batch.
-/
import Xauusd.Assistant.Store
import Xauusd.Lib.Sha256

namespace Xauusd.Assistant

/-! ## Limits -/

def activePerOwner : ℕ := 2
def activeGlobal : ℕ := 10
def admittedPerOwnerPerMinute : ℕ := 5
def rateWindowMs : ℤ := 60000
def eventBatchSize : ℕ := 16
def maxAttempts : ℕ := 3
def turnTtlMs : ℤ := 30 * 60 * 1000
def leaseMs : ℤ := 5 * 60 * 1000
def maxAnswerBytes : ℕ := 32000
def ANSWER_DELTA_BYTES : ℕ := 4096
def MAX_ASSISTANT_CONTENT_BLOCKS : ℕ := 12
def MAX_COMPLETION_EVENTS : ℕ :=
  (maxAnswerBytes + ANSWER_DELTA_BYTES - 1) / ANSWER_DELTA_BYTES + MAX_ASSISTANT_CONTENT_BLOCKS + 3

/-! ## Admission -/

/-- What `createAssistantChatTurn` binds to its batch; `fresh` when the request
    names no conversation, whose id is then drawn. -/
structure Creation where
  turn : String
  userMessage : String
  event : String
  conversation : String
  fresh : Bool
  owner : String
  key : String
  message : String
  messageHash : String
  title : String
  now : ℤ
  deriving DecidableEq, Repr

/-- The turn that the batch inserts. -/
def Creation.row (c : Creation) : Turn :=
  { id := c.turn, owner := c.owner, conversation := c.conversation, userMessage := c.userMessage
    idempotencyKey := c.key, messageHash := c.messageHash, phase := .pending none, eventSequence := 0
    availableAt := c.now, expiresAt := c.now + turnTtlMs, attemptCount := 0, maxAttempts := maxAttempts
    attemptHistory := [], createdAt := c.now }

/-- Its first event. -/
def Creation.started (c : Creation) : Event :=
  { id := c.event, turn := c.turn, sequence := 1, body := .conversationStarted, occurredAt := c.now
    key := "system:conversation-started" }

namespace Store

variable (s : Store)

/-- `capacitySql` -/
def capacity (owner key : String) (now : ℤ) : Bool :=
  (s.turns.rows.countP fun t => t.owner = owner && t.phase.active) < activePerOwner
    && (s.turns.rows.countP fun t => t.phase.active) < activeGlobal
    && (s.turns.rows.countP fun t => t.owner = owner && now - rateWindowMs ≤ t.createdAt)
      < admittedPerOwnerPerMinute
    && !(s.turns.rows.any fun t => t.owner = owner && t.idempotencyKey = key)

def createConversation (c : Creation) : Store :=
  if s.capacity c.owner c.key c.now then
    { s with
      conversations := s.conversations.insertIgnore
        { id := c.conversation, owner := c.owner, initialIdempotencyKey := c.key, title := c.title
          titleSource := .provisional, titleRevision := 0, titleRequestVersion := 0, pendingTitleJob := none
          createdAt := c.now, lastActivityAt := c.now, status := .active }
        fun r => r.owner = c.owner && r.initialIdempotencyKey = c.key }
  else s

def createUserMessage (c : Creation) : Store :=
  match s.conversations.find? c.conversation with
  | none => s
  | some conversation =>
    if conversation.owner = c.owner ∧ conversation.status = .active ∧ s.capacity c.owner c.key c.now = true
        ∧ ∀ t ∈ s.turns, t.conversation = c.conversation → t.phase.active = false then
      s.insertMessage
        { id := c.userMessage, conversation := c.conversation, role := .user, content := c.message
          createdAt := c.now, source := c.turn }
    else s

/-- The conversation and the message that the new turn joins. -/
def joins (c : Creation) : Option Conversation :=
  (s.conversations.find? c.conversation).filter fun conversation =>
    conversation.owner = c.owner
      && s.messages.rows.any fun m => m.id = c.userMessage && m.conversation = c.conversation && m.role = .user

/-- `assistant_turn_jobs_require_owner_message` aborts on an archived
    conversation. -/
def createTurn (c : Creation) : Option Store :=
  match s.joins c with
  | none => some s
  | some conversation =>
    if s.turns.rows.any fun t => t.owner = c.owner && t.idempotencyKey = c.key then some s
    else if conversation.status = .active then
      some { s with
        turns := s.turns.insertIgnore c.row fun t =>
          t.userMessage = c.userMessage || (t.owner = c.owner && t.idempotencyKey = c.key) }
    else none

/-- The sequence of a turn advances to that of an event it has. -/
def advance (e : Event) : Option Store :=
  s.updateTurn e.turn
    (fun t => t.eventSequence + 1 = e.sequence && s.events.rows.any fun e' => e'.id = e.id && e'.turn = e.turn)
    fun t => { t.toTurnState with eventSequence := e.sequence }

/-- `UPDATE assistant_conversations SET last_activity_at=? WHERE id=? AND …` -/
def touchConversation (conversation : String) (now : ℤ) (p : Bool) : Store :=
  { s with
    conversations := s.conversations.update (fun r => r.id = conversation && p)
      (fun r => { r with lastActivityAt := now }) fun _ => rfl }

/-- The batch of `createAssistantChatTurn` -/
def create (c : Creation) : Option Store := do
  let s ← ((if c.fresh then s.createConversation c else s).createUserMessage c).createTurn c
  let s ← s.insertEvent false c.started
  let s ← s.advance c.started
  return s.touchConversation c.conversation c.now
    (s.turns.rows.any fun t => t.id = c.turn && t.userMessage = c.userMessage)

/-! ## Leases -/

end Store

/-- `attemptHistory(event)` -/
def TurnState.note (t : TurnState) (event : String) (now : ℤ) : List AttemptEntry :=
  t.attemptHistory ++ [⟨event, now, t.attemptCount⟩]

namespace Store

variable (s : Store)

/-- The update of `recoverAssistantChatTurns` -/
def recoverTurn (id : String) (now : ℤ) : Option Store :=
  s.updateTurn id
    (fun t => t.phase.lease?.any fun l => l.expiresAt ≤ now)
    fun t => { t.toTurnState with
      phase := .pending (some "LEASE_EXPIRED"), availableAt := now, attemptHistory := t.note "LEASE_EXPIRED" now }

/-- The turns that `claimAssistantChatTurn` selects from. -/
def claimable (now : ℤ) : List Turn :=
  s.turns.rows.filter fun t =>
    (match t.phase with | .pending _ => true | _ => false) && t.availableAt ≤ now && now < t.expiresAt
      && t.attemptCount < t.maxAttempts

/-- `ORDER BY created_at,id LIMIT 1` -/
def nextClaim (now : ℤ) : Option Turn :=
  Table.firstBy (fun a b => a.createdAt < b.createdAt || (a.createdAt = b.createdAt && a.id ≤ b.id))
    (s.claimable now)

def claimedState (worker token : String) (now : ℤ) (t : Turn) : TurnState :=
  { t.toTurnState with
    phase := .processing ⟨worker, token, min (now + leaseMs) t.expiresAt, now⟩
    attemptCount := t.attemptCount + 1
    attemptHistory := t.attemptHistory ++ [⟨"CLAIMED", now, t.attemptCount + 1⟩] }

/-- The update of `claimAssistantChatTurn` -/
def claimTurn (worker token : String) (now : ℤ) : Option Store :=
  match s.nextClaim now with
  | none => some s
  | some t =>
    (s.updateTurn t.id (fun _ => true) (claimedState worker token now)).map fun s =>
      { s with claims := s.claims ++ [(token, t.set (claimedState worker token now t))] }

/-- The update of `renewAssistantChatTurn` -/
def renewTurn (id token : String) (now : ℤ) : Option Store :=
  s.updateTurn id (fun t => t.heldBy token now && now < t.expiresAt) fun t =>
    { t.toTurnState with
      phase := match t.phase with
        | .processing l => .processing { l with expiresAt := min (now + leaseMs) t.expiresAt }
        | p => p
      attemptHistory := t.note "LEASE_RENEWED" now }

/-- The update of `failAssistantChatTurn` -/
def retryTurn (id token code event : String) (availableAt now : ℤ) : Option Store :=
  s.updateTurn id (fun t => t.phase.lease?.any fun l => l.token = token) fun t =>
    { t.toTurnState with
      phase := .pending (some code), availableAt := availableAt, attemptHistory := t.note event now }

/-! ## Events -/

/-- `INSERT INTO assistant_turn_events … SELECT … FROM assistant_turn_jobs WHERE
    id=? AND … AND event_sequence=? ON CONFLICT DO NOTHING` -/
def insertNext (guard : Turn → Bool) (e : Event) : Option Store :=
  match s.turns.find? e.turn with
  | none => some s
  | some t => if guard t ∧ t.eventSequence + 1 = e.sequence then s.insertEvent true e else some s

/-- `eventStatements`, and the first two statements of `terminalizeTurn`: an
    event of the turn when the guard holds and it is the next one. -/
def emit (guard : Turn → Bool) (e : Event) : Option Store := (s.insertNext guard e).bind (·.advance e)

def emitAll (guard : Turn → Bool) (es : List Event) : Option Store := es.foldlM (fun s e => s.emit guard e) s

end Store

/-- An event as it is appended: the id drawn for it, its key and its body. -/
structure Draft where
  id : String
  key : String
  body : EventBody
  deriving DecidableEq, Repr

/-- The events of some drafts, after the sequence that the turn was read with. -/
def numbered (turn : String) (now : ℤ) : ℕ → List Draft → List Event
  | _, [] => []
  | sequence, d :: drafts =>
    { id := d.id, turn := turn, sequence := sequence + 1, body := d.body, occurredAt := now, key := d.key }
      :: numbered turn now (sequence + 1) drafts

/-- The batch of `appendAssistantChatEvents` -/
def Store.append (s : Store) (turn token : String) (sequence : ℕ) (drafts : List Draft) (now : ℤ) : Option Store :=
  s.emitAll (·.heldBy token now) (numbered turn now sequence drafts)

/-! ## Completion -/

/-- `splitUtf8` -/
def splitUtf8 (maximum : ℕ) : List Char → List Char → ℕ → List (List Char)
  | [], current, _ => if current = [] then [] else [current]
  | c :: rest, current, size =>
    if maximum < size + c.utf8Size ∧ current ≠ [] then current :: splitUtf8 maximum rest [c] c.utf8Size
    else splitUtf8 maximum rest (current ++ [c]) (size + c.utf8Size)

/-- The public columns of a block of the content document. -/
structure ContentBlock where
  id : String
  type : String
  version : String
  contentSha256 : String
  deriving DecidableEq, Repr

/-- What `completeAssistantChatTurn` binds to its batch, with what it read of
    the turn; `eventId i` is the id drawn for the event `i`. -/
structure Completion where
  turn : String
  conversation : String
  token : String
  sequence : ℕ
  message : String
  titleJob : String
  eventId : ℕ → String
  answer : String
  blocks : List ContentBlock
  evidenceIds : List String
  now : ℤ

namespace Completion

variable (c : Completion)

/-- The chunks of the answer. -/
def chunks : List String := (splitUtf8 ANSWER_DELTA_BYTES c.answer.toList [] 0).map String.ofList

/-- The events of the answer, with their keys. -/
def answerEvents : List (String × EventBody) :=
  ("completion:answer-started", .answerStarted)
    :: (c.chunks.mapIdx fun i text => ("completion:answer-delta:" ++ toString i, .answerDelta text))
    ++ (c.blocks.mapIdx fun i b => ("completion:content-block:" ++ toString i,
        .contentBlock b.id b.type b.version b.contentSha256))
    ++ [("completion:answer-completed", .answerCompleted c.message (sha256 c.answer) c.evidenceIds)]

/-- `terminalEvents`, as drafts -/
def drafts : List Draft :=
  (c.answerEvents ++ [("completion:conversation-completed", EventBody.conversationCompleted)]).mapIdx
    fun i b => ⟨c.eventId i, b.1, b.2⟩

def events : List Event := numbered c.turn c.now c.sequence c.drafts

end Completion

namespace Store

variable (s : Store)

def insertAnswer (c : Completion) : Store :=
  match s.turns.find? c.turn with
  | none => s
  | some t =>
    if t.heldBy c.token c.now then
      s.insertMessage
        { id := c.message, conversation := t.conversation, role := .assistant, content := c.answer
          createdAt := c.now, source := t.id }
    else s

def finishAnswer (c : Completion) : Option Store :=
  s.updateTurn c.turn
    (fun t => t.heldBy c.token c.now && t.eventSequence = c.sequence + c.drafts.length
      && s.messages.rows.any fun m => m.id = c.message && m.source = c.turn)
    fun t => { t.toTurnState with
      phase := .answered c.message c.now, attemptHistory := t.note "ANSWERED" c.now }

/-- The first statement of `automaticAssistantTitleStatements` -/
def requestTitle (c : Completion) : Store :=
  { s with
    conversations := s.conversations.update
      (fun r => r.id = c.conversation && r.titleSource = .provisional && r.titleRequestVersion = 0
        && r.pendingTitleJob = none
        && s.messages.rows.any fun m => m.id = c.message && m.conversation = r.id && m.role = .assistant)
      (fun r => { r with titleRequestVersion := r.titleRequestVersion + 1, pendingTitleJob := some c.titleJob })
      fun _ => rfl }

/-- `… WHERE role='USER' ORDER BY created_at,id LIMIT 1` -/
def firstUserMessage (conversation : String) : Option Message :=
  Table.firstBy (fun a b => a.createdAt < b.createdAt || (a.createdAt = b.createdAt && a.id ≤ b.id))
    (s.messages.rows.filter fun m => m.conversation = conversation && m.role = .user)

/-- The second: the job that the conversation waits for. -/
def insertTitleJob (c : Completion) : Option Store :=
  match s.conversations.rows.find? fun r => r.pendingTitleJob = some c.titleJob with
  | none => some s
  | some r =>
    (s.firstUserMessage r.id).map fun first =>
      { s with
        titleJobs := s.titleJobs.insertIgnore
          { id := c.titleJob, conversation := r.id, idempotencyKey := "automatic:" ++ c.message
            inputVersion := r.titleRequestVersion, expectedTitleRevision := r.titleRevision
            firstUserMessage := first.id, assistantMessage := c.message, availableAt := c.now
            createdAt := c.now }
          fun j => j.conversation = r.id
            && (j.inputVersion = r.titleRequestVersion || j.idempotencyKey = "automatic:" ++ c.message) }

/-- The batch of `completeAssistantChatTurn` -/
def complete (c : Completion) : Option Store := do
  let s ← (s.insertAnswer c).emitAll (·.heldBy c.token c.now) c.events
  let s ← s.finishAnswer c
  let s := s.touchConversation c.conversation c.now
    (s.turns.rows.any fun t => t.id = c.turn && t.phase.message? = some c.message)
  (s.requestTitle c).insertTitleJob c

end Store

/-! ## Terminal statuses -/

/-- What `terminalizeTurn` binds to its batch; `worker` is the token of the
    worker that asked for it, none for the owner and for a recovery. -/
structure Ending where
  turn : String
  sequence : ℕ
  outcome : Outcome
  code : String
  event : String
  worker : Option String
  now : ℤ
  deriving DecidableEq, Repr

def Outcome.name : Outcome → String
  | failed => "FAILED"
  | rejected => "REJECTED"
  | expired => "EXPIRED"
  | cancelled => "CANCELLED"

def Ending.body (c : Ending) : EventBody :=
  if c.outcome = .cancelled then .cancelled c.code else .error c.code false none

def Ending.terminalEvent (c : Ending) : Event :=
  { id := c.event, turn := c.turn, sequence := c.sequence + 1, body := c.body, occurredAt := c.now
    key := "terminal:" ++ c.outcome.name }

/-- The batch of `terminalizeTurn` -/
def Store.terminalize (s : Store) (c : Ending) : Option Store := do
  let s ← s.emit (·.phase.active) c.terminalEvent
  s.updateTurn c.turn (fun t => t.phase.active && t.eventSequence = c.sequence + 1) fun t =>
    { t.toTurnState with
      phase := .ended c.outcome c.code c.now, attemptHistory := t.note c.outcome.name c.now }

/-! ## Batches -/

inductive Batch where
  | create (c : Creation)
  | recover (turn : String) (now : ℤ)
  | claim (worker token : String) (now : ℤ)
  | renew (turn token : String) (now : ℤ)
  | append (turn token : String) (sequence : ℕ) (drafts : List Draft) (now : ℤ)
  | complete (c : Completion)
  | retry (turn token code event : String) (availableAt now : ℤ)
  | terminalize (c : Ending)

def exec : Batch → Store → Option Store
  | .create c, s => s.create c
  | .recover turn now, s => s.recoverTurn turn now
  | .claim worker token now, s => s.claimTurn worker token now
  | .renew turn token now, s => s.renewTurn turn token now
  | .append turn token sequence drafts now, s => s.append turn token sequence drafts now
  | .complete c, s => s.complete c
  | .retry turn token code event availableAt now, s => s.retryTurn turn token code event availableAt now
  | .terminalize c, s => s.terminalize c

/-- The clock of the request that sends the batch. -/
def Batch.now : Batch → ℤ
  | create c => c.now
  | recover _ now | claim _ _ now | renew _ _ now | append _ _ _ _ now | retry _ _ _ _ _ now => now
  | complete c => c.now
  | terminalize c => c.now

/-- The ids that the request drew for the batch. -/
def Batch.draws : Batch → List String
  | create c => [c.turn, c.userMessage, c.event] ++ if c.fresh then [c.conversation] else []
  | claim _ token _ => [token]
  | append _ _ _ drafts _ => drafts.map (·.id)
  | complete c => [c.message, c.titleJob] ++ c.drafts.map (·.id)
  | terminalize c => [c.event]
  | recover _ _ | renew _ _ _ | retry _ _ _ _ _ _ => []

end Xauusd.Assistant
