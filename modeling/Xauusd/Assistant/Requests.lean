/-
  The requests on assistant turns, as programs of reads and batches
  (`assistant-chat.ts`).

  * `createAssistantChatTurn`, `claimAssistantChatTurn` (with
    `recoverAssistantChatTurns`), `renewAssistantChatTurn`,
    `appendAssistantChatEvents`, `completeAssistantChatTurn`,
    `failAssistantChatTurn`, `deferAssistantChatTurn`,
    `cancelOwnerAssistantChatTurn`;
  * `terminalizeTurn`: what several of them end with;
  * `Request.program`, `step`: the requests interleaved;
  * `Formed`, `program_sends`: what every batch satisfies that they send.
-/
import Xauusd.Lib.Program
import Xauusd.Assistant.Batches

namespace Xauusd.Assistant

/-! ## Parsing -/

/-- `objectId` -/
def isObjectId : String → Bool :=
  shape Char.isAlphanum (fun c => c.isAlphanum || c ∈ [':', '.', '_', '-']) 0 127

/-- `idempotencyKey` -/
def isIdempotencyKey : String → Bool :=
  shape (fun c => c.isAlphanum || c ∈ [':', '.', '_', '-']) (fun c => c.isAlphanum || c ∈ [':', '.', '_', '-']) 15 127

/-- The workers' ids of `claimAssistantChatTurn` -/
def isWorkerId : String → Bool :=
  shape (fun c => c.isAlphanum || c ∈ [':', '.', '_', '-']) (fun c => c.isAlphanum || c ∈ [':', '.', '_', '-']) 2 95

def hasUnsafeTextControl (s : String) : Bool := s.toList.any fun c => c.toNat ∈ [0, 11, 12]

/-- The codes of `AssistantChatInputError` -/
inductive InputError where
  | invalidMessage
  | invalidIdempotencyKey
  | invalidIdentifier
  | invalidWorkerId
  | invalidEventBatch
  | invalidEventIdempotency
  | invalidProgressEvent
  | eventIdempotencyConflict
  | eventBudgetExceeded
  | invalidAssistantAnswer
  | invalidAgentProvenance
  | invalidFailureCode
  deriving DecidableEq, Repr

inductive Reply where
  | created (turn : Turn)
  | existing (turn : Turn)
  | conflict
  | capacity
  | busy
  | notFound
  | claimed (turn : Turn) (userText : String)
  | recorded (events : List Event)
  | unchanged (turn : Turn)
  | null
  /-- The reply is what the last statement of the batch returned. -/
  | sent
  | refused (error : InputError)
  /-- The event contract is broken. -/
  | broken (error : EventError)
  /-- The batch was aborted. -/
  | failed

abbrev Handler := Program Store Batch Reply

open Program

/-- The batch, and what follows when it is not aborted. -/
def send (b : Batch) (next : Handler) : Handler := commit b fun ok => if ok then next else done .failed

/-- The events of a turn, `ORDER BY sequence`. -/
def Store.eventsOf (s : Store) (turn : String) : List Event :=
  (s.events.rows.filter fun e => e.turn = turn).insertionSort fun a b => a.sequence ≤ b.sequence

/-! ## Terminal statuses -/

def terminalizeTurn (row : Turn) (outcome : Outcome) (code event : String) (worker : Option String) (now : ℤ)
    (next : Handler) : Handler :=
  if !isErrorCode code then done (.refused .invalidFailureCode)
  else read fun s =>
    let ending : Ending := ⟨row.id, row.eventSequence, outcome, code, event, worker, now⟩
    match AssistantEventSequence.empty.appendAll row.conversation (s.eventsOf row.id ++ [ending.terminalEvent]) with
    | .error e => done (.broken e)
    | .ok _ => send (.terminalize ending) next

/-! ## Create -/

structure CreateBody where
  owner : String
  idempotencyKey : String
  /-- The message, normalized. -/
  message : String
  conversation : Option String
  /-- `provisionalAssistantTitle` of the message. -/
  title : String
  turnId : String
  userMessageId : String
  eventId : String
  conversationId : String
  now : ℤ

namespace CreateBody

def messageHash (c : CreateBody) : String := sha256 (c.conversation.getD "NEW" ++ "\n" ++ c.message)

def creation (c : CreateBody) : Creation :=
  { turn := c.turnId, userMessage := c.userMessageId, event := c.eventId
    conversation := c.conversation.getD c.conversationId, fresh := c.conversation.isNone, owner := c.owner
    key := c.idempotencyKey, message := c.message, messageHash := c.messageHash, title := c.title, now := c.now }

end CreateBody

def Store.turnByKey (s : Store) (owner key : String) : Option Turn :=
  s.turns.rows.find? fun t => t.owner = owner && t.idempotencyKey = key

/-- A turn under the key answers the request, or contradicts it. -/
def CreateBody.replay (c : CreateBody) (turn : Turn) : Reply :=
  if turn.messageHash = c.messageHash ∧ (c.conversation = none ∨ c.conversation = some turn.conversation) then
    .existing turn
  else .conflict

/-- The conversation that the request names is the owner's, active, and has no
    active turn. -/
def CreateBody.admissible (c : CreateBody) (next : Handler) : Handler :=
  match c.conversation with
  | none => next
  | some id =>
    read fun s =>
      if !s.conversations.rows.any fun r => r.owner = c.owner && r.id = id && r.status = .active then
        done .notFound
      else read fun s =>
        if s.turns.rows.any fun t => t.conversation = id && t.phase.active then done .busy else next

def createAssistantChatTurn (c : CreateBody) : Handler :=
  if !c.conversation.all isObjectId then done (.refused .invalidIdentifier)
  else if c.message = "" || 16000 < utf8Length c.message || hasUnsafeTextControl c.message then
    done (.refused .invalidMessage)
  else if !isIdempotencyKey c.idempotencyKey then done (.refused .invalidIdempotencyKey)
  else read fun s =>
    match s.turnByKey c.owner c.idempotencyKey with
    | some turn => done (c.replay turn)
    | none => c.admissible <|
      -- an abort is the refusal of the batch: no turn, no first event
      commit (.create c.creation) fun _ => read fun s =>
        match s.turns.rows.find? fun t => t.owner = c.owner && t.id = c.turnId with
        | some turn => done (.created turn)
        | none => read fun s =>
          match s.turnByKey c.owner c.idempotencyKey with
          | some turn => done (c.replay turn)
          | none => c.admissible (done .capacity)

/-! ## Claim and renew -/

def Turn.before (a b : Turn) : Bool := a.createdAt < b.createdAt || (a.createdAt = b.createdAt && a.id ≤ b.id)

/-- What `recoverAssistantChatTurns` selects. -/
def Store.recoverable (s : Store) (now : ℤ) : List Turn :=
  ((s.turns.rows.filter fun t =>
    match t.phase with
    | .pending _ => t.expiresAt ≤ now
    | .processing l => l.expiresAt ≤ now
    | _ => false).insertionSort fun a b => a.before b).take 20

/-- The loop of `recoverAssistantChatTurns`; `draw` gives the ids of the events. -/
def recoverRows (draw : ℕ → String) (now : ℤ) (i : ℕ) (rows : List Turn) (next : Handler) : Handler :=
  match rows with
  | [] => next
  | row :: rows =>
    if row.expiresAt ≤ now then
      terminalizeTurn row .expired "TURN_EXPIRED" (draw i) none now (recoverRows draw now (i + 1) rows next)
    else if row.maxAttempts ≤ row.attemptCount then
      terminalizeTurn row .failed "LEASE_EXPIRED" (draw i) none now (recoverRows draw now (i + 1) rows next)
    else send (.recover row.id now) (recoverRows draw now (i + 1) rows next)

/-- The ids that a claim draws: the token, the event of a missing message and
    those of the recovery. -/
def claimAssistantChatTurn (worker token event : String) (draw : ℕ → String) (now : ℤ) : Handler :=
  if !isWorkerId worker then done (.refused .invalidWorkerId)
  else read fun s => recoverRows draw now 0 (s.recoverable now) <|
    send (.claim worker token now) <| read fun s =>
      match s.claims.lookup token with
      | none => done .null
      | some row => read fun s =>
        match s.messages.rows.find? fun m =>
            m.id = row.userMessage && m.conversation = row.conversation && m.role = .user with
        | none => terminalizeTurn row .failed "USER_MESSAGE_MISSING" event none now (done .null)
        | some message => done (.claimed row message.content)

def renewAssistantChatTurn (id token : String) (now : ℤ) : Handler :=
  if !isObjectId id || !isObjectId token then done (.refused .invalidIdentifier)
  else send (.renew id token now) (done .sent)

/-! ## Append -/

/-- `progressTypes` -/
def EventBody.progress : EventBody → Bool
  | reasoningStarted _ | toolStarted _ _ _ | toolCompleted _ _ _ _ _ | toolFailed _ _ _ _ | retrievalStarted _ _
  | retrievalCompleted _ _ _ _ => true
  | _ => false

/-- The loop of `validateProgressBatch`: the keys so far, and whether each tool
    call and retrieval has ended. -/
def checkProgress : List String → List (String × Bool) → List (String × Bool) → List Draft → Option InputError
  | _, tools, retrievals, [] =>
    if (tools ++ retrievals).all (·.2) then none else some .invalidEventBatch
  | keys, tools, retrievals, d :: drafts =>
    if !isIdempotencyKey d.key || d.key ∈ keys then some .invalidEventIdempotency
    else if !d.body.progress then some .invalidProgressEvent
    else
      let ended (l : List (String × Bool)) (id : String) := l.map fun p => if p.1 = id then (p.1, true) else p
      match d.body with
      | .toolStarted call _ _ =>
        if (tools.lookup call).isSome then some .invalidEventBatch
        else checkProgress (d.key :: keys) (tools ++ [(call, false)]) retrievals drafts
      | .toolCompleted call _ _ _ _ | .toolFailed call _ _ _ =>
        if tools.lookup call ≠ some false then some .invalidEventBatch
        else checkProgress (d.key :: keys) (ended tools call) retrievals drafts
      | .retrievalStarted operation _ =>
        if (retrievals.lookup operation).isSome then some .invalidEventBatch
        else checkProgress (d.key :: keys) tools (retrievals ++ [(operation, false)]) drafts
      | .retrievalCompleted operation _ _ _ =>
        if retrievals.lookup operation ≠ some false then some .invalidEventBatch
        else checkProgress (d.key :: keys) tools (ended retrievals operation) drafts
      | _ => checkProgress (d.key :: keys) tools retrievals drafts

def validateProgressBatch (drafts : List Draft) : Option InputError :=
  if drafts = [] ∨ eventBatchSize < drafts.length then some .invalidEventBatch
  else checkProgress [] [] [] drafts

/-- The turn with the id, when the worker holds its lease. -/
def Store.heldTurn (s : Store) (id token : String) (now : ℤ) : Option Turn :=
  (s.turns.find? id).filter (·.heldBy token now)

def appendAssistantChatEvents (id token : String) (drafts : List Draft) (now : ℤ) : Handler :=
  if !isObjectId id || !isObjectId token then done (.refused .invalidIdentifier)
  else match validateProgressBatch drafts with
  | some e => done (.refused e)
  | none => read fun s =>
    match s.heldTurn id token now with
    | none => done .null
    | some turn => read fun s =>
      let existing := (s.eventsOf turn.id).filter fun e => drafts.any (·.key = e.key)
      if existing ≠ [] then
        -- the drafts are recorded already, each under its key
        if existing.length ≠ drafts.length
            ∨ drafts.any (fun d => !existing.any fun e => e.key = d.key && e.body = d.body) then
          done (.refused .eventIdempotencyConflict)
        else done (.recorded existing)
      else if MAX_ASSISTANT_EVENTS_PER_TURN - MAX_COMPLETION_EVENTS < turn.eventSequence + drafts.length then
        done (.refused .eventBudgetExceeded)
      else read fun s =>
        match AssistantEventSequence.empty.appendAll turn.conversation
            (s.eventsOf turn.id ++ numbered turn.id now turn.eventSequence drafts) with
        | .error e => done (.broken e)
        | .ok _ => send (.append turn.id token turn.eventSequence drafts now) (done .sent)

/-! ## Complete -/

structure CompleteBody where
  id : String
  token : String
  answer : String
  blocks : List ContentBlock
  evidenceIds : List String
  /-- The provenance and the content document pass their checks against the
      turn. -/
  accepts : Turn → Bool
  message : String
  titleJob : String
  eventId : ℕ → String
  now : ℤ

/-- What the request binds to its batch, with the turn it read. -/
def CompleteBody.completion (c : CompleteBody) (turn : Turn) : Completion :=
  { turn := turn.id, conversation := turn.conversation, token := c.token, sequence := turn.eventSequence
    message := c.message, titleJob := c.titleJob, eventId := c.eventId, answer := c.answer, blocks := c.blocks
    evidenceIds := c.evidenceIds, now := c.now }

/-- A turn that is processed has no cancellation requested. -/
def completeAssistantChatTurn (c : CompleteBody) : Handler :=
  if !isObjectId c.id || !isObjectId c.token then done (.refused .invalidIdentifier)
  else read fun s =>
    match s.heldTurn c.id c.token c.now with
    | none => done .null
    | some turn =>
      if c.answer = "" || hasUnsafeTextControl c.answer || maxAnswerBytes < utf8Length c.answer then
        done (.refused .invalidAssistantAnswer)
      else if !c.accepts turn then done (.refused .invalidAgentProvenance)
      else read fun s =>
        match AssistantEventSequence.empty.appendAll turn.conversation
            (s.eventsOf turn.id ++ (c.completion turn).events) with
        | .error e => done (.broken e)
        | .ok _ => send (.complete (c.completion turn)) (done .sent)

/-! ## Fail, defer and cancel -/

/-- `Math.min(120, 30 * 2 ** max(0, attempt_count - 1))` seconds -/
def retryDelayMs (attemptCount : ℕ) : ℤ := min 120 (30 * 2 ^ (attemptCount - 1)) * 1000

def failAssistantChatTurn (id token code event : String) (now : ℤ) : Handler :=
  if !isObjectId id || !isObjectId token then done (.refused .invalidIdentifier)
  else if !isErrorCode code then done (.refused .invalidFailureCode)
  else read fun s =>
    match s.heldTurn id token now with
    | none => done .null
    | some row =>
      if row.expiresAt ≤ now then
        terminalizeTurn row .expired "TURN_EXPIRED" event (some token) now (done .sent)
      else if row.maxAttempts ≤ row.attemptCount then
        terminalizeTurn row .failed code event (some token) now (done .sent)
      else
        send (.retry row.id token code
          (if code = "NO_MODEL_CAPACITY" then "CAPACITY_DEFERRED" else "RETRY_SCHEDULED")
          (now + retryDelayMs row.attemptCount) now) (done .sent)

def deferAssistantChatTurn (id token event : String) (now : ℤ) : Handler :=
  failAssistantChatTurn id token "NO_MODEL_CAPACITY" event now

def cancelOwnerAssistantChatTurn (owner turn event : String) (now : ℤ) : Handler :=
  read fun s =>
    match s.turns.rows.find? fun t => t.owner = owner && t.id = turn with
    | none => done .null
    | some row =>
      match row.phase with
      | .ended .cancelled _ _ => done (.unchanged row)
      | .answered _ _ | .ended _ _ _ => done .null
      | _ => terminalizeTurn row .cancelled "USER_CANCELLED" event none now (done .sent)

/-! ## Requests -/

/-- A request with its body, its clock and the ids it draws. -/
inductive Request where
  | create (c : CreateBody)
  | claim (worker token event : String) (draw : ℕ → String) (now : ℤ)
  | renew (id token : String) (now : ℤ)
  | append (id token : String) (drafts : List Draft) (now : ℤ)
  | complete (c : CompleteBody)
  | fail (id token code event : String) (now : ℤ)
  | defer (id token event : String) (now : ℤ)
  | cancel (owner turn event : String) (now : ℤ)

def Request.program : Request → Handler
  | create c => createAssistantChatTurn c
  | claim worker token event draw now => claimAssistantChatTurn worker token event draw now
  | renew id token now => renewAssistantChatTurn id token now
  | append id token drafts now => appendAssistantChatEvents id token drafts now
  | complete c => completeAssistantChatTurn c
  | fail id token code event now => failAssistantChatTurn id token code event now
  | defer id token event now => deferAssistantChatTurn id token event now
  | cancel owner turn event now => cancelOwnerAssistantChatTurn owner turn event now

abbrev Flight := Program.Flight Store Batch Reply

abbrev World := Logged Store Batch

/-- The requests interleaved. -/
abbrev step : Flight → FlightAction Request → Unit × Flight := Flight.step exec Request.program

/-- No table has a row, and no request is under way. -/
def Flight.initial : Flight := { world := ⟨.empty, []⟩, requests := [] }

/-- The batch that a request is about to send. -/
def Flight.pending (f : Flight) (i : ℕ) : Option Batch :=
  match f.requests[i]? with
  | some (commit b _) => some b
  | _ => none

/-! ## What the batches satisfy -/

/-- The events are within the limits of the contract. -/
def Fits (es : List Event) : Prop :=
  ∀ e ∈ es, e.sequence ≤ MAX_ASSISTANT_EVENTS_PER_TURN ∧ e.body.payloadBytes ≤ MAX_ASSISTANT_EVENT_PAYLOAD_BYTES

/-- What the requests have checked of a batch before they send it. -/
def Formed : Batch → Prop
  | .append turn _ sequence drafts now =>
    (∀ d ∈ drafts, d.body.progress = true) ∧ Fits (numbered turn now sequence drafts)
  | .complete c => Fits c.events
  | .terminalize c => c.outcome ≠ .rejected ∧ Fits [c.terminalEvent]
  | _ => True

/-- A batch that is not sent by a worker that gives up its turn. -/
def Batch.Unpledged : Batch → Prop
  | retry _ _ _ _ _ _ => False
  | terminalize c => c.worker = none
  | _ => True

/-- What the requests have checked that send no such batch. -/
def Plain (b : Batch) : Prop := Formed b ∧ b.Unpledged

theorem fits_of_appendAll {conversation : String} {q : AssistantEventSequence} {es es' : List Event}
    (h : AssistantEventSequence.empty.appendAll conversation (es ++ es') = .ok q) : Fits es' :=
  fun e he => (AssistantEventSequence.appendAll_eq_ok h).2 e (List.mem_append_right _ he)

theorem done_sends {P : Batch → Prop} (reply : Reply) : (done reply : Handler).Sends P := trivial

theorem send_sends {P : Batch → Prop} {b : Batch} {next : Handler} (hb : P b) (hnext : next.Sends P) :
    (send b next).Sends P := by
  refine ⟨hb, fun ok => ?_⟩
  cases ok with
  | false => trivial
  | true => exact hnext

theorem terminalizeTurn_sends {P : Batch → Prop} {row : Turn} {outcome : Outcome} {code event : String}
    {worker : Option String} {now : ℤ} {next : Handler}
    (hb : Fits [(⟨row.id, row.eventSequence, outcome, code, event, worker, now⟩ : Ending).terminalEvent] →
      P (.terminalize ⟨row.id, row.eventSequence, outcome, code, event, worker, now⟩))
    (hnext : next.Sends P) : (terminalizeTurn row outcome code event worker now next).Sends P := by
  unfold terminalizeTurn
  split
  · trivial
  · intro s
    dsimp only
    split
    · trivial
    · next hok => exact send_sends (hb (fits_of_appendAll hok)) hnext

theorem terminalizeTurn_formed {row : Turn} {outcome : Outcome} {code event : String} {worker : Option String}
    {now : ℤ} {next : Handler} (ho : outcome ≠ .rejected) (hnext : next.Sends Formed) :
    (terminalizeTurn row outcome code event worker now next).Sends Formed :=
  terminalizeTurn_sends (fun hfits => ⟨ho, hfits⟩) hnext

theorem terminalizeTurn_plain {row : Turn} {outcome : Outcome} {code event : String} {now : ℤ} {next : Handler}
    (ho : outcome ≠ .rejected) (hnext : next.Sends Plain) :
    (terminalizeTurn row outcome code event none now next).Sends Plain :=
  terminalizeTurn_sends (fun hfits => ⟨⟨ho, hfits⟩, rfl⟩) hnext

theorem recoverRows_sends {draw : ℕ → String} {now : ℤ} {next : Handler} (hnext : next.Sends Plain) (i : ℕ)
    (rows : List Turn) : (recoverRows draw now i rows next).Sends Plain := by
  induction rows generalizing i with
  | nil => exact hnext
  | cons row rows ih =>
    unfold recoverRows
    split
    · exact terminalizeTurn_plain (by simp) (ih _)
    split
    · exact terminalizeTurn_plain (by simp) (ih _)
    · exact send_sends ⟨trivial, trivial⟩ (ih _)

theorem checkProgress_eq_none {keys : List String} {tools retrievals : List (String × Bool)} {drafts : List Draft}
    (h : checkProgress keys tools retrievals drafts = none) : ∀ d ∈ drafts, d.body.progress = true := by
  induction drafts generalizing keys tools retrievals with
  | nil => exact fun d hd => nomatch hd
  | cons d drafts ih =>
    unfold checkProgress at h
    split at h
    · cases h
    split at h
    · cases h
    next hprogress =>
    have hrest : ∀ d' ∈ drafts, d'.body.progress = true := by
      dsimp only at h
      split at h
      · split at h
        · cases h
        · exact ih h
      · split at h
        · cases h
        · exact ih h
      · split at h
        · cases h
        · exact ih h
      · split at h
        · cases h
        · exact ih h
      · split at h
        · cases h
        · exact ih h
      · exact ih h
    intro d' hd'
    rcases List.mem_cons.1 hd' with rfl | hd'
    · simpa using hprogress
    · exact hrest d' hd'

theorem admissible_sends {P : Batch → Prop} (c : CreateBody) {next : Handler} (hnext : next.Sends P) :
    (c.admissible next).Sends P := by
  unfold CreateBody.admissible
  split
  · exact hnext
  · intro s
    dsimp only
    split
    · trivial
    · intro s
      dsimp only
      split
      · trivial
      · exact hnext

theorem create_sends (c : CreateBody) : (createAssistantChatTurn c).Sends Plain := by
  unfold createAssistantChatTurn
  split
  · trivial
  split
  · trivial
  split
  · trivial
  intro s
  dsimp only
  split
  · trivial
  · refine admissible_sends c ⟨⟨trivial, trivial⟩, fun ok s => ?_⟩
    dsimp only
    split
    · trivial
    · intro s
      dsimp only
      split
      · trivial
      · exact admissible_sends c trivial

theorem claim_sends (worker token event : String) (draw : ℕ → String) (now : ℤ) :
    (claimAssistantChatTurn worker token event draw now).Sends Plain := by
  unfold claimAssistantChatTurn
  split
  · trivial
  intro s
  have hclaim : Plain (.claim worker token now) := ⟨trivial, trivial⟩
  refine recoverRows_sends ?_ 0 _
  refine send_sends hclaim ?_
  intro s
  dsimp only
  split
  · trivial
  · intro s
    dsimp only
    split
    · apply terminalizeTurn_plain
      · simp
      · exact done_sends _
    · trivial

theorem append_sends (id token : String) (drafts : List Draft) (now : ℤ) :
    (appendAssistantChatEvents id token drafts now).Sends Plain := by
  unfold appendAssistantChatEvents
  split
  · trivial
  split
  · trivial
  next hvalid =>
  intro s
  dsimp only
  split
  · trivial
  intro s
  dsimp only
  split
  · split <;> trivial
  split
  · trivial
  intro s
  dsimp only
  split
  · trivial
  next hok =>
  refine send_sends ⟨⟨?_, fits_of_appendAll hok⟩, trivial⟩ (done_sends _)
  unfold validateProgressBatch at hvalid
  split at hvalid
  · cases hvalid
  · exact checkProgress_eq_none hvalid

theorem complete_sends (c : CompleteBody) : (completeAssistantChatTurn c).Sends Plain := by
  unfold completeAssistantChatTurn
  split
  · trivial
  intro s
  dsimp only
  split
  · trivial
  split
  · trivial
  split
  · trivial
  intro s
  dsimp only
  split
  · trivial
  next hok => exact send_sends ⟨fits_of_appendAll hok, trivial⟩ (done_sends _)

theorem fail_sends (id token code event : String) (now : ℤ) :
    (failAssistantChatTurn id token code event now).Sends Formed := by
  unfold failAssistantChatTurn
  split
  · trivial
  split
  · trivial
  intro s
  dsimp only
  split
  · trivial
  split
  · exact terminalizeTurn_formed (by simp) (done_sends _)
  split
  · exact terminalizeTurn_formed (by simp) (done_sends _)
  · exact send_sends trivial (done_sends _)

theorem cancel_sends (owner turn event : String) (now : ℤ) :
    (cancelOwnerAssistantChatTurn owner turn event now).Sends Plain := by
  intro s
  dsimp only
  split
  · trivial
  split
  · trivial
  · trivial
  · trivial
  · exact terminalizeTurn_plain (by simp) (done_sends _)

theorem renew_sends (id token : String) (now : ℤ) : (renewAssistantChatTurn id token now).Sends Plain := by
  unfold renewAssistantChatTurn
  split
  · trivial
  · exact send_sends ⟨trivial, trivial⟩ (done_sends _)

/-- Requests of which none fails a turn for its worker. -/
def Request.Plain : Request → Prop
  | fail _ _ _ _ _ | defer _ _ _ _ => False
  | _ => True

theorem plain_sends {request : Request} (h : request.Plain) : request.program.Sends Plain := by
  cases request with
  | create c => exact create_sends c
  | claim worker token event draw now => exact claim_sends worker token event draw now
  | renew id token now => exact renew_sends id token now
  | append id token drafts now => exact append_sends id token drafts now
  | complete c => exact complete_sends c
  | fail => cases h
  | defer => cases h
  | cancel owner turn event now => exact cancel_sends owner turn event now

theorem program_sends (request : Request) : request.program.Sends Formed := by
  cases request with
  | fail id token code event now => exact fail_sends id token code event now
  | defer id token event now => exact fail_sends id token _ event now
  | create | claim | renew | append | complete | cancel =>
    refine Program.Sends.mono (fun b h => h.1) (plain_sends ?_)
    trivial

/-- A batch that is about to be sent has what the requests have checked. -/
theorem pending_sends {P : Batch → Prop} {f : Flight} (hf : f.Sends P) {i : ℕ} {b : Batch}
    (h : f.pending i = some b) : P b := by
  unfold Flight.pending at h
  split at h
  · next b' next hget =>
    cases h
    exact (hf _ (List.mem_of_getElem? hget)).1
  · cases h

end Xauusd.Assistant
