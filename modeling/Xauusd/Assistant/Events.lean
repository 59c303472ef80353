/-
  The event contract of an assistant turn (`assistant-events.ts`).

  * `EventBody`: the type of an event with its payload; only `answer.completed`
    names a message;
  * `parseAssistantEvent`: what an event must satisfy on its own, with the code
    of the error it is refused with;
  * `AssistantEventSequence`, `append`: what the events of a turn must satisfy
    in their order;
  * `appendAll_eq_ok`: accepted events carry the sequences that follow the
    count, and are within the limits.
-/
import Xauusd.Lib.Text

namespace Xauusd.Assistant

def MAX_ASSISTANT_EVENTS_PER_TURN : ℕ := 256
def MAX_ASSISTANT_EVENT_PAYLOAD_BYTES : ℕ := 16384
def MAX_ASSISTANT_ANSWER_DELTA_BYTES : ℕ := 4096
def MAX_ASSISTANT_PRESENTATION_BYTES : ℕ := 65536

/-! ## Events -/

/-- The type of an event, with its payload. -/
inductive EventBody where
  | conversationStarted
  | reasoningStarted (reasoningClass : String)
  | toolStarted (callId toolName toolVersion : String)
  | toolCompleted (callId toolName status resultSha256 : String) (evidenceCount : ℤ)
  | toolFailed (callId toolName status errorCode : String)
  | retrievalStarted (operationId toolName : String)
  | retrievalCompleted (operationId : String) (evidenceCount : ℤ) (sourceMode resultSha256 : String)
  | answerStarted
  | answerDelta (text : String)
  | contentBlock (blockId blockType blockVersion contentSha256 : String)
  | answerCompleted (messageId contentSha256 : String) (evidenceIds : List String)
  | conversationCompleted
  | error (code : String) (retryable : Bool) (recoveryKey : Option String)
  | cancelled (code : String)
  deriving DecidableEq, Repr

/-- The body ends the stream of its turn. -/
def EventBody.terminal : EventBody → Bool
  | conversationCompleted | error _ _ _ | cancelled _ => true
  | _ => false

/-- `message_id` -/
def EventBody.messageId : EventBody → Option String
  | answerCompleted messageId _ _ => some messageId
  | _ => none

/-- `assistant_turn_events`; the protocol is the only one there is. -/
structure Event where
  id : String
  turn : String
  sequence : ℕ
  body : EventBody
  occurredAt : ℤ
  key : String
  deriving DecidableEq, Repr

/-- The codes of `AssistantEventContractError` -/
inductive EventError where
  | invalidEventEnvelope
  | invalidEventSequence
  | invalidEventPayload
  | eventPayloadBudgetExceeded
  | eventCountBudgetExceeded
  | duplicateEventId
  | eventAfterTerminal
  | invalidEventOrder
  | presentationBudgetExceeded
  deriving DecidableEq, Repr

/-! ## Identifiers -/

/-- `/^[first][rest]{0,max}$/`, with at least `min` characters after the first -/
def shape (first rest : Char → Bool) (min max : ℕ) (s : String) : Bool :=
  match s.toList with
  | [] => false
  | c :: cs => first c && cs.all rest && min ≤ cs.length && cs.length ≤ max

/-- `identifier` -/
def isIdentifier : String → Bool :=
  shape Char.isAlphanum (fun c => c.isAlphanum || c ∈ [':', '.', '_', '@', '/', '-']) 0 127

/-- `version` -/
def isVersion : String → Bool :=
  shape Char.isAlpha (fun c => c.isAlphanum || c ∈ ['.', '_', '-']) 0 63

/-- `errorCode` -/
def isErrorCode : String → Bool :=
  shape Char.isUpper (fun c => c.isUpper || c.isDigit || c = '_') 2 63

/-- `[1-9][0-9]*` -/
def isOrdinal (digits : List Char) : Bool := digits.all Char.isDigit && digits.headD '0' ≠ '0'

/-- `/^v[1-9][0-9]*$/` -/
def isToolVersion (s : String) : Bool :=
  match s.toList with
  | 'v' :: digits => isOrdinal digits
  | _ => false

/-- `toolName`: the digits at the end stand after `_v`. -/
def isToolName (s : String) : Bool :=
  let stem := s.toList.rdropWhile Char.isDigit
  isOrdinal (s.toList.drop stem.length) && stem.drop (stem.length - 2) = ['_', 'v']
    && shape Char.isLower (fun c => c.isLower || c.isDigit || c = '_') 1 54
      (String.ofList (stem.take (stem.length - 2)))

/-! ## Payloads -/

def utf8Length (s : String) : ℕ := (s.toList.map Char.utf8Size).sum

/-- The bytes of `JSON.stringify` of a text. -/
def jsonBytes (s : String) : ℕ :=
  2 + (s.toList.map fun c =>
    if c.toNat ∈ [0x22, 0x5C, 8, 9, 10, 12, 13] then 2 else if c.toNat < 0x20 then 6 else c.utf8Size).sum

/-- The bytes of `JSON.stringify` of an object or a list, from those of its parts. -/
def jsonSum (parts : List ℕ) : ℕ := 2 + parts.sum + (parts.length - 1)

/-- The members of a payload, each with the bytes of its value. -/
def EventBody.members : EventBody → List (String × ℕ)
  | conversationStarted | answerStarted | conversationCompleted => []
  | reasoningStarted reasoningClass => [("reasoning_class", jsonBytes reasoningClass)]
  | toolStarted callId toolName toolVersion =>
    [("call_id", jsonBytes callId), ("tool_name", jsonBytes toolName), ("tool_version", jsonBytes toolVersion)]
  | toolCompleted callId toolName status resultSha256 evidenceCount =>
    [("call_id", jsonBytes callId), ("tool_name", jsonBytes toolName), ("status", jsonBytes status),
      ("result_sha256", jsonBytes resultSha256), ("evidence_count", (toString evidenceCount).length)]
  | toolFailed callId toolName status errorCode =>
    [("call_id", jsonBytes callId), ("tool_name", jsonBytes toolName), ("status", jsonBytes status),
      ("error_code", jsonBytes errorCode)]
  | retrievalStarted operationId toolName =>
    [("operation_id", jsonBytes operationId), ("tool_name", jsonBytes toolName)]
  | retrievalCompleted operationId evidenceCount sourceMode resultSha256 =>
    [("operation_id", jsonBytes operationId), ("evidence_count", (toString evidenceCount).length),
      ("source_mode", jsonBytes sourceMode), ("result_sha256", jsonBytes resultSha256)]
  | answerDelta text => [("text", jsonBytes text)]
  | contentBlock blockId blockType blockVersion contentSha256 =>
    [("block_id", jsonBytes blockId), ("block_type", jsonBytes blockType),
      ("block_version", jsonBytes blockVersion), ("content_sha256", jsonBytes contentSha256)]
  | answerCompleted _ contentSha256 evidenceIds =>
    [("content_sha256", jsonBytes contentSha256), ("evidence_ids", jsonSum (evidenceIds.map jsonBytes))]
  | error code retryable recoveryKey =>
    [("code", jsonBytes code), ("retryable", if retryable then 4 else 5),
      ("recovery_key", (recoveryKey.map jsonBytes).getD 4)]
  | cancelled code => [("code", jsonBytes code)]

/-- The bytes of `JSON.stringify(payload)` -/
def EventBody.payloadBytes (b : EventBody) : ℕ := jsonSum (b.members.map fun m => jsonBytes m.1 + 1 + m.2)

/-- The values that a payload of the type may hold. -/
def EventBody.valuesValid : EventBody → Bool
  | conversationStarted | answerStarted | conversationCompleted => true
  | reasoningStarted reasoningClass => reasoningClass ∈ ["SIMPLE", "ANALYTICAL", "TOOL_HEAVY"]
  | toolStarted callId toolName toolVersion =>
    isIdentifier callId && isToolName toolName && isToolVersion toolVersion
  | toolCompleted callId toolName status resultSha256 evidenceCount =>
    isIdentifier callId && isToolName toolName && status = "SUCCEEDED" && Text.isSha256Hex resultSha256
      && 0 ≤ evidenceCount && evidenceCount ≤ 100
  | toolFailed callId toolName status errorCode =>
    isIdentifier callId && isToolName toolName && status ∈ ["FAILED", "REJECTED", "TIMED_OUT"]
      && isErrorCode errorCode
  | retrievalStarted operationId toolName => isIdentifier operationId && isToolName toolName
  | retrievalCompleted operationId evidenceCount sourceMode resultSha256 =>
    isIdentifier operationId && 0 ≤ evidenceCount && evidenceCount ≤ 100 && isVersion sourceMode
      && Text.isSha256Hex resultSha256
  | answerDelta text => text ≠ "" && utf8Length text ≤ MAX_ASSISTANT_ANSWER_DELTA_BYTES
  | contentBlock blockId blockType blockVersion contentSha256 =>
    isIdentifier blockId && isVersion blockType && isVersion blockVersion && Text.isSha256Hex contentSha256
  | answerCompleted _ contentSha256 evidenceIds =>
    Text.isSha256Hex contentSha256 && evidenceIds.length ≤ 20 && evidenceIds.Nodup
      && evidenceIds.all isIdentifier
  | error code _ recoveryKey => isErrorCode code && (recoveryKey.map isIdentifier).getD true
  | cancelled code => isErrorCode code

def require (p : Bool) (e : EventError) : Except EventError Unit := if p then .ok () else .error e

@[simp] theorem require_eq_ok {p : Bool} {e : EventError} {u : Unit} : require p e = .ok u ↔ p = true := by
  cases p <;> simp [require]

def validatePayload (b : EventBody) : Except EventError Unit := do
  require (b.payloadBytes ≤ MAX_ASSISTANT_EVENT_PAYLOAD_BYTES) .eventPayloadBudgetExceeded
  require b.valuesValid .invalidEventPayload

/-- `parseAssistantEvent` of an event of a turn of the conversation; the time is
    one that `toISOString` gave. -/
def parseAssistantEvent (conversation : String) (e : Event) : Except EventError Unit := do
  require (e.body.messageId.all isIdentifier) .invalidEventEnvelope
  require (1 ≤ e.sequence && e.sequence ≤ MAX_ASSISTANT_EVENTS_PER_TURN) .invalidEventSequence
  require (isIdentifier e.id && isIdentifier conversation && isIdentifier e.turn) .invalidEventEnvelope
  validatePayload e.body

/-! ## Sequences -/

inductive StreamPhase where
  | new | open | answering | answered | completed | failed | cancelled
  deriving DecidableEq, Repr

def StreamPhase.terminal : StreamPhase → Bool
  | completed | failed | cancelled => true
  | _ => false

/-- The state of `AssistantEventSequence`; the events are those of one turn, so
    their identity never changes. -/
structure AssistantEventSequence where
  count : ℕ
  phase : StreamPhase
  eventIds : List String
  toolCalls : List (String × String × Bool)
  retrievals : List (String × Bool)
  reasoningStarted : Bool
  presentationBytes : ℕ
  deriving DecidableEq, Repr

namespace AssistantEventSequence

def empty : AssistantEventSequence :=
  { count := 0, phase := .new, eventIds := [], toolCalls := [], retrievals := [], reasoningStarted := false
    presentationBytes := 0 }

/-- A tool call ends. -/
def endTool (q : AssistantEventSequence) (callId toolName : String) : Except EventError AssistantEventSequence :=
  if q.toolCalls.lookup callId = some (toolName, false) then
    .ok { q with
      toolCalls := q.toolCalls.map fun c => if c.1 = callId then (c.1, c.2.1, true) else c }
  else .error .invalidEventOrder

/-- `#advanceOpen` -/
def advanceOpen (q : AssistantEventSequence) : EventBody → Except EventError AssistantEventSequence
  | .reasoningStarted _ =>
    if q.reasoningStarted then .error .invalidEventOrder else .ok { q with reasoningStarted := true }
  | .toolStarted callId toolName _ =>
    if (q.toolCalls.lookup callId).isSome then .error .invalidEventOrder
    else .ok { q with toolCalls := q.toolCalls ++ [(callId, toolName, false)] }
  | .toolCompleted callId toolName _ _ _ | .toolFailed callId toolName _ _ => q.endTool callId toolName
  | .retrievalStarted operationId _ =>
    if (q.retrievals.lookup operationId).isSome then .error .invalidEventOrder
    else .ok { q with retrievals := q.retrievals ++ [(operationId, false)] }
  | .retrievalCompleted operationId _ _ _ =>
    if q.retrievals.lookup operationId = some false then
      .ok { q with
        retrievals := q.retrievals.map fun r => if r.1 = operationId then (r.1, true) else r }
    else .error .invalidEventOrder
  | .answerStarted =>
    if q.toolCalls.any (fun c => !c.2.2) || q.retrievals.any (fun r => !r.2) then .error .invalidEventOrder
    else .ok { q with phase := .answering }
  | _ => .error .invalidEventOrder

/-- `#addPresentationBytes` -/
def addPresentationBytes (q : AssistantEventSequence) (amount : ℕ) : Except EventError AssistantEventSequence :=
  if MAX_ASSISTANT_PRESENTATION_BYTES < q.presentationBytes + amount then .error .presentationBudgetExceeded
  else .ok { q with presentationBytes := q.presentationBytes + amount }

/-- `#advance` -/
def advance (q : AssistantEventSequence) (b : EventBody) : Except EventError AssistantEventSequence :=
  if q.phase.terminal then .error .eventAfterTerminal
  else if q.phase = .new then
    if b = .conversationStarted then .ok { q with phase := .open } else .error .invalidEventOrder
  else
    match b with
    | .conversationStarted => .error .invalidEventOrder
    | .error _ _ _ => if q.phase = .answered then .error .invalidEventOrder else .ok { q with phase := .failed }
    | .cancelled _ => if q.phase = .answered then .error .invalidEventOrder else .ok { q with phase := .cancelled }
    | b =>
      match q.phase with
      | .open => q.advanceOpen b
      | .answering =>
        match b with
        | .answerDelta text => q.addPresentationBytes (utf8Length text)
        | .contentBlock _ _ _ _ => q.addPresentationBytes b.payloadBytes
        | .answerCompleted _ _ _ => .ok { q with phase := .answered }
        | _ => .error .invalidEventOrder
      | .answered => if b = .conversationCompleted then .ok { q with phase := .completed } else .error .invalidEventOrder
      | _ => .error .invalidEventOrder

/-- `append` -/
def append (conversation : String) (q : AssistantEventSequence) (e : Event) :
    Except EventError AssistantEventSequence := do
  parseAssistantEvent conversation e
  require (q.count < MAX_ASSISTANT_EVENTS_PER_TURN) .eventCountBudgetExceeded
  require (e.sequence = q.count + 1) .invalidEventSequence
  require (e.id ∉ q.eventIds) .duplicateEventId
  let next ← q.advance e.body
  return { next with count := q.count + 1, eventIds := q.eventIds ++ [e.id] }

def appendAll (conversation : String) (q : AssistantEventSequence) (es : List Event) :
    Except EventError AssistantEventSequence :=
  es.foldlM (append conversation) q

/-! ## What is accepted -/

variable {conversation : String} {q q' : AssistantEventSequence}

theorem append_eq_ok {e : Event} (h : q.append conversation e = .ok q') :
    parseAssistantEvent conversation e = .ok () ∧ e.sequence = q.count + 1 ∧ q'.count = q.count + 1 := by
  simp only [append, bind, Except.bind, pure, Except.pure] at h
  split at h
  · cases h
  next hparse =>
  split at h
  · cases h
  split at h
  · cases h
  next hsequence =>
  split at h
  · cases h
  split at h
  · cases h
  · cases h
    exact ⟨hparse, of_decide_eq_true (require_eq_ok.1 hsequence), rfl⟩

theorem parse_eq_ok {e : Event} (h : parseAssistantEvent conversation e = .ok ()) :
    e.sequence ≤ MAX_ASSISTANT_EVENTS_PER_TURN ∧
      e.body.payloadBytes ≤ MAX_ASSISTANT_EVENT_PAYLOAD_BYTES := by
  simp only [parseAssistantEvent, validatePayload, bind, Except.bind] at h
  split at h
  · cases h
  split at h
  · cases h
  next hsequence =>
  split at h
  · cases h
  split at h
  · cases h
  next hbytes =>
  have hrange := require_eq_ok.1 hsequence
  rw [Bool.and_eq_true] at hrange
  exact ⟨of_decide_eq_true hrange.2, of_decide_eq_true (require_eq_ok.1 hbytes)⟩

/-- **Accepted events** carry the sequences that follow the count, and are
    within the limits. -/
theorem appendAll_eq_ok {es : List Event} (h : q.appendAll conversation es = .ok q') :
    es.map (·.sequence) = List.range' (q.count + 1) es.length ∧
      ∀ e ∈ es, e.sequence ≤ MAX_ASSISTANT_EVENTS_PER_TURN ∧
        e.body.payloadBytes ≤ MAX_ASSISTANT_EVENT_PAYLOAD_BYTES := by
  induction es generalizing q with
  | nil => exact ⟨rfl, fun e he => nomatch he⟩
  | cons e es ih =>
    rw [appendAll, List.foldlM_cons] at h
    cases hq : q.append conversation e with
    | error err => rw [hq] at h; cases h
    | ok q₁ =>
      rw [hq] at h
      obtain ⟨hparse, hsequence, hcount⟩ := append_eq_ok hq
      obtain ⟨hes, hall⟩ := ih h
      refine ⟨?_, ?_⟩
      · rw [List.map_cons, List.length_cons, List.range'_succ, hes, hsequence, hcount]
      · intro e' he'
        rcases List.mem_cons.1 he' with rfl | he'
        · exact parse_eq_ok hparse
        · exact hall e' he'

end AssistantEventSequence

end Xauusd.Assistant
