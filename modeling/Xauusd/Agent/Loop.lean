/-
  The turn of the Assistant's agent (`assistant/agent.py`): a model is asked, its
  tool calls are executed, and it is asked again, within finite budgets.

  * `Budgets`, `AgentRequest.validate`: what a turn may use, and what it is about;
  * `geminiPayload`: what the model is asked;
  * `RoutedTurn.validate`, `answerTurn`, `toolTurn`: what is done with its reply;
  * `modelTurn`, `modelTurns`, `runBoundedAssistantAgent`: the loop, with what it
    asks outside.

  A context is a dictionary, and the reply of a model a decoded turn.
-/
import Xauusd.Agent.Content

namespace Xauusd.Agent

open Raises (raiseIf orRaise)

def ASSISTANT_AGENT_POLICY_VERSION : String := "assistant-agent-v2"
def MAX_TOOL_ROUNDS_PER_USER_TURN : ℕ := 2
def ASSISTANT_REQUEST_ENVELOPE_RESERVE : ℕ := 4096

/-! ## Budgets -/

/-- `AssistantAgentBudgets`, as configured -/
structure AgentBudgets where
  maxModelTurnsPerUserTurn : ℤ
  maxToolCallsPerUserTurn : ℤ
  maxParallelToolCalls : ℤ
  maxToolResultTokens : ℤ
  maxRetrievedEvidence : ℤ
  maxActiveContextTokens : ℤ
  maxOutputTokens : ℤ

abbrev Within (minimum maximum : ℕ) := { n : ℕ // minimum ≤ n ∧ n ≤ maximum }

/-- Budgets that `_validated_budgets` accepts. -/
structure Budgets where
  maxModelTurnsPerUserTurn : Within 1 3
  maxToolCallsPerUserTurn : Within 0 32
  maxParallelToolCalls : Within 1 16
  maxToolResultTokens : Within 32 32768
  maxRetrievedEvidence : Within 0 100
  maxActiveContextTokens : Within 1024 1000000
  maxOutputTokens : Within 32 32768
  parallel : maxParallelToolCalls.val ≤ maxToolCallsPerUserTurn ∨ maxToolCallsPerUserTurn.val = 0
  output : maxOutputTokens.val < maxActiveContextTokens

/-- `_strict_budget_integer` -/
def strictBudgetInteger (field : String) (minimum maximum : ℕ) (value : ℤ) : Except Raised (Within minimum maximum) :=
  if h : minimum ≤ value.toNat ∧ value.toNat ≤ maximum then
    if 0 ≤ value then .ok ⟨value.toNat, h⟩ else .error (.valueError ("Assistant agent " ++ field ++ " is invalid"))
  else .error (.valueError ("Assistant agent " ++ field ++ " is invalid"))

/-- `_validated_budgets` -/
def validatedBudgets (b : AgentBudgets) : Except Raised Budgets := do
  let turns ← strictBudgetInteger "MAX_MODEL_TURNS_PER_USER_TURN" 1 3 b.maxModelTurnsPerUserTurn
  let calls ← strictBudgetInteger "MAX_TOOL_CALLS_PER_USER_TURN" 0 32 b.maxToolCallsPerUserTurn
  let parallelCalls ← strictBudgetInteger "MAX_PARALLEL_TOOL_CALLS" 1 16 b.maxParallelToolCalls
  let resultTokens ← strictBudgetInteger "MAX_TOOL_RESULT_TOKENS" 32 32768 b.maxToolResultTokens
  let evidence ← strictBudgetInteger "MAX_RETRIEVED_EVIDENCE" 0 100 b.maxRetrievedEvidence
  let context ← strictBudgetInteger "MAX_ACTIVE_CONTEXT_TOKENS" 1024 1000000 b.maxActiveContextTokens
  let outputTokens ← strictBudgetInteger "MAX_OUTPUT_TOKENS" 32 32768 b.maxOutputTokens
  if parallel : parallelCalls.val ≤ calls ∨ calls.val = 0 then
    if output : outputTokens.val < context then
      return ⟨turns, calls, parallelCalls, resultTokens, evidence, context, outputTokens, parallel, output⟩
    else throw (.valueError "Assistant agent output reserves the complete context")
  else throw (.valueError "Assistant agent parallel tool budget exceeds total calls")

/-- `receipt` -/
def Budgets.receipt (b : Budgets) : PyJson := pyDict [
  ("MAX_MODEL_TURNS_PER_USER_TURN", .int b.maxModelTurnsPerUserTurn.val),
  ("MAX_TOOL_CALLS_PER_USER_TURN", .int b.maxToolCallsPerUserTurn.val),
  ("MAX_PARALLEL_TOOL_CALLS", .int b.maxParallelToolCalls.val),
  ("MAX_TOOL_RESULT_TOKENS", .int b.maxToolResultTokens.val),
  ("MAX_RETRIEVED_EVIDENCE", .int b.maxRetrievedEvidence.val),
  ("MAX_ACTIVE_CONTEXT_TOKENS", .int b.maxActiveContextTokens.val),
  ("MAX_OUTPUT_TOKENS", .int b.maxOutputTokens.val)]

/-! ## Requests -/

structure AgentRequest where
  conversationId : PyStr
  userMessageId : PyStr
  actor : Actor
  userText : PyStr
  activeContext : List (PyStr × PyJson)
  retrievalCutoff : PyStr
  systemInstruction : PyStr
  systemInstructionVersion : PyStr

/-- `_IDENTIFIER` -/
def isIdentifier (s : PyStr) : Bool := s.text?.any isActorId

section
variable (P : Python)

/-- `_validated_request`, with the bytes of the context -/
def AgentRequest.validate (q : AgentRequest) : Except Raised (List ℕ) := do
  raiseIf (¬ (isIdentifier q.conversationId && isIdentifier q.userMessageId))
    (.valueError "Assistant agent canonical message identity is invalid")
  let userText := PyStr.strip q.userText
  raiseIf (userText = [] ∨ 16000 < userText.length) (.valueError "Assistant agent user text is invalid")
  let bytes ← orRaise (P.jsonBytes (.dict q.activeContext)) (.valueError "Assistant agent active context is not JSON")
  raiseIf (500000 < bytes.length) (.valueError "Assistant agent active context exceeds the hard bound")
  raiseIf (PyStr.strip q.systemInstruction = [] ∨ 8000 < q.systemInstruction.length ∨
    ¬ isIdentifier q.systemInstructionVersion) (.valueError "Assistant agent system instruction is invalid")
  let _ ← canonicalCutoff P "agent" q.retrievalCutoff
  return bytes

/-- An item of a conversation that the model is shown. -/
def tailItem : PyJson → Except Raised (Option PyJson)
  | .dict item =>
    let role := (item.lookup (PyStr.of "role")).getD .none
    let content := (item.lookup (PyStr.of "content")).getD .none
    match role, content with
    | .list _, _ | .dict _, _ => .error (.other "TypeError")
    | .str role, .str content =>
      if role = PyStr.of "USER" ∨ role = PyStr.of "ASSISTANT" then
        .ok (some (pyDict [("role", .str role), ("content", .str content)]))
      else .ok none
    | _, _ => .ok none
  | _ => .ok none

/-- The first layer with the recent turns. -/
def recentLayer : List PyJson → Option (List (PyStr × PyJson))
  | [] => none
  | .dict layer :: layers =>
    match layer.lookup (PyStr.of "type") with
    | some (.str name) => if name = PyStr.of "RECENT_VERBATIM_TURNS" then some layer else recentLayer layers
    | _ => recentLayer layers
  | _ :: layers => recentLayer layers

/-- `_conversation_tail` -/
def conversationTail (activeContext : List (PyStr × PyJson)) : Except Raised (List PyJson) :=
  match activeContext.lookup (PyStr.of "layers") with
  | some (.list layers) => match recentLayer layers with
    | some layer => match layer.lookup (PyStr.of "items") with
      | some (.list items) => ((items.drop (items.length - 8)).mapM tailItem).map (·.filterMap id)
      | _ => .ok []
    | none => .ok []
  | _ => .ok []

/-- The date of an instant, `YYYY-MM-DD`. -/
def dateText (t : ℤ) : Except Raised String :=
  if 0 ≤ t ∧ t < 3652059 * IsoTime.day then .ok (String.ofList ((IsoTime.iso t).toList.take 10))
  else .error (.other "OverflowError")

/-- `_relative_date_hints` -/
def relativeDateHints (canonical : String) : Except Raised PyJson := do
  let t ← orRaise (P.fromIsoformat (replaceZulu (PyStr.of canonical))).join (.valueError "Invalid isoformat string")
  let today ← dateText (t + 8 * IsoTime.hour)
  let yesterday ← dateText (t + 8 * IsoTime.hour - IsoTime.day)
  return pyDict [("timezone", pyString "Asia/Kuala_Lumpur"), ("today", pyString today),
    ("yesterday", pyString yesterday)]

/-- `_initial_contents` -/
def initialContents (q : AgentRequest) : Except Raised (List PyJson) := do
  let tail ← conversationTail q.activeContext
  let canonical ← canonicalCutoff P "agent" q.retrievalCutoff
  let hints ← relativeDateHints P canonical
  let payload := pyDict [
    ("active_context", .dict q.activeContext), ("conversation_tail", .list tail), ("relative_date_hints", hints),
    ("retrieval_cutoff", pyString canonical), ("current_user_message", .str (PyStr.strip q.userText))]
  raiseIf (¬ payload.finite) .unwritable
  return [pyDict [("role", pyString "user"),
    ("parts", .list [pyDict [("text", .str (payload.dumps P.floatText))]])]]

/-! ## Payloads -/

/-- `_final_answer_json_schema` -/
def finalAnswerJsonSchema (available : List PyStr) (maxCitedEvidence : ℕ) : PyJson :=
  let item := if available = [] then pyDict [("type", pyString "string")]
    else pyDict [("type", pyString "string"), ("enum", .list (available.map .str))]
  let minimum := if available = [] then 0 else 1
  let maximum := if available = [] then 0 else min (min MAX_EVIDENCE_PER_CLAIM maxCitedEvidence) available.length
  let claim := pyDict [
    ("type", pyString "object"), ("additionalProperties", .bool false),
    ("required", .list [pyString "text", pyString "evidence_ids"]),
    ("properties", pyDict [
      ("text", pyDict [("type", pyString "string"), ("description", pyString "One concise, nonempty answer line.")]),
      ("evidence_ids", pyDict [("type", pyString "array"), ("minItems", .int minimum), ("maxItems", .int maximum),
        ("items", item)])])]
  pyDict [
    ("type", pyString "object"), ("additionalProperties", .bool false), ("required", .list [pyString "claims"]),
    ("properties", pyDict [("claims", pyDict [
      ("type", pyString "array"), ("minItems", .int 1), ("maxItems", .int MAX_EVIDENCE_CLAIMS), ("items", claim)])])]

variable {W : Type} {P}

/-- `_gemini_payload` -/
def geminiPayload (q : AgentRequest) (contents : List PyJson) (r : Registry P W) (b : Budgets) (toolsAllowed : Bool)
    (available : List PyStr) : PyJson :=
  let generation := [("candidateCount", .int 1), ("temperature", .int 0), ("maxOutputTokens", .int b.maxOutputTokens.val)]
  let common := fun generation => [
    ("systemInstruction", pyDict [("parts", .list [pyDict [("text", .str (PyStr.strip q.systemInstruction))]])]),
    ("contents", .list contents), ("generationConfig", pyDict generation)]
  if toolsAllowed then
    pyDict (common generation ++ [("tools", r.geminiTools q.actor),
      ("toolConfig", pyDict [("functionCallingConfig", pyDict [("mode", pyString "AUTO")])])])
  else
    pyDict (common (generation ++ [("responseMimeType", pyString "application/json"),
      ("responseJsonSchema", finalAnswerJsonSchema available
        (if b.maxRetrievedEvidence.val = 0 then 1 else b.maxRetrievedEvidence.val))]))

/-- `conservative_assistant_token_estimate` -/
def conservativeTokenEstimate (P : Python) (payload : PyJson) : Except Raised ℕ := do
  let bytes ← orRaise (payload.dumpBytes P.floatText) .unwritable
  return max 1 (bytes.length + ASSISTANT_REQUEST_ENVELOPE_RESERVE)

/-! ## Replies -/

structure ModelTurn where
  content : PyJson
  text : PyStr
  toolCalls : List ToolCall

structure RoutedTurn where
  turn : ModelTurn
  modelVersion : String
  routing : PyJson

def INVALID_MODEL_TURN : ErrorCode := ⟨"INVALID_MODEL_TURN", rfl⟩

/-- The checks of a reply. -/
def RoutedTurn.validate (P : Python) (reply : RoutedTurn) : Except Raised Unit := do
  raiseIf (¬ (Routing.isModelId reply.modelVersion && isDict reply.routing))
    (.contract INVALID_MODEL_TURN "Assistant model route receipt is invalid")
  let bytes ← orRaise (P.jsonBytes reply.routing)
    (.contract INVALID_MODEL_TURN "Assistant model route receipt is not JSON")
  raiseIf (100000 < bytes.length) (.contract INVALID_MODEL_TURN "Assistant model route receipt exceeds its bound")

/-- `_function_response_content`, of as many results as calls -/
def functionResponseContent (calls : List ToolCall) (results : List ToolResult) : PyJson := pyDict [
  ("role", pyString "user"),
  ("parts", .list ((calls.zip results).map fun x => pyDict [("functionResponse", pyDict [
    ("id", .str x.1.callId), ("name", .str x.1.name), ("response", x.2.modelResponse)])]))]

/-! ## The loop -/

/-- What the loop asks outside. -/
inductive Event where
  | invoked (payload : PyJson) (toolsAllowed : Bool) (plannedToolCalls : ℕ)
  | executed (call : BatchCall) (results : List ToolResult)

/-- The variables of the loop; the evidence that is available is also the one
    that was seen. -/
structure LoopState where
  contents : List PyJson
  modelReceipts : List PyJson
  modelVersions : List String
  toolReceipts : List (List PyJson)
  availableEvidenceIds : List PyStr
  presentationEvidence : List PyJson
  seenPresentationEvidence : List PyStr
  toolCallsUsed : ℕ
  toolResultTokensUsed : ℕ
  toolRounds : ℕ

def LoopState.initial (contents : List PyJson) : LoopState := ⟨contents, [], [], [], [], [], [], 0, 0, 0⟩

/-- The state with the receipt of a reply. -/
def LoopState.received (s : LoopState) (reply : RoutedTurn) : LoopState :=
  { s with
    modelVersions := s.modelVersions ++ [reply.modelVersion], modelReceipts := s.modelReceipts ++ [reply.routing] }

/-- What is outside: the model, by the number of the turn, and the tools, by the
    number of the round. -/
structure AgentWorld (W : Type) where
  invokeModel : ℕ → PyJson → ℕ → Except Raised RoutedTurn
  batch : ℕ → BatchWorld W
  onToolResults : ℕ → List ToolResult → Except Raised Unit

/-- The provenance of an answer. -/
structure Provenance where
  conversationId : PyStr
  userMessageId : PyStr
  systemInstructionVersion : PyStr
  systemInstructionSha256 : String
  activeContextSha256 : String
  retrievalCutoff : String
  budgets : Budgets
  modelTurnCount : ℕ
  toolRoundCount : ℕ
  toolCallCount : ℕ
  toolResultTokens : ℕ
  modelVersions : List String
  modelRouting : List PyJson
  toolExecution : List (List PyJson)
  evidenceIds : List PyStr
  evidenceValidation : PyJson

/-- The provenance without its hash. -/
def Provenance.core (p : Provenance) : List (String × PyJson) := [
  ("policy_version", pyString ASSISTANT_AGENT_POLICY_VERSION),
  ("tool_registry_version", pyString ASSISTANT_TOOL_REGISTRY_VERSION),
  ("conversation_id", .str p.conversationId), ("user_message_id", .str p.userMessageId),
  ("system_instruction_version", .str p.systemInstructionVersion),
  ("system_instruction_sha256", pyString p.systemInstructionSha256),
  ("active_context_sha256", pyString p.activeContextSha256), ("retrieval_cutoff", pyString p.retrievalCutoff),
  ("budgets", p.budgets.receipt), ("model_turn_count", .int p.modelTurnCount),
  ("tool_round_count", .int p.toolRoundCount), ("tool_call_count", .int p.toolCallCount),
  ("tool_result_tokens", .int p.toolResultTokens), ("model_versions", .list (p.modelVersions.map pyString)),
  ("model_routing", .list p.modelRouting), ("tool_execution", .list (p.toolExecution.map .list)),
  ("evidence_ids", .list (p.evidenceIds.map .str)), ("evidence_validation", p.evidenceValidation)]

structure AgentResult where
  answer : PyStr
  modelVersion : String
  evidenceIds : List PyStr
  contentDocument : Document
  provenance : Provenance
  runSha256 : String

/-- What the loop computes before its first turn. -/
structure TurnCall (P : Python) (W : Type) where
  request : AgentRequest
  registry : Registry P W
  budgets : Budgets
  canonicalCutoff : String
  contextBytes : List ℕ

namespace TurnCall

variable (t : TurnCall P W)

/-- `max_cited_evidence` -/
def maxCitedEvidence : ℕ := if t.budgets.maxRetrievedEvidence.val = 0 then 1 else t.budgets.maxRetrievedEvidence

/-- `tools_allowed`, in the turn of a number -/
def toolsAllowed (s : LoopState) (n : ℕ) : Bool :=
  t.registry.authorized t.request.actor ≠ [] && decide (s.toolCallsUsed < t.budgets.maxToolCallsPerUserTurn) &&
    decide (n < t.budgets.maxModelTurnsPerUserTurn) && decide (s.toolRounds < MAX_TOOL_ROUNDS_PER_USER_TURN)

/-- `planned_tool_calls` -/
def plannedToolCalls (s : LoopState) (n : ℕ) : ℕ :=
  if t.toolsAllowed s n then
    min (min (t.budgets.maxToolCallsPerUserTurn - s.toolCallsUsed) t.budgets.maxParallelToolCalls)
      (t.registry.authorized t.request.actor).length
  else 0

/-- The payload of a turn. -/
def payload (s : LoopState) (n : ℕ) : PyJson :=
  geminiPayload t.request s.contents t.registry t.budgets (t.toolsAllowed s n) s.availableEvidenceIds

/-- `str(item.get("evidence_id") or "")` -/
def itemEvidence (P : Python) (item : PyJson) : PyStr :=
  match item with
  | .dict members => P.strOr (members.lookup (PyStr.of "evidence_id"))
  | _ => []

/-- The error of a validation, as the loop raises it. -/
def evidenceError : Raised → Raised
  | .evidence _ =>
    .contract ⟨"INVALID_EVIDENCE_ANSWER", rfl⟩ "Assistant final answer failed evidence validation"
  | e => e

/-- The provenance of an answer. -/
def provenance (s : LoopState) (validated : Validated) : Provenance where
  conversationId := t.request.conversationId
  userMessageId := t.request.userMessageId
  systemInstructionVersion := t.request.systemInstructionVersion
  -- the payload, which holds the instruction, was encoded before
  systemInstructionSha256 := (sha256Text (PyStr.strip t.request.systemInstruction)).getD ""
  activeContextSha256 := sha256Bytes t.contextBytes
  retrievalCutoff := t.canonicalCutoff
  budgets := t.budgets
  modelTurnCount := s.modelReceipts.length
  toolRoundCount := s.toolReceipts.length
  toolCallCount := s.toolCallsUsed
  toolResultTokens := s.toolResultTokensUsed
  modelVersions := s.modelVersions
  modelRouting := s.modelReceipts
  toolExecution := s.toolReceipts
  evidenceIds := validated.evidenceIds
  evidenceValidation := validated.receipt P

/-- A turn that calls no tool: its text is the answer. -/
def answerTurn (s : LoopState) (reply : RoutedTurn) : Except Raised AgentResult := do
  raiseIf (reply.turn.text = []) (.contract ⟨"EMPTY_FINAL_ANSWER", rfl⟩ "Assistant final answer is empty")
  let exceeded : Raised := .contract ⟨"OUTPUT_BUDGET_EXCEEDED", rfl⟩ "Assistant final answer exceeds its bound"
  let bytes ← orRaise (PyStr.encode reply.turn.text) .unwritable
  raiseIf (t.budgets.maxOutputTokens.val * 8 < bytes.length) exceeded
  let validated ← (validateAssistantEvidenceModelText P reply.turn.text s.availableEvidenceIds
    t.maxCitedEvidence).mapError evidenceError
  let answerBytes ← orRaise (PyStr.encode validated.answer) .unwritable
  raiseIf (t.budgets.maxOutputTokens.val * 8 < answerBytes.length) exceeded
  let provenance := t.provenance s validated
  let provenanceBytes ← orRaise (P.jsonBytes (pyDict provenance.core)) .unwritable
  let document ← buildAssistantContentDocument P validated.answer
    (s.presentationEvidence.filter fun item => itemEvidence P item ∈ validated.evidenceIds)
    validated.evidenceIds t.canonicalCutoff
  return { answer := validated.answer, modelVersion := reply.modelVersion, evidenceIds := validated.evidenceIds
           contentDocument := document, provenance, runSha256 := sha256Bytes provenanceBytes }

/-- The evidence of a result joins what is available. -/
def joinEvidence (available : List PyStr) (results : List ToolResult) : List PyStr :=
  joinIds available (results.flatMap (·.evidenceIds))

/-- The items of a result that are shown with an answer. -/
def shownItems (result : ToolResult) : List PyJson :=
  match result.outcome with
  | .succeeded (.dict output) =>
    if result.name = PyStr.of NEWS_SEARCH_TOOL_NAME then
      match output.lookup (PyStr.of "items") with
      | some (.list items) => items.filter fun item => match item with
        | .dict _ => true
        | _ => false
      | _ => []
    else []
  | _ => []

/-- An item joins the ones that are shown, unless its evidence is there. -/
def present (P : Python) (shown : List PyJson × List PyStr) (item : PyJson) : List PyJson × List PyStr :=
  let evidence := itemEvidence P item
  if evidence = [] ∨ evidence ∈ shown.2 then shown else (shown.1 ++ [item], shown.2 ++ [evidence])

/-- The call of `execute_batch`. -/
def batchCall (s : LoopState) (n : ℕ) (calls : List ToolCall) : BatchCall where
  calls
  actor := t.request.actor
  retrievalCutoff := t.canonicalCutoff
  maxParallelCalls := t.plannedToolCalls s n
  maxTotalResultTokens := t.budgets.maxToolResultTokens - s.toolResultTokensUsed
  maxRetrievedEvidence := t.budgets.maxRetrievedEvidence - s.availableEvidenceIds.length

/-- The plan of a turn that calls tools, or why it is not executed. -/
def planCalls (s : LoopState) (n : ℕ) (calls : List ToolCall) : Except Raised BatchCall := do
  raiseIf (¬ t.toolsAllowed s n)
    (.contract ⟨"TOOL_CALL_OUTSIDE_BUDGET", rfl⟩ "Gemma requested a tool after function calling was disabled")
  raiseIf (t.plannedToolCalls s n < calls.length ∨ t.budgets.maxToolCallsPerUserTurn.val < s.toolCallsUsed + calls.length)
    (.contract ⟨"TOOL_PLAN_BUDGET_EXCEEDED", rfl⟩ "Gemma tool plan exceeds the finite turn budget")
  raiseIf (t.budgets.maxToolResultTokens.val < s.toolResultTokensUsed + 32)
    (.contract TOOL_RESULT_BUDGET_EXCEEDED "Assistant tool result budget is exhausted")
  return t.batchCall s n calls

/-- The state after a plan is executed. -/
def absorb (s : LoopState) (reply : RoutedTurn) (results : List ToolResult) : Except Raised LoopState := do
  let tokens := s.toolResultTokensUsed + (results.map (·.resultTokens)).sum
  raiseIf (t.budgets.maxToolResultTokens.val < tokens)
    (.contract TOOL_RESULT_BUDGET_EXCEEDED "Assistant tool results exceed the finite turn budget")
  let available := joinEvidence s.availableEvidenceIds results
  let shown := (results.flatMap shownItems).foldl (present P) (s.presentationEvidence, s.seenPresentationEvidence)
  raiseIf (t.budgets.maxRetrievedEvidence.val < available.length)
    (.contract ⟨"EVIDENCE_BUDGET_EXCEEDED", rfl⟩ "Assistant evidence provenance exceeds the finite turn budget")
  return { s with
    availableEvidenceIds := available, presentationEvidence := shown.1, seenPresentationEvidence := shown.2
    toolReceipts := s.toolReceipts ++ [results.map ToolResult.receipt]
    toolCallsUsed := s.toolCallsUsed + reply.turn.toolCalls.length, toolResultTokensUsed := tokens
    toolRounds := s.toolRounds + 1
    contents := s.contents ++ [reply.turn.content, functionResponseContent reply.turn.toolCalls results] }

/-- How a turn of the model ends: the run is over, or goes on. -/
inductive Progress where
  | over (result : Except Raised AgentResult)
  | next (s : LoopState)

/-- The rest of a turn whose reply calls tools. -/
def toolTurn (w : AgentWorld W) (s : LoopState) (n : ℕ) (reply : RoutedTurn) : List Event × Progress :=
  match t.planCalls s n reply.turn.toolCalls with
  | .error e => ([], .over (.error e))
  | .ok call => match t.registry.executeBatch (w.batch s.toolRounds) call with
    | .error (.planRejected message) => ([], .over (.error (.contract ⟨"INVALID_TOOL_PLAN", rfl⟩ message)))
    | .error e => ([], .over (.error e))
    | .ok results => ([.executed call results], match t.absorb s reply results with
      | .error e => .over (.error e)
      | .ok s' => match w.onToolResults s.toolRounds results with
        | .error e => .over (.error e)
        | .ok () => .next s')

/-- One turn of the model. -/
def modelTurn (w : AgentWorld W) (n : ℕ) (s : LoopState) : List Event × Progress :=
  match conservativeTokenEstimate P (t.payload s n) with
  | .error e => ([], .over (.error e))
  | .ok estimate =>
    if t.budgets.maxActiveContextTokens.val < estimate + t.budgets.maxOutputTokens then
      ([], .over (.error (.contract ⟨"ACTIVE_CONTEXT_BUDGET_EXCEEDED", rfl⟩
        "Assistant active context cannot preserve the configured reserves")))
    else
      let invoked := Event.invoked (t.payload s n) (t.toolsAllowed s n) (t.plannedToolCalls s n)
      match w.invokeModel n (t.payload s n) (t.plannedToolCalls s n) with
      | .error e => ([invoked], .over (.error e))
      | .ok reply => match reply.validate P with
        | .error e => ([invoked], .over (.error e))
        | .ok () =>
          if reply.turn.toolCalls = [] then ([invoked], .over (t.answerTurn (s.received reply) reply))
          else
            let rest := t.toolTurn w (s.received reply) n reply
            (invoked :: rest.1, rest.2)

/-- The turns from a number on. -/
def modelTurns (w : AgentWorld W) : ℕ → ℕ → LoopState → List Event × Except Raised AgentResult
  | 0, _, _ => ([], .error (.contract ⟨"MODEL_TURN_BUDGET_EXCEEDED", rfl⟩
      "Assistant exhausted its finite model-turn budget without a final answer"))
  | remaining + 1, n, s => match t.modelTurn w n s with
    | (events, .over result) => (events, result)
    | (events, .next s') =>
      let rest := modelTurns w remaining (n + 1) s'
      (events ++ rest.1, rest.2)

end TurnCall

/-- What `run_bounded_assistant_agent` computes before the loop, with the first
    contents. -/
def startTurn (q : AgentRequest) (r : Registry P W) (budgets : AgentBudgets) :
    Except Raised (TurnCall P W × List PyJson) := do
  let contextBytes ← q.validate P
  let budgets ← validatedBudgets budgets
  let cutoff ← canonicalCutoff P "agent" q.retrievalCutoff
  let contents ← initialContents P q
  q.actor.validate
  return (⟨q, r, budgets, cutoff, contextBytes⟩, contents)

/-- `run_bounded_assistant_agent`, with what it asks outside -/
def runBoundedAssistantAgent (q : AgentRequest) (r : Registry P W) (budgets : AgentBudgets) (w : AgentWorld W) :
    List Event × Except Raised AgentResult :=
  match startTurn q r budgets with
  | .error e => ([], .error e)
  | .ok (t, contents) => t.modelTurns w t.budgets.maxModelTurnsPerUserTurn 1 (.initial contents)

end

end Xauusd.Agent
