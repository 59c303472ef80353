/-
  The Assistant's tools (`assistant/tools.py`): what is registered, and how a
  plan of calls is executed.

  * `Definition`, `Registry`: the tools, and the set of them that
    `AssistantToolRegistry` accepts;
  * `toolResult`: the result of a call, with its evidence and provenance;
  * `Registry.screen`: the calls that are rejected before they run;
  * `prepare`: the budgets of those that run;
  * `Registry.executeBatch`: `execute_batch`.

  What happens outside while a call runs is a value of a type `W`.  The values
  that adapters return are JSON, and timeouts are rational numbers of seconds.
-/
import Xauusd.Agent.Schema
import Xauusd.Lib.Await
import Xauusd.Lib.IsoTime
import Xauusd.Lib.Recall
import Xauusd.Lib.Shares

namespace Xauusd.Agent

open Raises (raiseIf orRaise)
open Routing (alphanumeric identifier)

def ASSISTANT_TOOL_REGISTRY_VERSION : String := "assistant-tool-registry-v1"
def NEWS_SEARCH_TOOL_NAME : String := "search_news_v1"
def NEWS_SEARCH_TOOL_VERSION : String := "v1"
def MAX_ASSISTANT_TOOL_DEFINITIONS : ℕ := 16
def MAX_ASSISTANT_TOOL_CALLS_PER_ROUND : ℕ := 16
def MAX_ASSISTANT_TOOL_ARGUMENT_BYTES : ℕ := 8192
def MAX_ASSISTANT_TOOL_SCHEMA_BYTES : ℕ := 32768
def MAX_ASSISTANT_TOOL_TIMEOUT_SECONDS : ℚ := 30
def MAX_ASSISTANT_TOOL_RESULT_TOKENS : ℕ := 32768

/-! ## Errors -/

/-- `_ERROR_CODE` -/
def isErrorCode (s : String) : Bool :=
  match s.toList with
  | [] => false
  | c :: cs => ('A' ≤ c && c ≤ 'Z') && cs.all (fun c => ('A' ≤ c && c ≤ 'Z') || ('0' ≤ c && c ≤ '9') || c = '_') &&
      decide (2 ≤ cs.length) && decide (cs.length ≤ 63)

/-- A code that an error can carry. -/
abbrev ErrorCode := { s : String // isErrorCode s = true }

def TOOL_TIMEOUT : ErrorCode := ⟨"TOOL_TIMEOUT", rfl⟩
def TOOL_RESULT_BUDGET_EXCEEDED : ErrorCode := ⟨"TOOL_RESULT_BUDGET_EXCEEDED", rfl⟩

/-- What a call raises. -/
inductive Raised where
  /-- `AssistantAgentContractError` -/
  | contract (code : ErrorCode) (message : String)
  /-- `AssistantToolPlanRejected` -/
  | planRejected (message : String)
  /-- `AssistantEvidenceValidationError` -/
  | evidence (message : String)
  /-- `AssistantContentContractError` -/
  | content (message : String)
  | valueError (message : String)
  /-- a `ValueError` of `_validate_json_value` -/
  | invalidValue
  /-- a `ValueError` of `json.dumps` or of `encode` -/
  | unwritable
  /-- `AssistantToolAdapterError` -/
  | adapter (code : ErrorCode)
  /-- an error of the route -/
  | routing (error : Routing.Raised)
  /-- any other exception -/
  | other (name : String)

/-- `isinstance(error, ValueError)` -/
def Raised.isValueError : Raised → Bool
  | contract .. | planRejected _ | evidence _ | content _ | valueError _ | invalidValue | unwritable => true
  | routing (.valueError _) => true
  | _ => false

def Fault.raised : Fault → Raised
  | value => .invalidValue
  | overflow => .other "OverflowError"

/-! ## Texts -/

/-- `_TOOL_NAME` -/
def isToolName (s : String) : Bool :=
  let backwards := s.toList.reverse
  let digits := backwards.takeWhile Char.isDigit
  match backwards.dropWhile Char.isDigit with
  | 'v' :: '_' :: rest => digits.getLast?.any (· ≠ '0') && match rest.reverse with
    | [] => false
    | c :: cs => ('a' ≤ c && c ≤ 'z') && cs.all (fun c => ('a' ≤ c && c ≤ 'z') || ('0' ≤ c && c ≤ '9') || c = '_') &&
        decide (1 ≤ cs.length) && decide (cs.length ≤ 54)
  | _ => false

/-- `_TOOL_VERSION` -/
def isToolVersion (s : String) : Bool :=
  match s.toList with
  | 'v' :: c :: cs => ('1' ≤ c && c ≤ '9') && cs.all Char.isDigit
  | _ => false

/-- `_CALL_ID` -/
def isCallId : String → Bool := identifier ['.', '_', ':', '-'] 127

/-- `_ACTOR_ID` -/
def isActorId : String → Bool := identifier ['.', '_', ':', '@', '/', '-'] 127

/-- `value.replace("Z", "+00:00")` -/
def replaceZulu (s : PyStr) : PyStr := s.flatMap fun c => if c = .char 'Z' then PyStr.of "+00:00" else [c]

/-- `value.astimezone(UTC).isoformat(timespec="milliseconds").replace("+00:00", "Z")` -/
def canonicalInstant (t : ℤ) : Except Raised String :=
  if 0 ≤ t ∧ t < 3652059 * IsoTime.day then .ok (IsoTime.isoMillis t) else .error (.other "OverflowError")

/-- `_canonical_cutoff`, of the tools or of the agent -/
def canonicalCutoff (P : Python) (owner : String) (value : PyStr) : Except Raised String :=
  match P.fromIsoformat (replaceZulu (PyStr.strip value)) with
  | none => .error (.valueError ("Assistant " ++ owner ++ " retrieval cutoff is invalid"))
  | some none => .error (.valueError ("Assistant " ++ owner ++ " retrieval cutoff must be timezone-aware"))
  | some (some t) => canonicalInstant t

/-! ## Tools -/

/-- `AssistantToolCapability` -/
inductive Capability where
  | newsRetrieval
  | marketDataRead
  | calendarRead
  deriving DecidableEq, Repr

/-- `AssistantToolStatus` -/
inductive ToolStatus where
  | succeeded
  | failed
  | rejected
  | timedOut
  deriving DecidableEq, Repr

def ToolStatus.value : ToolStatus → String
  | succeeded => "SUCCEEDED"
  | failed => "FAILED"
  | rejected => "REJECTED"
  | timedOut => "TIMED_OUT"

structure Actor where
  actorId : String
  workId : String
  allowedCapabilities : List Capability
  deriving DecidableEq, Repr

/-- `_validate_actor` -/
def Actor.validate (actor : Actor) : Except Raised Unit :=
  raiseIf (¬ (isActorId actor.actorId && isActorId actor.workId))
    (.valueError "Assistant tool actor identity is invalid")

/-- `assistant_tool_actor_fingerprint` -/
def Actor.fingerprint (actor : Actor) : String :=
  String.ofList ((sha256 (ASSISTANT_TOOL_REGISTRY_VERSION ++ ":" ++ actor.actorId ++ ":" ++ actor.workId)).toList.take 16)

structure ToolCall where
  callId : PyStr
  name : PyStr
  arguments : PyJson

/-- `AssistantToolExecutionContext`, whose clock is outside -/
structure Context where
  actor : Actor
  retrievalCutoff : String
  deadlineMonotonic : ℚ
  resultTokenBudget : ℕ
  maxRetrievedEvidence : ℕ

/-- `AssistantToolDefinition` -/
structure Definition (W : Type) where
  name : String
  version : String
  description : String
  capability : Capability
  inputSchema : Schema
  outputSchema : Schema
  timeoutSeconds : ℚ
  maxResultTokens : ℕ
  provenanceFields : List String
  executor : W → PyJson → Context → Except Raised PyJson

section
variable {W : Type} (P : Python)

/-- `_validate_definition` -/
def Definition.valid (d : Definition W) : Bool :=
  isToolName d.name && isToolVersion d.version &&
    decide (("_" ++ d.version).toList <:+ d.name.toList) &&
    decide (1 ≤ Text.len (Text.strip d.description) ∧ Text.len (Text.strip d.description) ≤ 500) &&
    decide (1 / 100 ≤ d.timeoutSeconds ∧ d.timeoutSeconds ≤ MAX_ASSISTANT_TOOL_TIMEOUT_SECONDS) &&
    decide (32 ≤ d.maxResultTokens ∧ d.maxResultTokens ≤ MAX_ASSISTANT_TOOL_RESULT_TOKENS) &&
    decide (d.provenanceFields.Nodup) && d.provenanceFields.all isFieldName &&
    d.inputSchema.valid P.compiles && d.outputSchema.valid P.compiles &&
    (P.jsonBytes d.inputSchema.json).any (fun b => decide (b.length ≤ MAX_ASSISTANT_TOOL_SCHEMA_BYTES)) &&
    (P.jsonBytes d.outputSchema.json).any (fun b => decide (b.length ≤ MAX_ASSISTANT_TOOL_SCHEMA_BYTES))

/-- The tools of an `AssistantToolRegistry`. -/
structure Registry (W : Type) where
  definitions : List (Definition W)
  count : 1 ≤ definitions.length ∧ definitions.length ≤ MAX_ASSISTANT_TOOL_DEFINITIONS
  valid : ∀ d ∈ definitions, d.valid P = true
  unique : (definitions.map (·.name)).Nodup

/-- `AssistantToolRegistry.__init__`, none when it raises -/
def Registry.ofDefinitions (definitions : List (Definition W)) : Option (Registry P W) :=
  if count : 1 ≤ definitions.length ∧ definitions.length ≤ MAX_ASSISTANT_TOOL_DEFINITIONS then
    if valid : ∀ d ∈ definitions, d.valid P = true then
      if unique : (definitions.map (·.name)).Nodup then some ⟨definitions, count, valid, unique⟩
      else none
    else none
  else none

variable {P}

/-- `_by_name.get(name)` -/
def Registry.byName (r : Registry P W) (name : PyStr) : Option (Definition W) :=
  r.definitions.find? (PyStr.of ·.name = name)

/-- `_authorized_definitions`, of a valid actor -/
def Registry.authorized (r : Registry P W) (actor : Actor) : List (Definition W) :=
  r.definitions.filter (·.capability ∈ actor.allowedCapabilities)

/-- `gemini_tools`, of a valid actor -/
def Registry.geminiTools (r : Registry P W) (actor : Actor) : PyJson :=
  if r.authorized actor = [] then .list []
  else .list [pyDict [("functionDeclarations", .list ((r.authorized actor).map fun d => pyDict [
    ("name", pyString d.name), ("description", pyString d.description),
    ("parametersJsonSchema", d.inputSchema.json)]))]]

end

/-! ## Results -/

/-- How a call ended: with an output, or with the code of an error. -/
inductive Outcome where
  | succeeded (output : PyJson)
  | failed (code : ErrorCode)
  | rejected (code : ErrorCode)
  | timedOut (code : ErrorCode)

namespace Outcome

def status : Outcome → ToolStatus
  | succeeded _ => .succeeded
  | failed _ => .failed
  | rejected _ => .rejected
  | timedOut _ => .timedOut

def output : Outcome → Option PyJson
  | succeeded output => some output
  | _ => none

def errorCode : Outcome → Option String
  | succeeded _ => none
  | failed code | rejected code | timedOut code => some code.val

end Outcome

/-- `AssistantToolResult` -/
structure ToolResult where
  callId : PyStr
  name : PyStr
  toolVersion : Option String
  outcome : Outcome
  resultTokens : ℕ
  resultSha256 : String
  evidenceIds : List PyStr
  provenance : List (PyStr × PyJson)
  startedAt : String
  completedAt : String

def optionalString (s : Option String) : PyJson := (s.map pyString).getD .none

/-- `model_response`, which is also what `result_sha256` is of -/
def response (outcome : Outcome) (toolVersion : Option String) : PyJson :=
  pyDict [("status", pyString outcome.status.value), ("tool_version", optionalString toolVersion),
    match outcome.output with
    | some output => ("result", output)
    | none => ("error", pyDict [("code", optionalString outcome.errorCode)])]

def ToolResult.modelResponse (r : ToolResult) : PyJson := response r.outcome r.toolVersion

/-- `receipt` -/
def ToolResult.receipt (r : ToolResult) : PyJson := pyDict [
  ("call_id", .str r.callId), ("name", .str r.name), ("tool_version", optionalString r.toolVersion),
  ("status", pyString r.outcome.status.value), ("error_code", optionalString r.outcome.errorCode),
  ("result_tokens", .int r.resultTokens), ("result_sha256", pyString r.resultSha256),
  ("evidence_ids", .list (r.evidenceIds.map .str)), ("provenance", .dict r.provenance),
  ("started_at", pyString r.startedAt), ("completed_at", pyString r.completedAt)]

section
variable {W : Type} (P : Python)

/-- `output["provenance"]`, when it is a dictionary -/
def provenanceOf (output : PyJson) : Except Raised (Option (List (PyStr × PyJson))) :=
  match output.get "provenance" with
  | .ok (some (.dict raw)) => .ok (some raw)
  | .ok _ => .ok none
  | .error name => .error (.other name)

/-- `isinstance(value, dict)` -/
def isDict : PyJson → Bool
  | .dict _ => true
  | _ => false

/-- A text among the evidence ids of an output. -/
def evidenceText : PyJson → Option PyStr
  | .str s => if 1 ≤ s.length ∧ s.length ≤ 128 then some s else none
  | _ => none

/-- The evidence that a provenance names. -/
def evidenceIdsIn (raw : List (PyStr × PyJson)) : Except Raised (List PyStr) :=
  let invalid := Except.error (.valueError "Assistant tool evidence provenance is invalid")
  match raw.lookup (PyStr.of "canonical_evidence_ids") with
  | none | some .none => .ok []
  | some (.list items) =>
    if 100 < items.length then invalid
    else match items.mapM evidenceText with
      | some ids => .ok ids.eraseDups
      | none => invalid
  | some _ => invalid

/-- `_evidence_ids`, of an output -/
def evidenceIdsOf (output : PyJson) : Except Raised (List PyStr) := do
  match ← provenanceOf output with
  | none => return []
  | some raw => evidenceIdsIn raw

/-- What `_public_provenance` starts from. -/
def baseProvenance (actor : Actor) : List (PyStr × PyJson) :=
  [(PyStr.of "registry_version", pyString ASSISTANT_TOOL_REGISTRY_VERSION),
    (PyStr.of "actor_fingerprint", pyString actor.fingerprint)]

/-- The fields of a provenance that a tool makes public. -/
def publicFields (fields : List String) (raw result : List (PyStr × PyJson)) : List (PyStr × PyJson) :=
  fields.foldl (fun result field => match raw.lookup (PyStr.of field) with
    | some v => result.assign (PyStr.of field) v
    | none => result) result

/-- `_public_provenance`, of an output -/
def publicProvenance (d : Definition W) (output : PyJson) (actor : Actor) : Except Raised (List (PyStr × PyJson)) := do
  match ← provenanceOf output with
  | none => return baseProvenance actor
  | some raw =>
    let result := publicFields d.provenanceFields raw (baseProvenance actor)
    let bytes ← orRaise (P.jsonBytes (.dict result)) .unwritable
    raiseIf (8192 < bytes.length) (.valueError "Assistant tool provenance exceeds the bound")
    return result

/-- `_result_token_estimate` -/
def resultTokenEstimate (v : PyJson) : Except Raised ℕ := do
  let bytes ← orRaise (P.jsonBytes v) .unwritable
  return max 1 bytes.length

/-- `_tool_result`, of a call that succeeds -/
def toolResult (call : ToolCall) (d : Definition W) (actor : Actor) (output : PyJson) (startedAt completedAt : String) :
    Except Raised ToolResult := do
  let resultTokens ← resultTokenEstimate P output
  let evidenceIds ← evidenceIdsOf output
  let provenance ← publicProvenance P d output actor
  let bytes ← orRaise (P.jsonBytes (response (.succeeded output) (some d.version))) .unwritable
  return { callId := call.callId, name := call.name, toolVersion := some d.version, outcome := .succeeded output
           resultTokens, resultSha256 := sha256Bytes bytes, evidenceIds, provenance, startedAt, completedAt }

/-- `_tool_result`, of a call that does not: its response can be written. -/
def toolFailure (call : ToolCall) (d : Option (Definition W)) (actor : Actor) (outcome : Outcome)
    (startedAt completedAt : String) : ToolResult where
  callId := call.callId
  name := call.name
  toolVersion := d.map (·.version)
  outcome
  resultTokens := 0
  resultSha256 := sha256Bytes ((P.jsonBytes (response outcome (d.map (·.version)))).getD [])
  evidenceIds := []
  provenance := baseProvenance actor
  startedAt
  completedAt

/-! ## Plans -/

/-- `_validate_call` -/
def ToolCall.validate (call : ToolCall) : Except Raised Unit := do
  raiseIf (¬ (call.callId.text?.any isCallId && call.name.text?.any isToolName))
    (.planRejected "Assistant tool call identity is invalid")
  raiseIf (¬ isDict call.arguments) (.planRejected "Assistant tool arguments must be an object")
  let bytes ← orRaise (P.jsonBytes call.arguments) .unwritable
  raiseIf (MAX_ASSISTANT_TOOL_ARGUMENT_BYTES < bytes.length)
    (.planRejected "Assistant tool arguments exceed the bound")

variable {P}

/-- The tool of a call that may run, or the result of one that is rejected. -/
def Registry.screen (r : Registry P W) (actor : Actor) (timestamp : String) (call : ToolCall) :
    Except Raised (ToolResult ⊕ Definition W) :=
  match r.byName call.name with
  | none => .ok (.inl (toolFailure (W := W) P call none actor (.rejected ⟨"UNKNOWN_TOOL", rfl⟩) timestamp timestamp))
  | some d =>
    if d.capability ∉ actor.allowedCapabilities then
      .ok (.inl (toolFailure P call (some d) actor (.rejected ⟨"TOOL_NOT_AUTHORIZED", rfl⟩) timestamp timestamp))
    else match validateJsonValue P call.arguments d.inputSchema with
      | .ok () => .ok (.inr d)
      | .error .value =>
        .ok (.inl (toolFailure P call (some d) actor (.rejected ⟨"INVALID_TOOL_ARGUMENTS", rfl⟩) timestamp timestamp))
      | .error .overflow => .error (Fault.raised .overflow)

/-- A call that runs, with its budgets. -/
structure Prepared (W : Type) where
  index : ℕ
  call : ToolCall
  definition : Definition W
  resultBudget : ℕ
  evidenceBudget : ℕ

/-- The budgets of the calls that run: the result tokens are divided among them,
    the evidence among all calls of news tools. -/
def prepare (maxTotalResultTokens maxRetrievedEvidence : ℕ) (newsIndexes : List ℕ)
    (candidates : List (ℕ × ToolCall × Definition W)) : List (Prepared W) :=
  candidates.zipIdx.map fun c =>
    { index := c.1.1, call := c.1.2.1, definition := c.1.2.2
      resultBudget := min c.1.2.2.maxResultTokens (Shares.share maxTotalResultTokens candidates.length c.2)
      evidenceBudget :=
        if c.1.1 ∈ newsIndexes then
          Shares.share maxRetrievedEvidence newsIndexes.length (newsIndexes.idxOf c.1.1)
        else 0 }

/-! ## Execution -/

/-- What happens outside while a plan is executed; calls go by their index. -/
structure BatchWorld (W : Type) where
  started : ℚ
  timestamp : String
  world : ℕ → W
  startedAt : ℕ → String
  completedAt : ℕ → String
  expiredAt : ℕ → String
  waiter : Await.Waiter ℕ ℚ

def BatchWorld.deadline (b : BatchWorld W) (p : Prepared W) : ℚ := b.started + p.definition.timeoutSeconds

/-- The `AssistantToolExecutionContext` of a call. -/
def Prepared.context (actor : Actor) (cutoff : String) (b : BatchWorld W) (p : Prepared W) : Context where
  actor
  retrievalCutoff := cutoff
  deadlineMonotonic := b.deadline p
  resultTokenBudget := p.resultBudget
  maxRetrievedEvidence := p.evidenceBudget

/-- The `try` of `execute_one`. -/
def Prepared.attempt (P : Python) (actor : Actor) (cutoff : String) (b : BatchWorld W) (p : Prepared W) :
    Except Raised ToolResult := do
  let output ← p.definition.executor (b.world p.index) p.call.arguments (p.context actor cutoff b)
  (validateJsonValue P output p.definition.outputSchema).mapError Fault.raised
  let tokens ← resultTokenEstimate P output
  raiseIf (p.resultBudget < tokens) (.adapter TOOL_RESULT_BUDGET_EXCEEDED)
  toolResult P p.call p.definition actor output (b.startedAt p.index) (b.completedAt p.index)

/-- The code that `execute_one` gives to an error. -/
def Raised.code (e : Raised) : ErrorCode :=
  match e with
  | .adapter code => code
  | e => if e.isValueError then ⟨"INVALID_TOOL_RESULT", rfl⟩ else ⟨"TOOL_EXECUTION_FAILED", rfl⟩

/-- `execute_one` -/
def executeOne (P : Python) (actor : Actor) (cutoff : String) (b : BatchWorld W) (p : Prepared W) : ToolResult :=
  match p.attempt P actor cutoff b with
  | .ok result => result
  | .error e =>
    toolFailure P p.call (some p.definition) actor
      (if e.code.val = "TOOL_TIMEOUT" then .timedOut e.code else .failed e.code)
      (b.startedAt p.index) (b.completedAt p.index)

/-- The result of a call that is given up. -/
def expiredResult (P : Python) (actor : Actor) (b : BatchWorld W) (p : Prepared W) : ToolResult :=
  toolFailure P p.call (some p.definition) actor (.timedOut TOOL_TIMEOUT) b.timestamp (b.expiredAt p.index)

/-- The arguments of `execute_batch`. -/
structure BatchCall where
  calls : List ToolCall
  actor : Actor
  retrievalCutoff : String
  maxParallelCalls : ℕ
  maxTotalResultTokens : ℕ
  maxRetrievedEvidence : ℕ

/-- `_bounded_integer` -/
def boundedInteger (field : String) (minimum maximum value : ℕ) : Except Raised Unit :=
  raiseIf (¬ (minimum ≤ value ∧ value ≤ maximum)) (.valueError ("Assistant tool " ++ field ++ " is invalid"))

/-- The checks of `execute_batch` before any call is looked at. -/
def BatchCall.validate (P : Python) (c : BatchCall) : Except Raised String := do
  c.actor.validate
  let cutoff ← canonicalCutoff P "tool" (PyStr.of c.retrievalCutoff)
  boundedInteger "max_parallel_calls" 1 MAX_ASSISTANT_TOOL_CALLS_PER_ROUND c.maxParallelCalls
  boundedInteger "max_total_result_tokens" 32 MAX_ASSISTANT_TOOL_RESULT_TOKENS c.maxTotalResultTokens
  boundedInteger "max_retrieved_evidence" 0 100 c.maxRetrievedEvidence
  raiseIf (c.calls = [] ∨ MAX_ASSISTANT_TOOL_CALLS_PER_ROUND < c.calls.length)
    (.planRejected "Assistant tool plan size is invalid")
  raiseIf (c.maxParallelCalls < c.calls.length) (.planRejected "Assistant tool plan exceeds parallel budget")
  c.calls.forM (ToolCall.validate P)
  raiseIf (¬ (c.calls.map (·.callId)).Nodup) (.planRejected "Assistant tool call ids must be unique")
  return cutoff

/-- The calls with the tools that they name, or their results. -/
def Registry.screenAll (r : Registry P W) (actor : Actor) (timestamp : String) (calls : List ToolCall) :
    Except Raised (List (ℕ × ToolCall × (ToolResult ⊕ Definition W))) :=
  calls.zipIdx.mapM fun c => do
    let screened ← r.screen actor timestamp c.1
    return (c.2, c.1, screened)

def rejectedOf (screened : List (ℕ × ToolCall × (ToolResult ⊕ Definition W))) : List (ℕ × ToolResult) :=
  screened.filterMap fun c => match c.2.2 with
    | .inl result => some (c.1, result)
    | .inr _ => none

/-- `valid_candidates` -/
def candidatesOf (screened : List (ℕ × ToolCall × (ToolResult ⊕ Definition W))) : List (ℕ × ToolCall × Definition W) :=
  screened.filterMap fun c => match c.2.2 with
    | .inl _ => none
    | .inr d => some (c.1, c.2.1, d)

/-- `news_indexes` -/
def Registry.newsIndexes (r : Registry P W) (calls : List ToolCall) : List ℕ :=
  (calls.zipIdx.filter fun c => (r.byName c.1.name).any (·.capability = .newsRetrieval)).map (·.2)

/-- The calls of a plan that run. -/
def Registry.prepared (r : Registry P W) (c : BatchCall)
    (screened : List (ℕ × ToolCall × (ToolResult ⊕ Definition W))) : List (Prepared W) :=
  prepare c.maxTotalResultTokens c.maxRetrievedEvidence (r.newsIndexes c.calls) (candidatesOf screened)

/-- `execute_batch` -/
def Registry.executeBatch (r : Registry P W) (b : BatchWorld W) (c : BatchCall) : Except Raised (List ToolResult) := do
  let cutoff ← c.validate P
  let screened ← r.screenAll c.actor b.timestamp c.calls
  let prepared := r.prepared c screened
  let results := rejectedOf screened ++ Await.collect b.waiter (·.index) b.deadline
    (executeOne P c.actor cutoff b) (expiredResult P c.actor b) prepared.length prepared
  return (List.range c.calls.length).filterMap (results.lookup ·)

end

end Xauusd.Agent
