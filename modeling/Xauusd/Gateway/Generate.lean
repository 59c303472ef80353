/-
  The metered boundary of model requests: `GeminiModelGateway` in
  `ai/model_gateway.py`.

  A gateway rotates over a pool of keys. Each attempt is reserved under the
  limits of the gateway and of the accountant, sent, decoded and accounted; the
  handlers of a failed attempt extract its evidence from what the provider sent.

  * `Gateway.reserve`: the two limits and the accountant, under one lock;
  * `decodeEvidence`, `httpFailureEvidence`: what the handlers keep of a failed
    attempt, and the exceptions they raise themselves;
  * `Call.settle`: the handlers, and how they leave the attempt;
  * `Call.generate`: the loop over the keys, with its calls to the accountant.
-/
import Xauusd.Lib.PyJson

namespace Xauusd.Gateway

/-- What Python writes of a float, and of a value that is not a string. -/
structure Texts where
  floatText : BitVec 64 → List Char
  repr : PyJson → List Char

/-- `str(value)` -/
def Texts.str (texts : Texts) : PyJson → PyStr
  | .str s => s
  | v => PyStr.ofChars (texts.repr v)

/-- A response that is an object. -/
abbrev Envelope := List (PyStr × PyJson)

/-! ## Errors -/

/-- A `Retry-After` header: a number, or a date so many seconds ahead. -/
inductive RetryAfter where
  | absent
  | seconds (n : ℤ)
  | date (ahead : ℤ)
  | unreadable

/-- What reading the body of an HTTP error leaves: the error of the read, or a
    prefix and what `json.loads` makes of it. -/
inductive HttpBody (ε : Type) where
  | unread (e : ε)
  | read (head : List ℕ) (parsed : Except ε PyJson)

/-- The class of an error and its bases. -/
abbrev Classes := List String

structure HttpReply where
  code : ℤ
  retryAfter : RetryAfter
  body : HttpBody Classes

structure PyError where
  classes : Classes
  text : PyStr
  http : Option HttpReply
  failureEvidence : Option PyJson

/-- `isinstance` -/
def isInstance (classes : Classes) (names : List String) : Bool := names.any (· ∈ classes)

/-- `type(error).__name__` -/
def PyError.typeName (e : PyError) : String := e.classes.headD "Exception"

/-- An exception that a handler raises itself. -/
def PyError.ofClass (name : String) : PyError := ⟨[name, "Exception"], [], none, none⟩

/-- `_http_retry_after_seconds` -/
def httpRetryAfterSeconds (reply : HttpReply) : Option ℤ :=
  match reply.retryAfter with
  | .absent => none
  | .seconds n => some (max 1 (min 86400 n))
  | .date ahead => some (max 1 (min 86400 ahead))
  | .unreadable => none

def providerStatuses : List String :=
  ["INTERNAL", "UNAVAILABLE", "RESOURCE_EXHAUSTED", "INVALID_ARGUMENT",
    "PERMISSION_DENIED", "UNAUTHENTICATED", "DEADLINE_EXCEEDED", "NOT_FOUND"]

/-- The errors of a body that `_http_failure_evidence` passes over. -/
def bodyErrors : List String := ["OSError", "ValueError", "TypeError", "AttributeError"]

/-- The status that a body names, if it is one of those known. -/
def providerStatus (body : PyJson) : PyStr :=
  match body.get "error" with
  | .error _ => PyStr.of "UNKNOWN"
  | .ok error => match (error.getD (.dict [])).get "status" with
    | .ok (some (.str status)) =>
      if status ∈ providerStatuses.map PyStr.of then status else PyStr.of "UNKNOWN"
    | _ => PyStr.of "UNKNOWN"

def pyString (s : String) : PyJson := .str (PyStr.of s)

/-- `_http_failure_evidence`, or the classes of the error that escapes it. -/
def httpFailureEvidence (reply : HttpReply) (model purpose : String) : Except Classes PyJson :=
  let evidence (hash : String) (status : PyStr) : PyJson := .dict [
    (PyStr.of "failure_code", pyString "PROVIDER_HTTP_ERROR"),
    (PyStr.of "failure_stage", .str ((PyStr.of purpose).take 80)),
    (PyStr.of "response_hash", pyString hash),
    (PyStr.of "cause_type", pyString "HTTPError"),
    (PyStr.of "cause", pyString ("HTTP " ++ toString reply.code)),
    (PyStr.of "selected_output", .dict [
      (PyStr.of "requested_model", .str ((PyStr.of model).take 100)),
      (PyStr.of "provider_http_status", .int reply.code),
      (PyStr.of "provider_status", .str status),
      (PyStr.of "response_scope", pyString "PREFIX_4096")])]
  match reply.body with
  | .unread e =>
    if isInstance e bodyErrors then .ok (evidence (sha256Bytes []) (PyStr.of "UNKNOWN")) else .error e
  | .read head (.error e) =>
    if isInstance e bodyErrors then .ok (evidence (sha256Bytes head) (PyStr.of "UNKNOWN")) else .error e
  | .read head (.ok body) => .ok (evidence (sha256Bytes head) (providerStatus body))

/-! ## What is kept of a response -/

/-- The token counts of `_sanitized_usage_metadata`: a bool is an int. -/
def tokenCount : PyJson → Bool
  | .int n => 0 ≤ n && n ≤ 100000000
  | .bool _ => true
  | _ => false

/-- `_sanitized_usage_metadata` -/
def sanitizedUsageMetadata (envelope : Envelope) : Option (List (String × PyJson)) :=
  match envelope.lookup (PyStr.of "usageMetadata") with
  | some (.dict raw) =>
    let result := [("prompt_token_count", "promptTokenCount"),
      ("candidates_token_count", "candidatesTokenCount"),
      ("total_token_count", "totalTokenCount")].filterMap fun (target, source) =>
        match raw.lookup (PyStr.of source) with
        | some v => if tokenCount v then some (target, v) else none
        | none => none
    if result.isEmpty then none else some result
  | _ => none

/-- `_sanitized_model_version` -/
def sanitizedModelVersion (envelope : Envelope) : Option PyStr :=
  match envelope.lookup (PyStr.of "modelVersion") with
  | some (.str s) =>
    let normalized := PyStr.strip s
    if normalized.isEmpty then none else some (normalized.take 200)
  | _ => none

/-- `f(envelope) if envelope else None` -/
def ifEnvelope {α : Type} (f : Envelope → Option α) : Option Envelope → Option α
  | some envelope => if envelope.isEmpty then none else f envelope
  | none => none

/-- `envelope["candidates"][0]["content"]["parts"][0]["text"]` -/
def outputText (envelope : Envelope) : Except String PyJson := do
  let candidate ← (← (PyJson.dict envelope).item "candidates").first
  let part ← (← (← candidate.item "content").item "parts").first
  part.item "text"

/-- The text that the evidence of a decode failure is about. -/
def rawOutput (texts : Texts) (envelope : Option Envelope) (e : PyError) : PyStr :=
  match envelope with
  | none => PyStr.of e.typeName ++ PyStr.of ": " ++ e.text
  | some envelope => match outputText envelope with
    | .ok v => texts.str v
    | .error _ => (PyJson.dict envelope).dumps texts.floatText

/-- `(envelope.get("candidates") or [{}])[0].get("finishReason", "UNKNOWN")` -/
def finishReason (envelope : Envelope) : Except String PyJson := do
  let candidates := (envelope.lookup (PyStr.of "candidates")).getD .none
  let first ← (if candidates.truthy then candidates else .list [.dict []]).first
  let reason ← first.get "finishReason"
  return reason.getD (pyString "UNKNOWN")

/-- The evidence of a decode failure, or the exception that collecting it raises. -/
def decodeEvidence (texts : Texts) (envelope : Option Envelope) (e : PyError) :
    Except PyError PyJson :=
  let raw := rawOutput texts envelope e
  match PyStr.encode raw with
  | none => .error (PyError.ofClass "UnicodeEncodeError")
  | some bytes =>
    match ifEnvelope (fun envelope => some (finishReason envelope)) envelope with
    | some (.error name) => .error (PyError.ofClass name)
    | some (.ok reason) => .ok (evidence (sha256Bytes bytes) raw ((texts.str reason).take 80))
    | none => .ok (evidence (sha256Bytes bytes) raw (PyStr.of "UNKNOWN"))
where
  evidence (hash : String) (raw reason : PyStr) : PyJson := .dict [
    (PyStr.of "failure_code", pyString "MODEL_OUTPUT_INVALID"),
    (PyStr.of "failure_stage", pyString "RESPONSE_DECODE"),
    (PyStr.of "response_hash", pyString hash),
    (PyStr.of "selected_output", .dict [
      (PyStr.of "bounded_response_prefix", .str (raw.take 500)),
      (PyStr.of "provider_finish_reason", .str reason)]),
    (PyStr.of "cause_type", pyString e.typeName),
    (PyStr.of "cause", .str (e.text.take 500))]

/-! ## Reservations -/

structure GeminiModelGateway where
  apiKeys : List String
  requestsPerKey : ℕ
  batchLimit : Option ℤ
  nonempty : apiKeys ≠ []
  positive : 0 < requestsPerKey

/-- `__init__`; none when it raises. -/
def GeminiModelGateway.create (apiKeys : List String) (requestsPerKey : ℤ) (batchLimit : Option ℤ) :
    Option GeminiModelGateway :=
  if h : apiKeys ≠ [] then
    some ⟨apiKeys, (max 1 requestsPerKey).toNat, batchLimit, h, by omega⟩
  else none

/-- `_batch_counts` and `_batch_total` -/
structure Batch where
  counts : String → ℕ
  total : ℕ

def Batch.empty : Batch := ⟨fun _ => 0, 0⟩

namespace GeminiModelGateway

def batchFull (g : GeminiModelGateway) (s : Batch) : Bool :=
  match g.batchLimit with
  | some limit => limit ≤ s.total
  | none => false

/-- `_reserve`, where the accountant would answer `grants`. -/
def reserve (g : GeminiModelGateway) (key : String) (grants : Bool) (s : Batch) : Bool × Batch :=
  if g.batchFull s then (false, s)
  else if g.requestsPerKey ≤ s.counts key then (false, s)
  else if !grants then (false, s)
  else (true, ⟨Function.update s.counts key (s.counts key + 1), s.total + 1⟩)

/-- The batch after some requests for reservations, in the order of the lock. -/
def after (g : GeminiModelGateway) (asked : List (String × Bool)) (s : Batch) : Batch :=
  asked.foldl (fun s r => (g.reserve r.1 r.2 s).2) s

/-- `api_keys[(start_index + offset) % len(api_keys)]` -/
def keyAt (g : GeminiModelGateway) (startIndex : ℤ) (offset : ℕ) : String :=
  g.apiKeys.getD ((startIndex + offset) % (g.apiKeys.length : ℤ)).toNat ""

end GeminiModelGateway

/-! ## Attempts -/

structure Usage where
  model : String
  purpose : String
  inputTokens : ℤ
  promptContract : String
  estimatorVersion : String
  deriving DecidableEq

inductive ProviderOutcome where
  | PROVIDER_SUCCEEDED
  | PROVIDER_FAILED
  | PROVIDER_THROTTLED
  deriving DecidableEq

/-- What a call does, offset by offset: it asks for a reservation, gets it,
    sends the request, and has the accountant record what came of it. -/
inductive Event where
  | tried (offset : ℕ)
  | reserved (offset : ℕ) (key : String) (usage : Usage)
  | attempted (offset : ℕ)
  | recorded (offset : ℕ) (outcome : ProviderOutcome) (retryAfterSeconds : Option ℤ)
      (usageMetadata : Option (List (String × PyJson))) (providerModelVersion : Option PyStr)

structure Call (T : Type) where
  startIndex : ℤ
  model : String
  purpose : String
  inputTokens : ℤ
  promptContract : Option String
  estimatorVersion : String
  decode : Envelope → Except PyError T
  retryableHttpCodes : List ℤ
  retryableDecodeErrors : List String

/-- What a call meets at an offset: the reservations of other calls before its
    own, the answer of the accountant, an exception of `mark_provider_attempted`,
    and what `urlopen` and `json.loads` leave. -/
structure Turn where
  others : List (String × Bool)
  grants : Bool
  marked : Option PyError
  transport : Except PyError PyJson

/-- What the accountant says of its last refusal. -/
structure Refusal where
  failureCode : Option String
  nextRetryAt : Option String
  failureEvidence : Option PyJson

/-- An attempt: whether its request was sent, the response, and the result of
    decoding it or the exception. -/
structure Attempt (T : Type) where
  sent : Bool
  envelope : Option Envelope
  outcome : Except PyError T

/-- How `generate` ends. An exception of the call is told apart from one that a
    handler raises while it records another. -/
inductive End (T : Type) where
  | returned (result : T) (version : PyStr)
  | purposeRequired
  | capacityExhausted (failureCode : String) (nextRetryAt : Option String) (failureEvidence : Option PyJson)
  | responseInvalid (causeType : String) (causeMessage : PyStr) (failureEvidence : Option PyJson)
  | requestFailed (transportErrorType : String)
  | raised (e : PyError)
  | escaped (e : PyError)

inductive Verdict (T : Type) where
  | failed (e : PyError)
  | ended (how : End T)

structure Run (T : Type) where
  events : List Event
  received : List (ℕ × Attempt T)
  result : End T
  batch : Batch

/-- `_post_json`, from what the provider sent. -/
def postJson : Except PyError PyJson → Except PyError Envelope
  | .error e => .error e
  | .ok (.dict members) => .ok members
  | .ok _ => .error ⟨["ValueError", "Exception"],
      PyStr.of "model provider response is not a JSON object", none, none⟩

namespace Call

variable {T : Type}

def usage (call : Call T) : Usage where
  model := call.model
  purpose := call.purpose
  inputTokens := max 0 call.inputTokens
  promptContract := Text.strip (match call.promptContract with
    | some contract => if contract = "" then call.purpose else contract
    | none => call.purpose)
  estimatorVersion := Text.strip call.estimatorVersion

/-- The classes of `except (json.JSONDecodeError, *retryable_decode_errors)`. -/
def decodeFailure (call : Call T) (e : PyError) : Bool :=
  isInstance e.classes ("JSONDecodeError" :: call.retryableDecodeErrors)

/-- The body of the `try`. -/
def attempt (call : Call T) (turn : Turn) : Attempt T :=
  match turn.marked with
  | some e => ⟨false, none, .error e⟩
  | none => match postJson turn.transport with
    | .error e => ⟨true, none, .error e⟩
    | .ok envelope => ⟨true, some envelope, call.decode envelope⟩

/-- `record_provider_outcome`, when the request was sent. -/
def record (offset : ℕ) (a : Attempt T) (outcome : ProviderOutcome) (retryAfterSeconds : Option ℤ)
    (usageMetadata : Option (List (String × PyJson))) (version : Option PyStr) : List Event :=
  if a.sent then [.recorded offset outcome retryAfterSeconds usageMetadata version] else []

/-- The `except` and `else` clauses: what they have the accountant record, and
    how they leave the attempt. -/
def settle (call : Call T) (texts : Texts) (offset : ℕ) (a : Attempt T) : List Event × Verdict T :=
  let usageMetadata := ifEnvelope sanitizedUsageMetadata a.envelope
  let version := ifEnvelope sanitizedModelVersion a.envelope
  match a.outcome with
  | .ok result =>
    (record offset a .PROVIDER_SUCCEEDED none usageMetadata version,
      .ended (.returned result (version.getD (PyStr.of call.model))))
  | .error e =>
    if call.decodeFailure e then
      (record offset a .PROVIDER_FAILED none usageMetadata version,
        match e.failureEvidence with
        | some _ => .failed e
        | none => match decodeEvidence texts a.envelope e with
          | .ok evidence => .failed { e with failureEvidence := some evidence }
          | .error x => .ended (.escaped x))
    else match e.http with
    | some reply => match httpFailureEvidence reply call.model call.purpose with
      -- the evidence comes first here, and the outcome is not recorded without it
      | .error classes => ([], .ended (.escaped ⟨classes, [], none, none⟩))
      | .ok evidence =>
        (record offset a (if reply.code = 429 then .PROVIDER_THROTTLED else .PROVIDER_FAILED)
            (httpRetryAfterSeconds reply) none none,
          if reply.code ∈ call.retryableHttpCodes then .failed { e with failureEvidence := some evidence }
          else .ended (.raised { e with failureEvidence := some evidence }))
    | none =>
      if isInstance e.classes ["URLError", "TimeoutError", "ConnectionError"] then
        (record offset a .PROVIDER_FAILED none none none, .failed e)
      else (record offset a .PROVIDER_FAILED none usageMetadata version, .ended (.raised e))

/-- What follows the loop. -/
def giveUp (call : Call T) (refusal : Refusal) : Option PyError → End T
  | none => .capacityExhausted
      (match refusal.failureCode with
        | some code => if code = "" then "MODEL_CAPACITY_DEFERRED" else code
        | none => "MODEL_CAPACITY_DEFERRED")
      refusal.nextRetryAt refusal.failureEvidence
  | some e =>
    if e.http.isSome then .raised e
    else if call.decodeFailure e then .responseInvalid e.typeName e.text e.failureEvidence
    else .requestFailed e.typeName

/-- The loop over the offsets left, where `last` is the last error. -/
def tries (call : Call T) (g : GeminiModelGateway) (texts : Texts) (refusal : Refusal) (turn : ℕ → Turn) :
    List ℕ → Option PyError → Batch → Run T
  | [], last, s => ⟨[], [], call.giveUp refusal last, s⟩
  | offset :: offsets, last, s =>
    let key := g.keyAt call.startIndex offset
    let (reserved, s) := g.reserve key (turn offset).grants (g.after (turn offset).others s)
    if reserved then
      let a := call.attempt (turn offset)
      let (recorded, verdict) := call.settle texts offset a
      let events := .tried offset :: .reserved offset key call.usage ::
        (if a.sent then [.attempted offset] else []) ++ recorded
      match verdict with
      | .ended how => ⟨events, [(offset, a)], how, s⟩
      | .failed e =>
        let rest := tries call g texts refusal turn offsets (some e) s
        { rest with events := events ++ rest.events, received := (offset, a) :: rest.received }
    else
      let rest := tries call g texts refusal turn offsets last s
      { rest with events := .tried offset :: rest.events }

/-- `generate` -/
def generate (call : Call T) (g : GeminiModelGateway) (texts : Texts) (refusal : Refusal) (turn : ℕ → Turn)
    (s : Batch) : Run T :=
  if Text.strip call.purpose = "" then ⟨[], [], .purposeRequired, s⟩
  else call.tries g texts refusal turn (List.range g.apiKeys.length) none s

end Call

end Xauusd.Gateway
