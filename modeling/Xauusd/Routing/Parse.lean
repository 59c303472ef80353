/-
  The reader of a routing receipt (`web/app/api/_shared/assistant-routing.ts`).

  * `RouteTexts`, `TokenBudget`, `CapacityProvenance`: what is read of a value,
    each with the check that it must pass;
  * `parseAssistantRoutingProvenance`: the receipt, or the message of the error;
  * `Provenance.json`: the value that is returned.

  A number is the double that it is read as, and the texts are those that
  `String(…).trim()` makes.
-/
import Xauusd.Projection.ReviewState
import Xauusd.Routing.Execute

namespace Xauusd.Routing

open Projection (coerced)

def LEGACY_ASSISTANT_ROUTING_POLICY_VERSION : String := "assistant-routing-v1"

/-! ## Values -/

section
variable (numberText : BitVec 64 → String)

/-- `String(value ?? "").trim()` -/
def trimmed (value : Json) : Except String String :=
  match coerced numberText value with
  | some text => .ok (Text.jsTrim text)
  | none => .error "Cannot convert object to primitive value"

/-- `value == null ? null : String(value).trim()` -/
def trimmedOrNull (value : Json) : Except String (Option String) :=
  if value = .null then .ok none else (trimmed numberText value).map some

/-- `value.map(item => String(item ?? "").trim())` -/
def trimmedItems : List Json → Except String (List String)
  | [] => .ok []
  | item :: items => do
    let text ← trimmed numberText item
    let texts ← trimmedItems items
    return text :: texts

end

def NAN : BitVec 64 := 0x7FF8000000000000

/-- `typeof value === "number" ? value : Number.NaN` -/
def number : Json → BitVec 64
  | .num bits => bits
  | _ => NAN

/-- `typeof value === "boolean"` -/
def isBoolean : Json → Bool
  | .bool _ => true
  | _ => false

/-- `value === true` -/
def isTrue (value : Json) : Bool := value = .bool true

/-- The items of an array. -/
def itemsOf : Json → Option (List Json)
  | .arr items => some items
  | _ => none

/-- `boundedInteger`, of a number -/
def boundedInteger (bits : BitVec 64) (minimum maximum : ℤ) : Bool :=
  Json.isFinite bits && decide ((Binary64.value bits).den = 1) && decide (minimum ≤ Binary64.value bits) &&
    decide (Binary64.value bits ≤ maximum)

/-! ## The texts -/

structure RouteTexts where
  policyVersion : String
  taskType : String
  reasoningClass : String
  thinkingLevel : String
  providerThinkingLevel : Option String
  modelRequirement : String
  selectedProfileId : String
  selectedModelId : String
  provider : String
  capacityClass : String
  deriving DecidableEq, Repr

def RouteTexts.read (numberText : BitVec 64 → String) (raw : Json) : Except String RouteTexts := do
  let policyVersion ← trimmed numberText (raw.get "policy_version")
  let taskType ← trimmed numberText (raw.get "task_type")
  let reasoningClass ← trimmed numberText (raw.get "reasoning_class")
  let thinkingLevel ← trimmed numberText (raw.get "thinking_level")
  let providerThinkingLevel ← trimmedOrNull numberText (raw.get "provider_thinking_level")
  let modelRequirement ← trimmed numberText (raw.get "model_requirement")
  let selectedProfileId ← trimmed numberText (raw.get "selected_profile_id")
  let selectedModelId ← trimmed numberText (raw.get "selected_model_id")
  let provider ← trimmed numberText (raw.get "provider")
  let capacityClass ← trimmed numberText (raw.get "capacity_class")
  return ⟨policyVersion, taskType, reasoningClass, thinkingLevel, providerThinkingLevel, modelRequirement,
    selectedProfileId, selectedModelId, provider, capacityClass⟩

def tasks : List String := ["ASSISTANT_CHAT", "NEWS_QA", "CONVERSATION_TITLE", "CONTEXT_COMPACTION"]
def legacyTasks : List String := ["NEWS_QA", "CONVERSATION_TITLE", "CONTEXT_COMPACTION"]

namespace RouteTexts
variable (t : RouteTexts)

def currentPolicy : Bool := t.policyVersion = ASSISTANT_ROUTING_POLICY_VERSION
def legacyPolicy : Bool := t.policyVersion = LEGACY_ASSISTANT_ROUTING_POLICY_VERSION

/-- The checks of the texts. -/
def valid (expectedTask : Option String) : Bool :=
  (t.currentPolicy || t.legacyPolicy) &&
  (if t.currentPolicy then decide (t.taskType ∈ tasks) else decide (t.taskType ∈ legacyTasks)) &&
  expectedTask.all (· = t.taskType) &&
  decide (t.reasoningClass ∈ ["SIMPLE", "ANALYTICAL", "TOOL_HEAVY"]) &&
  decide (t.thinkingLevel ∈ ["MINIMAL", "HIGH"]) &&
  t.providerThinkingLevel.all (· ∈ ["minimal", "high"]) &&
  decide (t.modelRequirement ∈ ["SMALL_PREFERRED", "LARGE_REQUIRED"]) &&
  isProfileId t.selectedProfileId && isModelId t.selectedModelId && isProvider t.provider &&
  decide (t.provider ∈ INSTALLED_ASSISTANT_PROVIDERS) &&
  decide (t.capacityClass ∈ ["SMALL", "LARGE"])

/-- `thinkingLevel.toLowerCase()`, of a level that was checked. -/
def loweredThinkingLevel : String := Text.lower t.thinkingLevel

/-- A title or a compaction is made by a simple route without calls. -/
def housekeeping (plannedToolCalls : ℚ) : Bool :=
  t.reasoningClass = "SIMPLE" && t.modelRequirement = "SMALL_PREFERRED" && plannedToolCalls = 0

/-- The decision of the policy, of what was planned and of what the model
    supports. -/
def consistent (plannedToolCalls : ℚ) (supportsThinking supportsFunctionCalling : Bool) : Bool :=
  !(t.reasoningClass = "SIMPLE" && t.thinkingLevel ≠ "MINIMAL") &&
  !(t.reasoningClass ≠ "SIMPLE" && t.thinkingLevel ≠ "HIGH") &&
  !(t.reasoningClass = "TOOL_HEAVY" && plannedToolCalls ≤ 1) &&
  !(t.reasoningClass ≠ "TOOL_HEAVY" && plannedToolCalls > 1) &&
  !(t.currentPolicy && plannedToolCalls > 0 && !supportsFunctionCalling) &&
  !(t.legacyPolicy && t.reasoningClass = "TOOL_HEAVY" && !supportsFunctionCalling) &&
  !(t.reasoningClass ≠ "SIMPLE" && !supportsThinking) &&
  !(!supportsThinking && t.providerThinkingLevel ≠ none) &&
  !(supportsThinking && t.providerThinkingLevel ≠ some t.loweredThinkingLevel) &&
  !(t.modelRequirement = "LARGE_REQUIRED" && t.capacityClass ≠ "LARGE") &&
  !(t.reasoningClass ≠ "SIMPLE" && t.modelRequirement ≠ "LARGE_REQUIRED") &&
  !(t.currentPolicy && t.taskType = "NEWS_QA" && plannedToolCalls ≠ 0) &&
  !(t.currentPolicy && t.taskType ∈ ["CONVERSATION_TITLE", "CONTEXT_COMPACTION"] &&
    !t.housekeeping plannedToolCalls) &&
  !(t.legacyPolicy && t.taskType ≠ "NEWS_QA" && !t.housekeeping plannedToolCalls)

/-- The checks of the candidates. -/
def validCandidates (normalizedCandidates : List String) : Bool :=
  normalizedCandidates.all isProfileId && decide normalizedCandidates.Nodup &&
    decide (t.selectedProfileId ∈ normalizedCandidates)

end RouteTexts

/-! ## The numbers -/

structure TokenBudget where
  estimatedInputTokens : BitVec 64
  reservedOutputTokens : BitVec 64
  requiredContextTokens : BitVec 64
  plannedToolCalls : BitVec 64
  contextLimit : BitVec 64
  deriving DecidableEq, Repr

def TokenBudget.read (raw : Json) : TokenBudget where
  estimatedInputTokens := number (raw.get "estimated_input_tokens")
  reservedOutputTokens := number (raw.get "reserved_output_tokens")
  requiredContextTokens := number (raw.get "required_context_tokens")
  plannedToolCalls := number (raw.get "planned_tool_calls")
  contextLimit := number (raw.get "context_limit")

/-- The checks of the numbers; a sum of bounded integers is exact. -/
def TokenBudget.valid (b : TokenBudget) : Bool :=
  boundedInteger b.estimatedInputTokens 1 1000000 && boundedInteger b.reservedOutputTokens 1 1000000 &&
  boundedInteger b.requiredContextTokens 2 1000000 && boundedInteger b.plannedToolCalls 0 64 &&
  boundedInteger b.contextLimit 1024 1000000 &&
  decide (Binary64.value b.requiredContextTokens =
    Binary64.value b.estimatedInputTokens + Binary64.value b.reservedOutputTokens) &&
  decide (Binary64.value b.requiredContextTokens ≤ Binary64.value b.contextLimit)

/-! ## The capacity -/

structure CapacityProvenance where
  policyVersion : String
  servicePriority : String
  selectedPoolFingerprint : String
  selectedPoolType : String
  candidatePoolCount : BitVec 64
  candidatePairCount : BitVec 64
  attemptCount : BitVec 64
  estimatedInputTokens : BitVec 64
  softCapBasisPoints : BitVec 64
  maxInFlight : BitVec 64
  policySource : String
  modelFallbackUsed : Json
  deriving DecidableEq, Repr

/-- The texts, and the numbers after them. -/
def CapacityProvenance.read (numberText : BitVec 64 → String) (raw : Json) : Except String CapacityProvenance := do
  let policyVersion ← trimmed numberText (raw.get "policy_version")
  let servicePriority ← trimmed numberText (raw.get "service_priority")
  let selectedPoolFingerprint ← trimmed numberText (raw.get "selected_pool_fingerprint")
  let selectedPoolType ← trimmed numberText (raw.get "selected_pool_type")
  let policySource ← trimmed numberText (raw.get "policy_source")
  return {
    policyVersion, servicePriority, selectedPoolFingerprint, selectedPoolType
    candidatePoolCount := number (raw.get "candidate_pool_count")
    candidatePairCount := number (raw.get "candidate_pair_count")
    attemptCount := number (raw.get "attempt_count")
    estimatedInputTokens := number (raw.get "estimated_input_tokens")
    softCapBasisPoints := number (raw.get "soft_cap_basis_points")
    maxInFlight := number (raw.get "max_in_flight")
    policySource
    modelFallbackUsed := raw.get "model_fallback_used" }

/-- `/^[a-f0-9]{16}$/` -/
def isPoolFingerprint (s : String) : Bool :=
  s.toList.length = 16 && s.toList.all fun c => ('0' ≤ c && c ≤ '9') || ('a' ≤ c && c ≤ 'f')

/-- The checks of the capacity, of the tokens of the route and of whether the
    model that was selected is not the first candidate. -/
def CapacityProvenance.valid (c : CapacityProvenance) (estimatedInputTokens : BitVec 64) (fallback : Bool) : Bool :=
  decide (c.policyVersion = ASSISTANT_CAPACITY_POLICY_VERSION) &&
  decide (c.servicePriority ∈ ["INTERACTIVE", "BACKGROUND"]) &&
  isPoolFingerprint c.selectedPoolFingerprint &&
  decide (c.selectedPoolType ∈ [PREEMPTIBLE_POOL, ROUTINE_POOL]) &&
  decide (c.policySource ∈ ["CONFIGURED", "REGISTRY_DEFAULT"]) &&
  boundedInteger c.candidatePoolCount 1 16 && boundedInteger c.candidatePairCount 1 128 &&
  boundedInteger c.attemptCount 1 128 && boundedInteger c.estimatedInputTokens 1 1000000 &&
  boundedInteger c.softCapBasisPoints 1 10000 && boundedInteger c.maxInFlight 1 1000 &&
  isBoolean c.modelFallbackUsed &&
  decide (Binary64.value c.candidatePoolCount ≤ Binary64.value c.candidatePairCount) &&
  decide (Binary64.value c.estimatedInputTokens = Binary64.value estimatedInputTokens) &&
  !(c.servicePriority = "BACKGROUND" && c.selectedPoolType ≠ "ROUTINE") &&
  decide (c.modelFallbackUsed = .bool fallback)

/-! ## Receipts -/

/-- `AssistantRoutingProvenance` -/
structure Provenance extends RouteTexts, TokenBudget where
  candidateProfileIds : List String
  supportsThinking : Json
  supportsFunctionCalling : Json
  supportsStreaming : Json
  capacity : CapacityProvenance
  deriving DecidableEq, Repr

/-- `parseAssistantRoutingProvenance` -/
def parseAssistantRoutingProvenance (numberText : BitVec 64 → String) (value : Json)
    (expectedTask : Option String) : Except String Provenance :=
  if !value.isObject then .error "Assistant routing provenance is required"
  else do
    let texts ← RouteTexts.read numberText value
    let supportsThinking := value.get "supports_thinking"
    let supportsFunctionCalling := value.get "supports_function_calling"
    let supportsStreaming := value.get "supports_streaming"
    let some candidateProfileIds := itemsOf (value.get "candidate_profile_ids")
      | .error "Assistant routing provenance is invalid"
    if !(texts.valid expectedTask && isBoolean supportsThinking && isBoolean supportsFunctionCalling &&
        isBoolean supportsStreaming && decide (candidateProfileIds ≠ []) &&
        decide (candidateProfileIds.length ≤ 8)) then
      .error "Assistant routing provenance is invalid"
    else
      let normalizedCandidates ← trimmedItems numberText candidateProfileIds
      if !texts.validCandidates normalizedCandidates then .error "Assistant routing model candidates are invalid"
      else
        let budget := TokenBudget.read value
        if !budget.valid then .error "Assistant routing token budget is invalid"
        else if !(value.get "capacity").isObject then .error "Assistant capacity provenance is required"
        else
          let capacity ← CapacityProvenance.read numberText (value.get "capacity")
          if !capacity.valid budget.estimatedInputTokens
              (decide (0 < normalizedCandidates.idxOf texts.selectedProfileId)) then
            .error "Assistant capacity provenance is invalid"
          else if !texts.consistent (Binary64.value budget.plannedToolCalls) (isTrue supportsThinking)
              (isTrue supportsFunctionCalling) then
            .error "Assistant routing policy decision is inconsistent"
          else
            .ok
              { toRouteTexts := texts
                toTokenBudget := budget
                candidateProfileIds := normalizedCandidates
                supportsThinking, supportsFunctionCalling, supportsStreaming, capacity }

/-- The capacity as a value. -/
def CapacityProvenance.json (c : CapacityProvenance) : Json :=
  .obj [("policy_version", .str c.policyVersion),
    ("service_priority", .str c.servicePriority),
    ("selected_pool_fingerprint", .str c.selectedPoolFingerprint),
    ("selected_pool_type", .str c.selectedPoolType),
    ("candidate_pool_count", .num c.candidatePoolCount),
    ("candidate_pair_count", .num c.candidatePairCount),
    ("attempt_count", .num c.attemptCount),
    ("estimated_input_tokens", .num c.estimatedInputTokens),
    ("soft_cap_basis_points", .num c.softCapBasisPoints),
    ("max_in_flight", .num c.maxInFlight),
    ("policy_source", .str c.policySource),
    ("model_fallback_used", c.modelFallbackUsed)]

/-- The receipt as a value. -/
def Provenance.json (p : Provenance) : Json :=
  .obj [("policy_version", .str p.policyVersion),
    ("task_type", .str p.taskType),
    ("reasoning_class", .str p.reasoningClass),
    ("thinking_level", .str p.thinkingLevel),
    ("provider_thinking_level", optional p.providerThinkingLevel),
    ("model_requirement", .str p.modelRequirement),
    ("estimated_input_tokens", .num p.estimatedInputTokens),
    ("reserved_output_tokens", .num p.reservedOutputTokens),
    ("required_context_tokens", .num p.requiredContextTokens),
    ("planned_tool_calls", .num p.plannedToolCalls),
    ("candidate_profile_ids", .arr (p.candidateProfileIds.map .str)),
    ("selected_profile_id", .str p.selectedProfileId),
    ("selected_model_id", .str p.selectedModelId),
    ("provider", .str p.provider),
    ("capacity_class", .str p.capacityClass),
    ("context_limit", .num p.contextLimit),
    ("supports_thinking", p.supportsThinking),
    ("supports_function_calling", p.supportsFunctionCalling),
    ("supports_streaming", p.supportsStreaming),
    ("capacity", p.capacity.json)]

end Xauusd.Routing
