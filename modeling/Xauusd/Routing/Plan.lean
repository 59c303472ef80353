/-
  The route of an Assistant task (`assistant/routing.py`).

  A plan fixes the reasoning class of a task and the model profiles that may
  serve it, in the order in which they are tried.

  * `identifier`: what the patterns for ids accept;
  * `validatedProfiles`: `_validated_profiles`;
  * `classifyAssistantReasoning`, `planAssistantRoute`;
  * `providerThinkingLevel`, `routingProvenance`: what a plan says of the profile
    that was selected;
  * `RoutePlan.Sound`, `plan_sound`: **what holds of every plan**.

  `fold` is `unicodedata.normalize("NFKC", text).casefold()`.  The profiles are
  those given, or those configured: both are validated here.
-/
import Xauusd.Lib.Binary64
import Xauusd.Lib.Json

namespace Xauusd.Routing

def ASSISTANT_ROUTING_POLICY_VERSION : String := "assistant-routing-v2"

def GOOGLE_GENERATIVE_LANGUAGE : String := "GOOGLE_GENERATIVE_LANGUAGE"
def OLLAMA_LOCAL : String := "OLLAMA_LOCAL"
def INSTALLED_ASSISTANT_PROVIDERS : List String := [GOOGLE_GENERATIVE_LANGUAGE, OLLAMA_LOCAL]

def MAX_ASSISTANT_MODEL_CANDIDATES : ℕ := 8

/-- What a call of this package raises. -/
inductive Raised where
  | valueError (message : String)
  /-- `AssistantModelRoutingUnavailable` -/
  | routingUnavailable (message : String)
  /-- `AssistantCapacityUnavailable` -/
  | capacityUnavailable (message : String)
  /-- an error of the provider that is raised again -/
  | httpError (status : ℤ)
  | transportError
  /-- any other exception -/
  | other (name : String)
  deriving DecidableEq, Repr

/-! ## Enumerations -/

inductive TaskType where
  | assistantChat
  | newsQa
  | conversationTitle
  | contextCompaction
  deriving DecidableEq, Repr

def TaskType.value : TaskType → String
  | assistantChat => "ASSISTANT_CHAT"
  | newsQa => "NEWS_QA"
  | conversationTitle => "CONVERSATION_TITLE"
  | contextCompaction => "CONTEXT_COMPACTION"

/-- `AssistantTaskType(str(task_type))` -/
def TaskType.ofText (text : String) : Except Raised TaskType :=
  match [assistantChat, newsQa, conversationTitle, contextCompaction].find? fun t => t.value = text with
  | some t => .ok t
  | none => .error (.valueError ("unsupported Assistant task type: " ++ text))

inductive ReasoningClass where
  | simple
  | analytical
  | toolHeavy
  deriving DecidableEq, Repr

def ReasoningClass.value : ReasoningClass → String
  | simple => "SIMPLE"
  | analytical => "ANALYTICAL"
  | toolHeavy => "TOOL_HEAVY"

inductive ThinkingLevel where
  | minimal
  | high
  deriving DecidableEq, Repr

def ThinkingLevel.value : ThinkingLevel → String
  | minimal => "MINIMAL"
  | high => "HIGH"

/-- `thinking_level.value.lower()` -/
def ThinkingLevel.lower : ThinkingLevel → String
  | minimal => "minimal"
  | high => "high"

inductive ModelRequirement where
  | smallPreferred
  | largeRequired
  deriving DecidableEq, Repr

def ModelRequirement.value : ModelRequirement → String
  | smallPreferred => "SMALL_PREFERRED"
  | largeRequired => "LARGE_REQUIRED"

inductive CapacityClass where
  | small
  | large
  deriving DecidableEq, Repr

def CapacityClass.value : CapacityClass → String
  | small => "SMALL"
  | large => "LARGE"

/-! ## Profiles -/

/-- `[A-Za-z0-9]` -/
def alphanumeric (c : Char) : Bool :=
  ('A' ≤ c && c ≤ 'Z') || ('a' ≤ c && c ≤ 'z') || ('0' ≤ c && c ≤ '9')

/-- `^[A-Za-z0-9][A-Za-z0-9…]{0,n}$`, with the other characters of the rest. -/
def identifier (others : List Char) (n : ℕ) (s : String) : Bool :=
  match s.toList with
  | [] => false
  | c :: cs => alphanumeric c && cs.all (fun c => alphanumeric c || c ∈ others) && decide (cs.length ≤ n)

/-- `_PROFILE_ID` -/
def isProfileId : String → Bool := identifier ['.', '_', ':', '-'] 95

/-- `_MODEL_ID` -/
def isModelId : String → Bool := identifier ['.', '_', ':', '/', '-'] 159

structure ModelProfile where
  profileId : String
  modelId : String
  provider : String
  contextLimit : ℤ
  supportsThinking : Bool
  supportsFunctionCalling : Bool
  supportsStreaming : Bool
  capacityClass : CapacityClass
  enabled : Bool
  deriving DecidableEq, Repr

/-- `_strict_integer` -/
def strictInteger (field : String) (minimum maximum value : ℤ) : Except Raised ℕ :=
  if minimum ≤ value ∧ value ≤ maximum then .ok value.toNat
  else .error (.valueError ("Assistant routing " ++ field ++ " is invalid"))

/-- The first check of `_validated_profiles` that a profile fails. -/
def ModelProfile.fault (p : ModelProfile) : Option String :=
  if !isProfileId p.profileId then some "Assistant model profile_id is invalid"
  else if !isModelId p.modelId then some "Assistant model model_id is invalid"
  else if p.provider ∉ INSTALLED_ASSISTANT_PROVIDERS then some "Assistant model provider has no installed gateway"
  else if ¬ (1024 ≤ p.contextLimit ∧ p.contextLimit ≤ 1000000) then some "Assistant routing context_limit is invalid"
  else none

/-- `_validated_profiles` -/
def validatedProfiles (profiles : List ModelProfile) : Except Raised (List ModelProfile) :=
  if profiles = [] ∨ 32 < profiles.length then .error (.valueError "Assistant model profile count is invalid")
  else
    match profiles.findSome? ModelProfile.fault with
    | some message => .error (.valueError message)
    | none =>
      if ¬ (profiles.map (·.profileId)).Nodup then
        .error (.valueError "Assistant model profiles contain duplicate profile_id")
      else if ¬ ((profiles.filter (·.enabled)).map (·.modelId)).Nodup then
        .error (.valueError "enabled Assistant profiles contain duplicate model_id")
      else .ok profiles

/-! ## Reasoning -/

def ANALYTICAL_MARKERS : List String :=
  ["为什么", "为何", "原因", "因果", "影响", "比较", "对比", "冲突", "矛盾", "反常", "多个时期", "多期", "why", "cause",
    "causal", "compare", "versus", "conflict", "contradict"]

def CONVERSATION_REFERENCE_MARKERS : List String :=
  ["上一句", "上句话", "刚才说", "刚刚说", "刚才回答", "刚刚回答", "刚才让你", "刚刚让你", "之前让你", "前面让你", "我刚才说的",
    "我刚刚说的", "我之前说的", "我前面说的", "请记住", "让你记住的", "你记住的", "你还记得", "重复你", "重说", "previous message",
    "previous answer", "repeat that", "what did i just", "what did i ask", "what did i tell", "do you remember",
    "remember what i"]

def SIMPLE_MARKERS : List String :=
  ["多少", "几条", "列出", "有哪些", "最新", "何时", "什么时候", "你是谁", "能做什么", "可以做什么", "count", "list", "show", "latest",
    "when", "how many", "who are you", "what can you do", "repeat"] ++ CONVERSATION_REFERENCE_MARKERS

/-- `any(marker in text for marker in markers)` -/
def hasMarker (markers : List String) (text : String) : Bool :=
  markers.any fun marker => decide (marker.toList <:+: text.toList)

variable (fold : String → String)

/-- `classify_assistant_reasoning`, of a task and a number of calls that were
    checked. -/
def classifyAssistantReasoning (task : TaskType) (userText : String) (toolCalls : ℕ) : ReasoningClass :=
  if 1 < toolCalls then .toolHeavy
  else if task ∈ [.conversationTitle, .contextCompaction] then .simple
  else if hasMarker ANALYTICAL_MARKERS (fold userText) then .analytical
  else if hasMarker SIMPLE_MARKERS (fold userText) then .simple
  else .analytical

/-! ## Plans -/

structure RoutePlan where
  policyVersion : String
  taskType : TaskType
  reasoningClass : ReasoningClass
  thinkingLevel : ThinkingLevel
  modelRequirement : ModelRequirement
  estimatedInputTokens : ℕ
  reservedOutputTokens : ℕ
  plannedToolCalls : ℕ
  candidateProfiles : List ModelProfile
  deriving DecidableEq, Repr

def RoutePlan.requiredContextTokens (p : RoutePlan) : ℕ := p.estimatedInputTokens + p.reservedOutputTokens

/-- The arguments of `plan_assistant_route`. -/
structure PlanCall where
  taskType : String
  estimatedInputTokens : ℤ
  reservedOutputTokens : ℤ
  userText : String
  plannedToolCalls : ℤ
  profiles : List ModelProfile

def ReasoningClass.thinking : ReasoningClass → ThinkingLevel
  | simple => .minimal
  | analytical | toolHeavy => .high

def ReasoningClass.requirement : ReasoningClass → ModelRequirement
  | simple => .smallPreferred
  | analytical | toolHeavy => .largeRequired

/-- The profiles that can serve a task. -/
def ModelProfile.available (p : ModelProfile) (reasoning : ReasoningClass) (toolCalls tokens : ℕ) : Bool :=
  p.enabled && decide ((tokens : ℤ) ≤ p.contextLimit) && (toolCalls = 0 || p.supportsFunctionCalling) &&
    (reasoning.thinking = .minimal || p.supportsThinking)

/-- The candidates, in their order. -/
def candidates (reasoning : ReasoningClass) (available : List ModelProfile) : List ModelProfile :=
  match reasoning.requirement with
  | .largeRequired => available.filter (·.capacityClass = .large)
  | .smallPreferred => available.filter (·.capacityClass = .small) ++ available.filter (·.capacityClass = .large)

/-- `plan_assistant_route` -/
def planAssistantRoute (c : PlanCall) : Except Raised RoutePlan := do
  let task ← TaskType.ofText c.taskType
  let inputTokens ← strictInteger "estimated_input_tokens" 1 1000000 c.estimatedInputTokens
  let outputTokens ← strictInteger "reserved_output_tokens" 1 1000000 c.reservedOutputTokens
  let toolCalls ← strictInteger "planned_tool_calls" 0 64 c.plannedToolCalls
  let reasoning := classifyAssistantReasoning fold task c.userText toolCalls
  let profiles ← validatedProfiles c.profiles
  let available := profiles.filter fun p => p.available reasoning toolCalls (inputTokens + outputTokens)
  let chosen := (candidates reasoning available).take MAX_ASSISTANT_MODEL_CANDIDATES
  if chosen = [] then
    .error (.routingUnavailable ("no model profile satisfies " ++ task.value ++ "/" ++ reasoning.requirement.value ++
      " for " ++ toString (inputTokens + outputTokens) ++ " tokens"))
  else
    .ok
      { policyVersion := ASSISTANT_ROUTING_POLICY_VERSION
        taskType := task
        reasoningClass := reasoning
        thinkingLevel := reasoning.thinking
        modelRequirement := reasoning.requirement
        estimatedInputTokens := inputTokens
        reservedOutputTokens := outputTokens
        plannedToolCalls := toolCalls
        candidateProfiles := chosen }

/-! ## Receipts -/

def OUTSIDE_PLAN : Raised := .valueError "selected model profile is outside the route plan"

/-- `provider_thinking_level` -/
def providerThinkingLevel (plan : RoutePlan) (profile : ModelProfile) : Except Raised (Option String) :=
  if profile ∉ plan.candidateProfiles then .error OUTSIDE_PLAN
  else if !profile.supportsThinking then .ok none
  else .ok (some plan.thinkingLevel.lower)

/-- A number of a receipt. -/
def count (n : ℕ) : Json := .num (Binary64.ofInt n)

/-- A text of a receipt, or `None`. -/
def optional : Option String → Json
  | none => .null
  | some text => .str text

/-- `routing_provenance`: the members of the object. -/
def routingProvenance (plan : RoutePlan) (profile : ModelProfile) : Except Raised (List (String × Json)) := do
  if profile ∉ plan.candidateProfiles then .error OUTSIDE_PLAN
  else
    let level ← providerThinkingLevel plan profile
    return [("policy_version", .str plan.policyVersion),
      ("task_type", .str plan.taskType.value),
      ("reasoning_class", .str plan.reasoningClass.value),
      ("thinking_level", .str plan.thinkingLevel.value),
      ("provider_thinking_level", optional level),
      ("model_requirement", .str plan.modelRequirement.value),
      ("estimated_input_tokens", count plan.estimatedInputTokens),
      ("reserved_output_tokens", count plan.reservedOutputTokens),
      ("required_context_tokens", count plan.requiredContextTokens),
      ("planned_tool_calls", count plan.plannedToolCalls),
      ("candidate_profile_ids", .arr (plan.candidateProfiles.map fun p => .str p.profileId)),
      ("selected_profile_id", .str profile.profileId),
      ("selected_model_id", .str profile.modelId),
      ("provider", .str profile.provider),
      ("capacity_class", .str profile.capacityClass.value),
      ("context_limit", count profile.contextLimit.toNat),
      ("supports_thinking", .bool profile.supportsThinking),
      ("supports_function_calling", .bool profile.supportsFunctionCalling),
      ("supports_streaming", .bool profile.supportsStreaming)]

/-! ## What holds of every plan -/

/-- A profile that the checks let through. -/
structure ModelProfile.Valid (p : ModelProfile) : Prop where
  profileId : isProfileId p.profileId = true
  modelId : isModelId p.modelId = true
  provider : p.provider ∈ INSTALLED_ASSISTANT_PROVIDERS
  contextLimit : 1024 ≤ p.contextLimit ∧ p.contextLimit ≤ 1000000

theorem valid_of_fault {p : ModelProfile} (h : p.fault = none) : p.Valid := by
  unfold ModelProfile.fault at h
  split at h
  · cases h
  · next hprofile =>
    split at h
    · cases h
    · next hmodel =>
      split at h
      · cases h
      · next hprovider =>
        split at h
        · cases h
        · next hlimit =>
          exact ⟨by simpa using hprofile, by simpa using hmodel, by simpa using hprovider, by simpa using hlimit⟩

theorem validatedProfiles_ok {profiles profiles' : List ModelProfile}
    (h : validatedProfiles profiles = .ok profiles') : profiles' = profiles ∧ (∀ p ∈ profiles, p.Valid) ∧
      (profiles.map (·.profileId)).Nodup ∧ ((profiles.filter (·.enabled)).map (·.modelId)).Nodup := by
  unfold validatedProfiles at h
  split at h
  · cases h
  · split at h
    · cases h
    · next hfault =>
      split at h
      · cases h
      · next hids =>
        split at h
        · cases h
        · next hmodels =>
          cases h
          exact ⟨rfl, fun p hp => valid_of_fault (List.findSome?_eq_none_iff.1 hfault p hp), not_not.1 hids,
            not_not.1 hmodels⟩

theorem strictInteger_ok {field : String} {minimum maximum value : ℤ} {n : ℕ}
    (h : strictInteger field minimum maximum value = .ok n) (hminimum : 0 ≤ minimum) :
    minimum ≤ n ∧ (n : ℤ) ≤ maximum := by
  unfold strictInteger at h
  split at h
  · next hrange =>
    cases h
    rw [Int.toNat_of_nonneg (hminimum.trans hrange.1)]
    exact hrange
  · cases h

/-- A plan keeps what the checks of its profiles and numbers say, and its
    candidates can serve it. -/
structure RoutePlan.Sound (plan : RoutePlan) : Prop where
  policyVersion : plan.policyVersion = ASSISTANT_ROUTING_POLICY_VERSION
  estimated : 1 ≤ plan.estimatedInputTokens ∧ plan.estimatedInputTokens ≤ 1000000
  reserved : 1 ≤ plan.reservedOutputTokens ∧ plan.reservedOutputTokens ≤ 1000000
  planned : plan.plannedToolCalls ≤ 64
  thinking : plan.thinkingLevel = plan.reasoningClass.thinking
  requirement : plan.modelRequirement = plan.reasoningClass.requirement
  /-- several calls are heavy, and nothing else is -/
  heavy : plan.reasoningClass = .toolHeavy ↔ 1 < plan.plannedToolCalls
  /-- titles and compactions are simple, unless they are heavy -/
  simple : plan.taskType = .conversationTitle ∨ plan.taskType = .contextCompaction →
    plan.reasoningClass = .simple ∨ plan.reasoningClass = .toolHeavy
  length : plan.candidateProfiles.length ≤ MAX_ASSISTANT_MODEL_CANDIDATES
  profileIds : (plan.candidateProfiles.map (·.profileId)).Nodup
  valid : ∀ p ∈ plan.candidateProfiles, p.Valid
  fits : ∀ p ∈ plan.candidateProfiles, (plan.requiredContextTokens : ℤ) ≤ p.contextLimit
  calls : ∀ p ∈ plan.candidateProfiles, plan.plannedToolCalls = 0 ∨ p.supportsFunctionCalling = true
  thinks : ∀ p ∈ plan.candidateProfiles, plan.reasoningClass = .simple ∨ p.supportsThinking = true
  large : ∀ p ∈ plan.candidateProfiles, plan.reasoningClass = .simple ∨ p.capacityClass = .large

theorem classify_heavy {task : TaskType} {userText : String} {toolCalls : ℕ} :
    classifyAssistantReasoning fold task userText toolCalls = .toolHeavy ↔ 1 < toolCalls := by
  unfold classifyAssistantReasoning
  by_cases hcalls : 1 < toolCalls
  · simp [hcalls]
  · rw [if_neg hcalls]
    simp only [hcalls, iff_false]
    split
    · simp
    · split
      · simp
      · split
        · simp
        · simp

theorem classify_simple {task : TaskType} {userText : String} {toolCalls : ℕ}
    (h : task = .conversationTitle ∨ task = .contextCompaction) :
    classifyAssistantReasoning fold task userText toolCalls = .simple ∨
      classifyAssistantReasoning fold task userText toolCalls = .toolHeavy := by
  unfold classifyAssistantReasoning
  split
  · exact .inr rfl
  · refine .inl (if_pos ?_)
    rcases h with rfl | rfl
    · simp
    · simp

theorem requirement_eq_small {r : ReasoningClass} : r.requirement = .smallPreferred ↔ r = .simple := by
  cases r <;> simp [ReasoningClass.requirement]

theorem mem_candidates {reasoning : ReasoningClass} {available : List ModelProfile} {p : ModelProfile}
    (h : p ∈ candidates reasoning available) :
    p ∈ available ∧ (reasoning = .simple ∨ p.capacityClass = .large) := by
  unfold candidates at h
  split at h
  · simp only [List.mem_filter, decide_eq_true_eq] at h
    exact ⟨h.1, .inr h.2⟩
  · next hsmall =>
    refine ⟨?_, .inl (requirement_eq_small.1 hsmall)⟩
    simp only [List.mem_append, List.mem_filter] at h
    rcases h with h | h
    · exact h.1
    · exact h.1

/-- The candidates are different profiles. -/
theorem candidates_nodup {reasoning : ReasoningClass} {available : List ModelProfile}
    (h : (available.map (·.profileId)).Nodup) : ((candidates reasoning available).map (·.profileId)).Nodup := by
  unfold candidates
  split
  · exact (List.filter_sublist.map _).nodup h
  · have hlarge : (available.filter fun p => decide (p.capacityClass = .large)) =
        available.filter fun p => !decide (p.capacityClass = .small) := by
      refine List.filter_congr fun p _ => ?_
      cases p.capacityClass
      · rfl
      · rfl
    rw [hlarge]
    exact ((List.filter_append_perm _ available).map _).nodup_iff.2 h

/-- **What holds of every plan.** -/
theorem plan_sound {c : PlanCall} {plan : RoutePlan} (h : planAssistantRoute fold c = .ok plan) : plan.Sound := by
  unfold planAssistantRoute at h
  cases htask : TaskType.ofText c.taskType with
  | error e => simp [htask, bind, Except.bind] at h
  | ok task =>
    cases hinput : strictInteger "estimated_input_tokens" 1 1000000 c.estimatedInputTokens with
    | error e => simp [htask, hinput, bind, Except.bind] at h
    | ok inputTokens =>
      cases houtput : strictInteger "reserved_output_tokens" 1 1000000 c.reservedOutputTokens with
      | error e => simp [htask, hinput, houtput, bind, Except.bind] at h
      | ok outputTokens =>
        cases hcalls : strictInteger "planned_tool_calls" 0 64 c.plannedToolCalls with
        | error e => simp [htask, hinput, houtput, hcalls, bind, Except.bind] at h
        | ok toolCalls =>
          cases hprofiles : validatedProfiles c.profiles with
          | error e => simp [htask, hinput, houtput, hcalls, hprofiles, bind, Except.bind] at h
          | ok profiles =>
            simp only [htask, hinput, houtput, hcalls, hprofiles, bind, Except.bind] at h
            split at h
            · cases h
            · cases h
              obtain ⟨rfl, hvalid, hids, -⟩ := validatedProfiles_ok hprofiles
              have hin := strictInteger_ok hinput (by decide)
              have hout := strictInteger_ok houtput (by decide)
              have hplanned := strictInteger_ok hcalls le_rfl
              have hmem : ∀ p ∈ (candidates (classifyAssistantReasoning fold task c.userText toolCalls)
                  (c.profiles.filter fun p => p.available (classifyAssistantReasoning fold task c.userText toolCalls)
                    toolCalls (inputTokens + outputTokens))).take MAX_ASSISTANT_MODEL_CANDIDATES,
                  p ∈ c.profiles ∧ p.available (classifyAssistantReasoning fold task c.userText toolCalls) toolCalls
                    (inputTokens + outputTokens) = true ∧
                  (classifyAssistantReasoning fold task c.userText toolCalls = .simple ∨ p.capacityClass = .large) := by
                intro p hp
                obtain ⟨hmem, hlarge⟩ := mem_candidates (List.mem_of_mem_take hp)
                exact ⟨(List.mem_filter.1 hmem).1, (List.mem_filter.1 hmem).2, hlarge⟩
              simp only [ModelProfile.available, Bool.and_eq_true, Bool.or_eq_true, decide_eq_true_eq] at hmem
              constructor
              · rfl
              · exact ⟨by exact_mod_cast hin.1, by exact_mod_cast hin.2⟩
              · exact ⟨by exact_mod_cast hout.1, by exact_mod_cast hout.2⟩
              · exact_mod_cast hplanned.2
              · rfl
              · rfl
              · exact classify_heavy fold
              · exact classify_simple fold
              · exact List.length_take_le _ _
              · refine ((List.take_sublist _ _).map _).nodup (candidates_nodup ?_)
                exact (List.filter_sublist.map _).nodup hids
              · exact fun p hp => hvalid p (hmem p hp).1
              · exact fun p hp => (hmem p hp).2.1.1.1.2
              · exact fun p hp => (hmem p hp).2.1.1.2
              · intro p hp
                rcases (hmem p hp).2.1.2 with hminimal | hthinks
                · left
                  revert hminimal
                  cases classifyAssistantReasoning fold task c.userText toolCalls <;> simp [ReasoningClass.thinking]
                · exact .inr hthinks
              · exact fun p hp => (hmem p hp).2.2

end Xauusd.Routing
