/-
  A routing receipt and its reader.

  * `Route.provenance`: what a receipt says;
  * `read_texts`, `budget_valid`, `capacity_valid`: the stages of the reader, on
    the receipt of a selection;
  * `consistent_iff`: the decision of the policy;
  * `parse_receipt`: the reader on the receipt of a selection;
  * `receipt_parsed_iff`: **the reader accepts the receipt of a success, as it
    is, if and only if the task is a chat or no calls were planned**.
-/
import Xauusd.Pool.TokenCeiling
import Xauusd.Routing.Parse
import Xauusd.Routing.Selected

namespace Xauusd.Routing

variable {numberText : BitVec 64 → String}

/-! ## Texts without spaces -/

theorem jsSpace_of_printable {c : Char} (h : 33 ≤ c.toNat ∧ c.toNat ≤ 126) : Text.jsSpace c = false := by
  simp only [Text.jsSpace, Bool.or_eq_false_iff, decide_eq_false_iff_not, Bool.and_eq_false_iff, List.mem_cons,
    List.not_mem_nil, or_false]
  omega

theorem le_toNat {a c : Char} (h : a ≤ c) : a.toNat ≤ c.toNat := UInt32.le_iff_toNat_le.1 h

theorem alphanumeric_printable {c : Char} (h : alphanumeric c = true) : 33 ≤ c.toNat ∧ c.toNat ≤ 126 := by
  simp only [alphanumeric, Bool.or_eq_true, Bool.and_eq_true, decide_eq_true_eq] at h
  have hbounds : ('A'.toNat = 65 ∧ 'Z'.toNat = 90) ∧ ('a'.toNat = 97 ∧ 'z'.toNat = 122) ∧
      '0'.toNat = 48 ∧ '9'.toNat = 57 := by decide
  rcases h with (⟨hlow, hhigh⟩ | ⟨hlow, hhigh⟩) | ⟨hlow, hhigh⟩
  · have := le_toNat hlow
    have := le_toNat hhigh
    omega
  · have := le_toNat hlow
    have := le_toNat hhigh
    omega
  · have := le_toNat hlow
    have := le_toNat hhigh
    omega

/-- A text that trimming leaves as it is. -/
def Plain (s : String) : Prop := ∀ c ∈ s.toList, Text.jsSpace c = false

instance decidablePlain (s : String) : Decidable (Plain s) := List.decidableBAll _ s.toList

theorem plain_identifier {others : List Char} {n : ℕ} {s : String}
    (hothers : others.all (!Text.jsSpace ·) = true) (h : identifier others n s = true) : Plain s := by
  unfold identifier at h
  unfold Plain
  split at h
  · cases h
  · next c cs hs =>
    simp only [Bool.and_eq_true, List.all_eq_true, Bool.or_eq_true, decide_eq_true_eq] at h
    rw [hs]
    refine List.forall_mem_cons.2 ⟨jsSpace_of_printable (alphanumeric_printable h.1.1), fun c hc => ?_⟩
    rcases h.1.2 c hc with hc | hc
    · exact jsSpace_of_printable (alphanumeric_printable hc)
    · simpa using List.all_eq_true.1 hothers c hc

theorem plain_profileId {s : String} (h : isProfileId s = true) : Plain s := plain_identifier (by decide) h

theorem plain_modelId {s : String} (h : isModelId s = true) : Plain s := plain_identifier (by decide) h

theorem trimmed_plain {s : String} (h : Plain s) : trimmed numberText (.str s) = .ok s := by
  simp only [trimmed, Projection.coerced, Projection.jsText, Text.jsTrim, Text.trimBy_eq_self h]

theorem trimmedItems_plain {texts : List String} (h : ∀ s ∈ texts, Plain s) :
    trimmedItems numberText (texts.map .str) = .ok texts := by
  induction texts with
  | nil => rfl
  | cons s texts ih =>
    obtain ⟨hs, htexts⟩ := List.forall_mem_cons.1 h
    simp only [List.map_cons, trimmedItems, trimmed_plain hs, ih htexts, bind, Except.bind, pure, Except.pure]

theorem plain_task (t : TaskType) : Plain t.value := by
  cases t <;> decide

theorem plain_reasoning (r : ReasoningClass) : Plain r.value := by
  cases r <;> decide

theorem plain_thinking (t : ThinkingLevel) : Plain t.value ∧ Plain t.lower := by
  cases t <;> decide

theorem plain_requirement (m : ModelRequirement) : Plain m.value := by
  cases m <;> decide

theorem plain_capacityClass (c : CapacityClass) : Plain c.value := by
  cases c <;> decide

theorem plain_priority (p : Pool.ServicePriority) : Plain (servicePriorityText p) := by
  cases p <;> decide

/-! ## Numbers -/

theorem boundedInteger_ofInt {n minimum maximum : ℤ} (hminimum : minimum ≤ n) (hmaximum : n ≤ maximum)
    (hnonneg : 0 ≤ n) (hsafe : maximum < 2 ^ 53) : boundedInteger (Binary64.ofInt n) minimum maximum = true := by
  have habs : n.natAbs < 2 ^ 53 := by omega
  simp only [boundedInteger, Binary64.isFinite_ofInt habs, Binary64.value_ofInt habs, Rat.den_intCast, Bool.true_and,
    decide_true, Bool.and_eq_true, decide_eq_true_eq, Int.cast_le]
  exact ⟨hminimum, hmaximum⟩

theorem boundedInteger_count {n minimum maximum : ℕ} (h : minimum ≤ n ∧ n ≤ maximum) (hsafe : maximum < 2 ^ 53) :
    boundedInteger (Binary64.ofInt n) minimum maximum = true :=
  boundedInteger_ofInt (by exact_mod_cast h.1) (by exact_mod_cast h.2) (Int.natCast_nonneg n) (by exact_mod_cast hsafe)

theorem value_count {n : ℕ} (h : n < 2 ^ 53) : Binary64.value (Binary64.ofInt n) = n := by
  rw [Binary64.value_ofInt (by simpa using h), Int.cast_natCast]

/-! ## What a receipt says -/

/-- `provider_thinking_level` of a candidate -/
def RoutePlan.level (plan : RoutePlan) (profile : ModelProfile) : Option String :=
  if profile.supportsThinking then some plan.thinkingLevel.lower else none

def RoutePlan.texts (plan : RoutePlan) (profile : ModelProfile) : RouteTexts where
  policyVersion := plan.policyVersion
  taskType := plan.taskType.value
  reasoningClass := plan.reasoningClass.value
  thinkingLevel := plan.thinkingLevel.value
  providerThinkingLevel := plan.level profile
  modelRequirement := plan.modelRequirement.value
  selectedProfileId := profile.profileId
  selectedModelId := profile.modelId
  provider := profile.provider
  capacityClass := profile.capacityClass.value

def RoutePlan.budget (plan : RoutePlan) (profile : ModelProfile) : TokenBudget where
  estimatedInputTokens := Binary64.ofInt plan.estimatedInputTokens
  reservedOutputTokens := Binary64.ofInt plan.reservedOutputTokens
  requiredContextTokens := Binary64.ofInt plan.requiredContextTokens
  plannedToolCalls := Binary64.ofInt plan.plannedToolCalls
  contextLimit := Binary64.ofInt profile.contextLimit.toNat

namespace Route
variable (r : Route)

def capacityProvenance (policy : CapacityPolicy) (credential : ApiCredential) (attempts profileIndex : ℕ) :
    CapacityProvenance where
  policyVersion := ASSISTANT_CAPACITY_POLICY_VERSION
  servicePriority := servicePriorityText r.priority
  selectedPoolFingerprint := credentialPoolFingerprint policy.credentialPoolId
  selectedPoolType := credential.pool
  candidatePoolCount := Binary64.ofInt r.candidatePools.length
  candidatePairCount := Binary64.ofInt r.candidatePairs.length
  attemptCount := Binary64.ofInt attempts
  estimatedInputTokens := Binary64.ofInt r.plan.estimatedInputTokens
  softCapBasisPoints := Binary64.ofInt policy.softCapBasisPoints
  maxInFlight := Binary64.ofInt policy.maxInFlight
  policySource := policy.source
  modelFallbackUsed := .bool (decide (0 < profileIndex))

def provenance (profile : ModelProfile) (policy : CapacityPolicy) (credential : ApiCredential)
    (attempts profileIndex : ℕ) : Provenance where
  toRouteTexts := r.plan.texts profile
  toTokenBudget := r.plan.budget profile
  candidateProfileIds := r.plan.candidateProfiles.map (·.profileId)
  supportsThinking := .bool profile.supportsThinking
  supportsFunctionCalling := .bool profile.supportsFunctionCalling
  supportsStreaming := .bool profile.supportsStreaming
  capacity := r.capacityProvenance policy credential attempts profileIndex

end Route

section
variable {r : Route} {profile : ModelProfile} {policy : CapacityPolicy} {credential : ApiCredential}
  {attempts profileIndex : ℕ}

theorem mem_of_selected (h : r.Selected profile policy credential attempts profileIndex) :
    profile ∈ r.plan.candidateProfiles := List.mem_of_getElem? h.profile

/-- The receipt of a selection. -/
theorem receipt_eq (hplan : r.plan.Sound) (h : r.Selected profile policy credential attempts profileIndex) :
    r.receipt profile policy credential attempts profileIndex =
      .ok (r.provenance profile policy credential attempts profileIndex).json := by
  have hmem := mem_of_selected h
  have hlevel : providerThinkingLevel r.plan profile = .ok (r.plan.level profile) := by
    cases hthinks : profile.supportsThinking <;> simp [providerThinkingLevel, RoutePlan.level, hmem, hthinks]
  simp only [Route.receipt, routingProvenance, hmem, not_true_eq_false, if_false, hlevel, hplan.policyVersion,
    bind, Except.bind, pure, Except.pure, ne_eq]
  simp only [Route.capacity, Route.provenance, Route.capacityProvenance, RoutePlan.texts, RoutePlan.budget,
    Provenance.json, CapacityProvenance.json, count, hplan.policyVersion, List.map_map, Function.comp_def,
    List.cons_append, List.nil_append]

/-! ## The stages of the reader -/

theorem read_texts (hplan : r.plan.Sound) (h : r.Selected profile policy credential attempts profileIndex) :
    RouteTexts.read numberText (r.provenance profile policy credential attempts profileIndex).json =
      .ok (r.plan.texts profile) := by
  have hvalid := hplan.valid profile (mem_of_selected h)
  have hprovider : Plain profile.provider := by
    have hmem := hvalid.provider
    simp only [INSTALLED_ASSISTANT_PROVIDERS, List.mem_cons, List.not_mem_nil, or_false] at hmem
    rcases hmem with hmem | hmem
    · rw [hmem]
      decide
    · rw [hmem]
      decide
  have hpolicy : Plain r.plan.policyVersion := by
    rw [hplan.policyVersion]
    decide
  have hlevel : trimmedOrNull numberText (optional (r.plan.level profile)) = .ok (r.plan.level profile) := by
    unfold RoutePlan.level
    split
    · simp [optional, trimmedOrNull, trimmed_plain (plain_thinking _).2, Except.map]
    · simp [optional, trimmedOrNull]
  simp only [RouteTexts.read, Provenance.json, Route.provenance, RoutePlan.texts, Json.get, List.lookup]
  simp [hlevel, trimmed_plain hpolicy, trimmed_plain (plain_task _), trimmed_plain (plain_reasoning _),
    trimmed_plain (plain_thinking _).1, trimmed_plain (plain_requirement _),
    trimmed_plain (plain_profileId hvalid.profileId), trimmed_plain (plain_modelId hvalid.modelId),
    trimmed_plain hprovider, trimmed_plain (plain_capacityClass _), bind, Except.bind, pure, Except.pure]

theorem texts_valid (hplan : r.plan.Sound) (h : r.Selected profile policy credential attempts profileIndex) :
    (r.plan.texts profile).valid (some r.plan.taskType.value) = true := by
  have hvalid := hplan.valid profile (mem_of_selected h)
  have hcurrent : (r.plan.texts profile).currentPolicy = true := by
    simp [RouteTexts.currentPolicy, RoutePlan.texts, hplan.policyVersion]
  have htask : r.plan.taskType.value ∈ tasks := by
    cases r.plan.taskType <;> decide
  have hreasoning : r.plan.reasoningClass.value ∈ ["SIMPLE", "ANALYTICAL", "TOOL_HEAVY"] := by
    cases r.plan.reasoningClass <;> decide
  have hthinking : r.plan.thinkingLevel.value ∈ ["MINIMAL", "HIGH"] := by
    cases r.plan.thinkingLevel <;> decide
  have hlevel : (r.plan.level profile).all (· ∈ ["minimal", "high"]) = true := by
    unfold RoutePlan.level
    split
    · cases r.plan.thinkingLevel <;> decide
    · rfl
  have hrequirement : r.plan.modelRequirement.value ∈ ["SMALL_PREFERRED", "LARGE_REQUIRED"] := by
    cases r.plan.modelRequirement <;> decide
  have hprovider : isProvider profile.provider = true := by
    have hmem := hvalid.provider
    simp only [INSTALLED_ASSISTANT_PROVIDERS, List.mem_cons, List.not_mem_nil, or_false] at hmem
    rcases hmem with hmem | hmem
    · rw [hmem]
      decide
    · rw [hmem]
      decide
  have hclass : profile.capacityClass.value ∈ ["SMALL", "LARGE"] := by
    cases profile.capacityClass <;> decide
  simp only [RouteTexts.valid, hcurrent, Bool.true_or, if_true, Bool.true_and, Option.all_some, Bool.and_eq_true,
    decide_eq_true_eq]
  exact ⟨⟨⟨⟨⟨⟨⟨⟨⟨⟨htask, rfl⟩, hreasoning⟩, hthinking⟩, hlevel⟩, hrequirement⟩, hvalid.profileId⟩, hvalid.modelId⟩,
    hprovider⟩, hvalid.provider⟩, hclass⟩

theorem candidates_valid (hplan : r.plan.Sound) (h : r.Selected profile policy credential attempts profileIndex) :
    (r.plan.texts profile).validCandidates (r.plan.candidateProfiles.map (·.profileId)) = true := by
  simp only [RouteTexts.validCandidates, Bool.and_eq_true, List.all_eq_true, decide_eq_true_eq]
  refine ⟨⟨?_, hplan.profileIds⟩, List.mem_map_of_mem (mem_of_selected h)⟩
  intro id hid
  obtain ⟨p, hp, rfl⟩ := List.mem_map.1 hid
  exact (hplan.valid p hp).profileId

theorem budget_valid (hplan : r.plan.Sound) (h : r.Selected profile policy credential attempts profileIndex) :
    (r.plan.budget profile).valid = true := by
  have hmem := mem_of_selected h
  obtain ⟨hlimit, hlimit'⟩ := (hplan.valid profile hmem).contextLimit
  have hfits := hplan.fits profile hmem
  have hestimated := hplan.estimated
  have hreserved := hplan.reserved
  have hplanned := hplan.planned
  have hrequired : 2 ≤ r.plan.requiredContextTokens ∧ r.plan.requiredContextTokens ≤ 1000000 := by
    constructor
    · unfold RoutePlan.requiredContextTokens
      omega
    · omega
  have hcontext : 1024 ≤ profile.contextLimit.toNat ∧ profile.contextLimit.toNat ≤ 1000000 := by omega
  have hle : r.plan.requiredContextTokens ≤ profile.contextLimit.toNat := by omega
  simp only [TokenBudget.valid, Bool.and_eq_true, decide_eq_true_eq]
  simp only [RoutePlan.budget]
  rw [value_count (by omega), value_count (by omega), value_count (by omega), value_count (by omega)]
  refine ⟨⟨⟨⟨⟨⟨?_, ?_⟩, ?_⟩, ?_⟩, ?_⟩, ?_⟩, ?_⟩
  · exact boundedInteger_count hestimated (by decide)
  · exact boundedInteger_count hreserved (by decide)
  · exact boundedInteger_count hrequired (by decide)
  · exact boundedInteger_count ⟨Nat.zero_le _, hplanned⟩ (by decide)
  · exact boundedInteger_count hcontext (by decide)
  · rw [RoutePlan.requiredContextTokens, Nat.cast_add]
  · exact_mod_cast hle

theorem fingerprint_valid (poolId : String) :
    isPoolFingerprint (credentialPoolFingerprint poolId) = true := by
  have hdigest := isSha256Hex_sha256 (ASSISTANT_CAPACITY_POLICY_VERSION ++ ":" ++ poolId)
  simp only [Text.isSha256Hex, Bool.and_eq_true, decide_eq_true_eq, List.all_eq_true] at hdigest
  simp only [isPoolFingerprint, credentialPoolFingerprint, String.toList_ofList, List.length_take, hdigest.1,
    Bool.and_eq_true, decide_eq_true_eq, List.all_eq_true]
  exact ⟨by decide, fun c hc => hdigest.2 c (List.mem_of_mem_take hc)⟩

theorem plain_fingerprint (poolId : String) : Plain (credentialPoolFingerprint poolId) := by
  have hvalid := fingerprint_valid poolId
  simp only [isPoolFingerprint, Bool.and_eq_true, List.all_eq_true, Bool.or_eq_true, decide_eq_true_eq] at hvalid
  intro c hc
  refine jsSpace_of_printable (alphanumeric_printable ?_)
  simp only [alphanumeric, Bool.or_eq_true, Bool.and_eq_true, decide_eq_true_eq]
  rcases hvalid.2 c hc with hdigit | hletter
  · exact .inr hdigit
  · exact .inl (.inr ⟨hletter.1, hletter.2.trans (by decide)⟩)

theorem read_capacity (hr : r.Sound) (h : r.Selected profile policy credential attempts profileIndex) :
    CapacityProvenance.read numberText (r.capacityProvenance policy credential attempts profileIndex).json =
      .ok (r.capacityProvenance policy credential attempts profileIndex) := by
  have hpool : Plain credential.pool := by
    have hmem := (Route.mem_eligible h.credential).2.1
    simp only [List.mem_cons, List.not_mem_nil, or_false] at hmem
    rcases hmem with hmem | hmem
    · rw [hmem]
      decide
    · rw [hmem]
      decide
  have hsource : Plain policy.source := by
    have hmem := (hr.bounded policy h.policy).source
    simp only [List.mem_cons, List.not_mem_nil, or_false] at hmem
    rcases hmem with hmem | hmem
    · rw [hmem]
      decide
    · rw [hmem]
      decide
  have hversion : Plain ASSISTANT_CAPACITY_POLICY_VERSION := by decide
  simp only [CapacityProvenance.read, CapacityProvenance.json, Route.capacityProvenance, Json.get, List.lookup]
  simp [number, trimmed_plain hversion, trimmed_plain (plain_priority _), trimmed_plain (plain_fingerprint _),
    trimmed_plain hpool, trimmed_plain hsource, bind, Except.bind, pure, Except.pure]

/-- The place of a candidate is that of its id. -/
theorem idxOf_selected (hplan : r.plan.Sound) (h : r.Selected profile policy credential attempts profileIndex) :
    (r.plan.candidateProfiles.map (·.profileId)).idxOf profile.profileId = profileIndex := by
  obtain ⟨hlt, hget⟩ := List.getElem?_eq_some_iff.1 h.profile
  have hindex := hplan.profileIds.idxOf_getElem profileIndex (by simpa using hlt)
  rwa [List.getElem_map, hget] at hindex

theorem capacity_valid (hplan : r.plan.Sound) (hr : r.Sound)
    (h : r.Selected profile policy credential attempts profileIndex) :
    (r.capacityProvenance policy credential attempts profileIndex).valid (Binary64.ofInt r.plan.estimatedInputTokens)
      (decide (0 < profileIndex)) = true := by
  obtain ⟨-, hpool, hbackground⟩ := Route.mem_eligible h.credential
  have hbounded := hr.bounded policy h.policy
  have hpools := Route.candidatePools_length hr
  have hpairs := Route.candidatePairs_length hr
  have hpos := Route.candidatePools_pos hr
  have hle := r.candidatePools_le
  simp only [MAX_ASSISTANT_CREDENTIAL_POOLS] at hpools
  simp only [MAX_CAPACITY_POLICIES] at hpairs
  have hpriority : servicePriorityText r.priority ∈ ["INTERACTIVE", "BACKGROUND"] := by
    cases r.priority <;> decide
  simp only [CapacityProvenance.valid, Bool.and_eq_true, decide_eq_true_eq, Bool.not_eq_true', Bool.and_eq_false_iff,
    decide_eq_false_iff_not]
  simp only [Route.capacityProvenance, isBoolean, true_and, and_true]
  rw [value_count (by omega), value_count (by omega)]
  refine ⟨⟨⟨⟨⟨⟨⟨⟨⟨⟨⟨hpriority, fingerprint_valid _⟩, hpool⟩, hbounded.source⟩, ?_⟩, ?_⟩, ?_⟩, ?_⟩, ?_⟩, ?_⟩, ?_⟩, ?_⟩
  · exact boundedInteger_count ⟨hpos, hpools⟩ (by decide)
  · exact boundedInteger_count ⟨hpos.trans hle, hpairs⟩ (by decide)
  · exact boundedInteger_count h.attempts (by decide)
  · exact boundedInteger_count hplan.estimated (by decide)
  · exact boundedInteger_count hbounded.softCap (by decide)
  · exact boundedInteger_count hbounded.maxInFlight (by decide)
  · exact_mod_cast hle
  · cases hp : r.priority with
    | interactive => exact .inl (by decide)
    | background => exact .inr (not_not.2 (hbackground hp))

/-! ## The decision of the policy -/

/-- The decision, of a current policy: only the calls of a task that is not a
    chat are refused. -/
theorem consistent_iff (hplan : r.plan.Sound) (h : r.Selected profile policy credential attempts profileIndex) :
    (r.plan.texts profile).consistent (Binary64.value (Binary64.ofInt r.plan.plannedToolCalls))
        profile.supportsThinking profile.supportsFunctionCalling = true ↔
      r.plan.taskType = .assistantChat ∨ r.plan.plannedToolCalls = 0 := by
  have hmem := mem_of_selected h
  have hthinks := hplan.thinks profile hmem
  have hlarge := hplan.large profile hmem
  have hcalls := hplan.calls profile hmem
  have hheavy := hplan.heavy
  have hsimple := hplan.simple
  have hplanned := hplan.planned
  have hcurrent : (r.plan.texts profile).currentPolicy = true := by
    simp [RouteTexts.currentPolicy, RoutePlan.texts, hplan.policyVersion]
  have hlegacy : (r.plan.texts profile).legacyPolicy = false := by
    simp [RouteTexts.legacyPolicy, RoutePlan.texts, hplan.policyVersion, ASSISTANT_ROUTING_POLICY_VERSION,
      LEGACY_ASSISTANT_ROUTING_POLICY_VERSION]
  have hlevel : profile.supportsThinking = true → r.plan.level profile =
      some (Text.lower r.plan.thinkingLevel.value) := by
    intro hsupports
    simp only [RoutePlan.level, hsupports, if_true]
    cases r.plan.thinkingLevel <;> decide
  have hnone : profile.supportsThinking = false → r.plan.level profile = none := by
    intro hsupports
    simp [RoutePlan.level, hsupports]
  rw [value_count (by omega)]
  simp only [RouteTexts.consistent, RouteTexts.housekeeping, hcurrent, hlegacy, Bool.false_and, Bool.true_and,
    Bool.not_false, Bool.and_true]
  simp only [RoutePlan.texts, RouteTexts.loweredThinkingLevel, hplan.thinking, hplan.requirement] at hlevel ⊢
  cases hreasoning : r.plan.reasoningClass with
  | simple =>
    have hfew : ¬ 1 < r.plan.plannedToolCalls := fun hmany => by simpa [hreasoning] using hheavy.2 hmany
    rw [hreasoning] at hlevel
    cases htask : r.plan.taskType <;> cases hsupports : profile.supportsThinking <;>
      simp [ReasoningClass.value, ReasoningClass.thinking, ReasoningClass.requirement, ThinkingLevel.value,
        ModelRequirement.value, TaskType.value, hsupports, hlevel, hnone, hfew, hcalls]
  | analytical =>
    have hfew : ¬ 1 < r.plan.plannedToolCalls := fun hmany => by simpa [hreasoning] using hheavy.2 hmany
    have hsupports : profile.supportsThinking = true := hthinks.resolve_left (by simp [hreasoning])
    have hclass : profile.capacityClass = .large := hlarge.resolve_left (by simp [hreasoning])
    rw [hreasoning] at hlevel
    cases htask : r.plan.taskType <;>
      simp [ReasoningClass.value, ReasoningClass.thinking, ReasoningClass.requirement, ThinkingLevel.value,
        ModelRequirement.value, TaskType.value, CapacityClass.value, hsupports, hlevel, hclass, hfew, hcalls]
    · simp [htask, hreasoning] at hsimple
    · simp [htask, hreasoning] at hsimple
  | toolHeavy =>
    have hmany : 1 < r.plan.plannedToolCalls := hheavy.1 hreasoning
    have hsupports : profile.supportsThinking = true := hthinks.resolve_left (by simp [hreasoning])
    have hclass : profile.capacityClass = .large := hlarge.resolve_left (by simp [hreasoning])
    have hfunctions : profile.supportsFunctionCalling = true := hcalls.resolve_left (by omega)
    rw [hreasoning] at hlevel
    cases htask : r.plan.taskType <;>
      simp [ReasoningClass.value, ReasoningClass.thinking, ReasoningClass.requirement, ThinkingLevel.value,
        ModelRequirement.value, TaskType.value, CapacityClass.value, hsupports, hlevel, hclass, hmany, hfunctions]
    all_goals omega

/-! ## The reader on a receipt -/

/-- The reader on the receipt of a selection. -/
theorem parse_receipt (hplan : r.plan.Sound) (hr : r.Sound)
    (h : r.Selected profile policy credential attempts profileIndex) :
    parseAssistantRoutingProvenance numberText (r.provenance profile policy credential attempts profileIndex).json
        (some r.plan.taskType.value) =
      if r.plan.taskType = .assistantChat ∨ r.plan.plannedToolCalls = 0 then
        .ok (r.provenance profile policy credential attempts profileIndex)
      else .error "Assistant routing policy decision is inconsistent" := by
  have htexts : RouteTexts.read numberText (r.provenance profile policy credential attempts profileIndex).json =
      .ok (r.plan.texts profile) := read_texts hplan h
  have hids : trimmedItems numberText (r.plan.candidateProfiles.map fun p => .str p.profileId) =
      .ok (r.plan.candidateProfiles.map (·.profileId)) := by
    have hplain : ∀ s ∈ r.plan.candidateProfiles.map (·.profileId), Plain s := by
      intro s hs
      obtain ⟨p, hp, rfl⟩ := List.mem_map.1 hs
      exact plain_profileId (hplan.valid p hp).profileId
    have hitems : trimmedItems numberText ((r.plan.candidateProfiles.map (·.profileId)).map .str) =
        .ok (r.plan.candidateProfiles.map (·.profileId)) := trimmedItems_plain hplain
    rwa [List.map_map] at hitems
  have hbudget : TokenBudget.read (r.provenance profile policy credential attempts profileIndex).json =
      r.plan.budget profile := by
    simp [TokenBudget.read, Provenance.json, Route.provenance, RoutePlan.budget, number, Json.get, List.lookup]
  have hthinking : (r.provenance profile policy credential attempts profileIndex).json.get "supports_thinking" =
      .bool profile.supportsThinking := by
    simp [Provenance.json, Route.provenance, Json.get, List.lookup]
  have hcalling : (r.provenance profile policy credential attempts profileIndex).json.get
      "supports_function_calling" = .bool profile.supportsFunctionCalling := by
    simp [Provenance.json, Route.provenance, Json.get, List.lookup]
  have hstreaming : (r.provenance profile policy credential attempts profileIndex).json.get "supports_streaming" =
      .bool profile.supportsStreaming := by
    simp [Provenance.json, Route.provenance, Json.get, List.lookup]
  have hcandidates : (r.provenance profile policy credential attempts profileIndex).json.get
      "candidate_profile_ids" = .arr (r.plan.candidateProfiles.map fun p => .str p.profileId) := by
    simp [Provenance.json, Route.provenance, Json.get, List.lookup]
  have hcapacity : (r.provenance profile policy credential attempts profileIndex).json.get "capacity" =
      (r.capacityProvenance policy credential attempts profileIndex).json := by
    simp [Provenance.json, Route.provenance, Json.get, List.lookup]
  have hobject : (r.provenance profile policy credential attempts profileIndex).json.isObject = true := rfl
  have hobject' : (r.capacityProvenance policy credential attempts profileIndex).json.isObject = true := rfl
  have hlength : r.plan.candidateProfiles.length ≤ 8 := hplan.length
  have hne : r.plan.candidateProfiles ≠ [] := List.ne_nil_of_mem (mem_of_selected h)
  have hplace : (r.plan.candidateProfiles.map (·.profileId)).idxOf (r.plan.texts profile).selectedProfileId =
      profileIndex := idxOf_selected hplan h
  have hestimated : (r.plan.budget profile).estimatedInputTokens = Binary64.ofInt r.plan.estimatedInputTokens := rfl
  have hplanned : (r.plan.budget profile).plannedToolCalls = Binary64.ofInt r.plan.plannedToolCalls := rfl
  have htrue (b : Bool) : isTrue (.bool b) = b := by cases b <;> rfl
  simp only [parseAssistantRoutingProvenance, hobject, hobject', htexts, hthinking, hcalling, hstreaming, hcandidates,
    hcapacity, itemsOf, texts_valid hplan h, candidates_valid hplan h, isBoolean, hids, hbudget, budget_valid hplan h,
    read_capacity hr h, hplace, hestimated, hplanned, htrue, capacity_valid hplan hr h, ne_eq, List.map_eq_nil_iff, hne,
    List.length_map, hlength, bind, Except.bind, Bool.not_true, Bool.false_eq_true, if_false, not_false_eq_true,
    decide_true, Bool.and_self]
  by_cases hdecision : r.plan.taskType = .assistantChat ∨ r.plan.plannedToolCalls = 0
  · have hconsistent := (consistent_iff hplan h).2 hdecision
    simp only [hconsistent, hdecision, Bool.not_true, Bool.false_eq_true, if_false, if_true]
    rfl
  · have hinconsistent := mt (consistent_iff hplan h).1 hdecision
    rw [Bool.not_eq_true] at hinconsistent
    simp only [hinconsistent, hdecision, Bool.not_false, if_true, if_false]

end

/-- **The reader accepts the receipt of a success, as it is, if and only if the
    task is a chat or no calls were planned.** -/
theorem receipt_parsed_iff (numberText : BitVec 64 → String) (fold : String → String) {τ : Type} (P : Platform)
    (host : Host τ) (call : PlanCall) (plan : RoutePlan) (c : ExecuteCall) (db : Pool.PoolDb)
    (result : CapacityResult τ) (hplan : planAssistantRoute fold call = .ok plan) (hcall : c.plan = plan)
    (hresult : (executeAssistantCapacityRoute P host c db).1 = .ok result) :
    (∃ p, parseAssistantRoutingProvenance numberText result.routing (some plan.taskType.value) = .ok p ∧
      p.json = result.routing) ↔ plan.taskType = .assistantChat ∨ plan.plannedToolCalls = 0 := by
  unfold executeAssistantCapacityRoute at hresult
  split at hresult
  · cases hresult
  · next r hroute =>
    obtain ⟨hsame, hr⟩ := route_sound hroute
    obtain rfl : r.plan = plan := hsame.trans hcall
    have hsound := plan_sound fold hplan
    obtain ⟨profile, policy, credential, attempts, profileIndex, hselected, hreceipt⟩ := execute_selected hresult
    rw [receipt_eq hsound hselected, Except.ok.injEq] at hreceipt
    rw [← hreceipt, parse_receipt hsound hr hselected]
    split
    · next hdecision =>
      exact ⟨fun _ => hdecision, fun _ => ⟨_, rfl, rfl⟩⟩
    · next hdecision =>
      refine ⟨?_, fun hd => absurd hd hdecision⟩
      rintro ⟨p, hp, -⟩
      cases hp

/-! ## A task with a planned call -/

def sampleProfile : ModelProfile where
  profileId := "large-v1"
  modelId := "large-model"
  provider := GOOGLE_GENERATIVE_LANGUAGE
  contextLimit := 32768
  supportsThinking := true
  supportsFunctionCalling := true
  supportsStreaming := true
  capacityClass := .large
  enabled := true

/-- Why, with a call planned. -/
def samplePlanCall (task : TaskType) : PlanCall where
  taskType := task.value
  estimatedInputTokens := 1000
  reservedOutputTokens := 500
  userText := "why"
  plannedToolCalls := 1
  profiles := [sampleProfile]

def samplePlan (task : TaskType) : RoutePlan where
  policyVersion := ASSISTANT_ROUTING_POLICY_VERSION
  taskType := task
  reasoningClass := .analytical
  thinkingLevel := .high
  modelRequirement := .largeRequired
  estimatedInputTokens := 1000
  reservedOutputTokens := 500
  plannedToolCalls := 1
  candidateProfiles := [sampleProfile]

def sampleExecute (task : TaskType) : ExecuteCall where
  plan := samplePlan task
  credentials := [⟨"pool-a", ROUTINE_POOL, "key", "credential-a"⟩]
  servicePriority := "INTERACTIVE"
  policies := [⟨Pool.samplePolicy, GOOGLE_GENERATIVE_LANGUAGE, true, "CONFIGURED"⟩]
  now := IsoTime.hour

/-- A gateway that confirms the tokens that were reserved. -/
def sampleHost : Host Unit where
  beforeInvoke _ := none
  reservationId _ := "r1"
  reservedAt _ := IsoTime.hour
  finishedAt _ := IsoTime.hour + IsoTime.second
  invoke _ profile _ _ accountant db :=
    match accountant.reserve Platform.winter ⟨profile.modelId, "assistant", 900⟩ IsoTime.hour db with
    | (.ok true, accountant, db) => (.value (), accountant, db)
    | (_, accountant, db) => (.capacityExhausted, accountant, db)

def sampleRun (task : TaskType) : Except Raised (CapacityResult Unit) :=
  (executeAssistantCapacityRoute Platform.winter sampleHost (sampleExecute task) .empty).1

/-- The receipt of a chat is read as it is. -/
theorem receipt_parsed_chat : ∃ result, sampleRun .assistantChat = .ok result ∧
    ∃ p, parseAssistantRoutingProvenance (fun _ => "") result.routing (some "ASSISTANT_CHAT") = .ok p ∧
      p.json = result.routing := by
  have hplan : planAssistantRoute id (samplePlanCall .assistantChat) = .ok (samplePlan .assistantChat) := by
    decide
  have hok : (sampleRun .assistantChat).isOk = true := by decide
  cases hrun : sampleRun .assistantChat with
  | error e =>
    rw [hrun] at hok
    cases hok
  | ok result =>
    have hparsed := receipt_parsed_iff (fun _ => "") id Platform.winter sampleHost (samplePlanCall .assistantChat)
      (samplePlan .assistantChat) (sampleExecute .assistantChat) .empty result hplan rfl hrun
    exact ⟨result, rfl, hparsed.2 (.inl rfl)⟩

/-- **That of a question is refused.** -/
theorem receipt_refused_question :
    planAssistantRoute id (samplePlanCall .newsQa) = .ok (samplePlan .newsQa) ∧
      ∃ result, sampleRun .newsQa = .ok result ∧
        parseAssistantRoutingProvenance (fun _ => "") result.routing (some "NEWS_QA") =
          .error "Assistant routing policy decision is inconsistent" := by
  refine ⟨by decide, ?_⟩
  have hparse : (sampleRun .newsQa).map (fun result =>
      parseAssistantRoutingProvenance (fun _ => "") result.routing (some "NEWS_QA")) =
        .ok (.error "Assistant routing policy decision is inconsistent") := by
    decide +kernel
  cases hrun : sampleRun .newsQa with
  | error e =>
    rw [hrun] at hparse
    cases hparse
  | ok result =>
    rw [hrun] at hparse
    exact ⟨result, rfl, Except.ok.inj hparse⟩

end Xauusd.Routing
