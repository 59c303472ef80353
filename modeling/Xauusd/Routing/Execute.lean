/-
  The execution of a route (`assistant/capacity.py`): the candidates of a plan
  are tried in their order, each on the credential pools that have room for it,
  and the reply of the first that succeeds comes with a receipt.

  * `validatedCredentials`, `validatedCapacityPolicies`: the checks of the
    arguments;
  * `tryCredentials`, `tryPools`, `tryProfiles`: the loops of
    `execute_assistant_capacity_route`, from the inside;
  * `Route.receipt`: the receipt;
  * `executeAssistantCapacityRoute`.

  Reservations are those of the pool's database.  The clock, the ids drawn and
  the callbacks are numbered by the reservations that were tried before.  The
  policies are those given, or those configured: both are validated here.
-/
import Xauusd.Lib.Sha256
import Xauusd.Pool.Capacity
import Xauusd.Routing.Plan

namespace Xauusd.Routing

open Pool (PoolDb ServicePriority Reservation FinishReport Accountant capacitySnapshot reserveAssistantCapacity
  finishReservation)

def ASSISTANT_CAPACITY_POLICY_VERSION : String := "assistant-capacity-v1"

def PREEMPTIBLE_POOL : String := "PREEMPTIBLE"
def ROUTINE_POOL : String := "ROUTINE"

def MAX_ASSISTANT_CREDENTIAL_POOLS : ℕ := 16
def MAX_CREDENTIALS_PER_POOL : ℕ := 8
def MAX_CAPACITY_POLICIES : ℕ := 128
def MAX_ASSISTANT_CAPACITY_ATTEMPTS : ℕ := 128

/-! ## Credentials -/

structure ApiCredential where
  accountId : String
  pool : String
  apiKey : String
  credentialId : String
  deriving DecidableEq, Repr

/-- `_POOL_ID` -/
def isPoolId : String → Bool := identifier ['.', '_', ':', '@', '/', '-'] 127

/-- `_CREDENTIAL_ID` -/
def isCredentialId : String → Bool := identifier ['.', '_', ':', '-'] 95

/-- The first check of `_validated_credentials` that a credential fails after
    the earlier ones. -/
def ApiCredential.fault (earlier : List ApiCredential) (c : ApiCredential) : Option String :=
  if !isPoolId c.accountId then some "Assistant credential pool id is invalid"
  else if c.pool ∉ [PREEMPTIBLE_POOL, ROUTINE_POOL] then some "Assistant credential pool type is invalid"
  else if Text.strip c.apiKey = "" then some "Assistant credential reference is empty"
  else if !isCredentialId c.credentialId then some "Assistant credential fingerprint is invalid"
  else if (earlier.find? (·.accountId = c.accountId)).any (·.pool ≠ c.pool) then
    some "Assistant credential pool has inconsistent type"
  else if c.credentialId ∈ earlier.map (·.credentialId) then some "Assistant credential is duplicated"
  else none

def credentialsFault (earlier : List ApiCredential) : List ApiCredential → Option String
  | [] => none
  | c :: cs => (c.fault earlier).or (credentialsFault (earlier ++ [c]) cs)

/-- The pools of some credentials, in the order of their first ones. -/
def poolOrder (credentials : List ApiCredential) : List String := (credentials.map (·.accountId)).eraseDups

/-- `_validated_credentials` -/
def validatedCredentials (credentials : List ApiCredential) : Except Raised (List ApiCredential) :=
  if MAX_ASSISTANT_CREDENTIAL_POOLS * MAX_CREDENTIALS_PER_POOL < credentials.length then
    .error (.valueError "Assistant credential count is invalid")
  else
    match credentialsFault [] credentials with
    | some message => .error (.valueError message)
    | none =>
      if MAX_ASSISTANT_CREDENTIAL_POOLS < (poolOrder credentials).length then
        .error (.valueError "Assistant credential pool count is invalid")
      else if (poolOrder credentials).any fun pool =>
          decide (MAX_CREDENTIALS_PER_POOL < credentials.countP (·.accountId = pool)) then
        .error (.valueError "Assistant credential count per pool is invalid")
      else .ok credentials

/-! ## Policies -/

/-- `AssistantCapacityPolicy` -/
structure CapacityPolicy extends Pool.CapacityPolicy where
  provider : String
  enabled : Bool
  source : String
  deriving DecidableEq, Repr

/-- `_PROVIDER` -/
def isProvider (s : String) : Bool :=
  match s.toList with
  | [] => false
  | c :: cs => ('A' ≤ c && c ≤ 'Z') && cs.all (fun c => ('A' ≤ c && c ≤ 'Z') || ('0' ≤ c && c ≤ '9') || c = '_') &&
      decide (2 ≤ cs.length) && decide (cs.length ≤ 63)

/-- `_strict_integer`, of a field of a policy -/
def integerFault (field : String) (minimum maximum value : ℕ) : Option String :=
  if minimum ≤ value ∧ value ≤ maximum then none else some ("Assistant capacity " ++ field ++ " is invalid")

def CapacityPolicy.pair (policy : CapacityPolicy) : String × String := (policy.credentialPoolId, policy.modelId)

/-- The first check of `_validated_capacity_policies` that a policy fails. -/
def CapacityPolicy.fault (credentials : List ApiCredential) (profiles : List ModelProfile) (p : CapacityPolicy) :
    Option String :=
  if p.credentialPoolId ∉ credentials.map (·.accountId) then some "Assistant capacity policy names an unknown pool"
  else if !isProvider p.provider then some "Assistant capacity provider is invalid"
  else if !isModelId p.modelId then some "Assistant capacity model_id is invalid"
  else if (profiles.reverse.find? (·.modelId = p.modelId)).any (·.provider ≠ p.provider) then
    some "Assistant capacity provider does not match model"
  else if p.sharedModelIds = [] ∨ 16 < p.sharedModelIds.length ∨ p.modelId ∉ p.sharedModelIds ∨
      ¬ p.sharedModelIds.Nodup ∨ ¬ p.sharedModelIds.all isModelId then
    some "Assistant capacity shared_model_ids is invalid"
  else (integerFault "rpd_limit" 1 100000000 p.rpdLimit).or <|
    (integerFault "rpm_limit" 1 1000000 p.rpmLimit).or <|
    (integerFault "tpm_limit" 1 1000000000 p.tpmLimit).or <|
    (integerFault "soft_cap_basis_points" 1 10000 p.softCapBasisPoints).or <|
    (integerFault "max_in_flight" 1 1000 p.maxInFlight).or <|
    (integerFault "reservation_ttl_seconds" 30 3600 p.reservationTtlSeconds).or <|
    (integerFault "cooldown_seconds" 1 3600 p.cooldownSeconds).or <|
    (integerFault "failure_cooldown_threshold" 1 20 p.failureCooldownThreshold).or <|
    if p.source ∈ ["CONFIGURED", "REGISTRY_DEFAULT"] then none else some "Assistant capacity policy source is invalid"

/-- `_validated_capacity_policies` -/
def validatedCapacityPolicies (policies : List CapacityPolicy) (credentials : List ApiCredential)
    (profiles : List ModelProfile) : Except Raised (List CapacityPolicy) :=
  if MAX_CAPACITY_POLICIES < policies.length then .error (.valueError "Assistant capacity policy count is invalid")
  else
    match policies.findSome? (CapacityPolicy.fault credentials profiles) with
    | some message => .error (.valueError message)
    | none =>
      if ¬ (policies.map CapacityPolicy.pair).Nodup then
        .error (.valueError "Assistant capacity policies contain duplicate pairs")
      else .ok policies

/-! ## Receipts -/

/-- `credential_pool_fingerprint` -/
def credentialPoolFingerprint (poolId : String) : String :=
  String.ofList ((sha256 (ASSISTANT_CAPACITY_POLICY_VERSION ++ ":" ++ poolId)).toList.take 16)

/-- `AssistantServicePriority` -/
def servicePriorityText : ServicePriority → String
  | .interactive => "INTERACTIVE"
  | .background => "BACKGROUND"

/-- What the loops of one execution share. -/
structure Route where
  plan : RoutePlan
  priority : ServicePriority
  credentials : List ApiCredential
  policies : List CapacityPolicy
  instant : ℤ

namespace Route
variable (r : Route)

/-- `_eligible_credentials` -/
def eligible : List ApiCredential :=
  match r.priority with
  | .background => r.credentials.filter (·.pool = ROUTINE_POOL)
  | .interactive => r.credentials.filter fun c => c.pool ∈ [PREEMPTIBLE_POOL, ROUTINE_POOL]

/-- `by_pool` and `pool_order` -/
def pools : List String := poolOrder r.eligible

def byPool (poolId : String) : List ApiCredential := r.eligible.filter (·.accountId = poolId)

/-- `policy_by_pair` -/
def policyByPair (poolId modelId : String) : Option CapacityPolicy :=
  r.policies.find? fun p => p.enabled && p.pair = (poolId, modelId)

/-- `candidate_pairs` -/
def candidatePairs : List (String × String) :=
  (r.plan.candidateProfiles.flatMap fun profile =>
    (r.pools.filter fun pool => (r.policyByPair pool profile.modelId).isSome).map fun pool =>
      (pool, profile.modelId)).dedup

def candidatePools : List String := (r.candidatePairs.map (·.1)).dedup

/-- `route["capacity"]` -/
def capacity (policy : CapacityPolicy) (credential : ApiCredential) (attempts profileIndex : ℕ) : Json :=
  .obj [("policy_version", .str ASSISTANT_CAPACITY_POLICY_VERSION),
    ("service_priority", .str (servicePriorityText r.priority)),
    ("selected_pool_fingerprint", .str (credentialPoolFingerprint policy.credentialPoolId)),
    ("selected_pool_type", .str credential.pool),
    ("candidate_pool_count", count r.candidatePools.length),
    ("candidate_pair_count", count r.candidatePairs.length),
    ("attempt_count", count attempts),
    ("estimated_input_tokens", count r.plan.estimatedInputTokens),
    ("soft_cap_basis_points", count policy.softCapBasisPoints),
    ("max_in_flight", count policy.maxInFlight),
    ("policy_source", .str policy.source),
    ("model_fallback_used", .bool (decide (0 < profileIndex)))]

/-- The receipt of a success. -/
def receipt (profile : ModelProfile) (policy : CapacityPolicy) (credential : ApiCredential)
    (attempts profileIndex : ℕ) : Except Raised Json := do
  let route ← routingProvenance r.plan profile
  if r.plan.policyVersion ≠ ASSISTANT_ROUTING_POLICY_VERSION then
    .error (.valueError "Assistant model routing policy is incompatible")
  else
    return .obj (route ++ [("capacity", r.capacity policy credential attempts profileIndex)])

end Route

/-! ## The loops -/

/-- What a call of `invoke` comes to. -/
inductive Invocation (τ : Type) where
  | value (v : τ)
  /-- `ModelGatewayCapacityExhausted` -/
  | capacityExhausted
  | httpError (status : ℤ)
  /-- `URLError`, `TimeoutError` -/
  | transportError
  | raised (error : Raised)

/-- The callbacks, the clock and the ids drawn. -/
structure Host (τ : Type) where
  beforeInvoke : ℕ → Option Raised
  reservationId : ℕ → String
  reservedAt : ℕ → ℤ
  finishedAt : ℕ → ℤ
  invoke : ℕ → ModelProfile → ApiCredential → Option String → Accountant → PoolDb →
    Invocation τ × Accountant × PoolDb

/-- `AssistantCapacityResult` -/
structure CapacityResult (τ : Type) where
  value : τ
  profile : ModelProfile
  routing : Json
  deriving DecidableEq, Repr

structure LoopState where
  db : PoolDb
  /-- the reservations tried -/
  calls : ℕ
  attempts : ℕ
  sawCapacityPressure : Bool
  lastRetryableError : Option Raised

/-- A loop goes on, or the function ends in it. -/
inductive Loop (τ : Type) where
  | go (state : LoopState)
  | stop (outcome : Except Raised (CapacityResult τ)) (db : PoolDb)

/-- An exception of the pool's functions. -/
def ofPool : Scheduler.Raised → Raised
  | .valueError message => .valueError message
  | .integrityError => .other "IntegrityError"
  | .retryScheduleConflict _ _ => .other "RetryScheduleConflict"
  | .typeError => .other "TypeError"

section
variable {τ : Type} (P : Platform) (host : Host τ) (r : Route)

/-- `_finish_reservation`, and what follows it. -/
def finishThen (reservation : Reservation) (report : FinishReport) (st : LoopState)
    (next : LoopState → Loop τ) : Loop τ :=
  match finishReservation reservation report st.db with
  | (.error e, db) => .stop (.error (ofPool e)) db
  | (.ok (), db) => next { st with db := db }

def retryableStatuses : List ℤ := [401, 403, 429, 500, 502, 503, 504]

/-- What follows a call of `invoke`; `retry` are the other credentials of the
    pool. -/
def settle (profileIndex : ℕ) (profile : ModelProfile) (policy : CapacityPolicy) (credential : ApiCredential)
    (reservation : Reservation) (now : ℤ) (st : LoopState) (retry : LoopState → Loop τ) : Invocation τ → Loop τ
  | .value v => finishThen reservation ⟨.succeeded, now, none, none, false⟩ st fun st =>
      .stop ((r.receipt profile policy credential st.attempts profileIndex).map fun routing => ⟨v, profile, routing⟩)
        st.db
  | .capacityExhausted =>
    finishThen reservation ⟨.capacityRejected, now, none, some "EXACT_TOKEN_CAPACITY_REJECTED", false⟩ st fun st =>
      .go { st with sawCapacityPressure := true }
  | .httpError status =>
    let retryable := decide (status ∈ retryableStatuses)
    finishThen reservation
      ⟨if status = 429 then .throttled else .failed, now, some status, some ("PROVIDER_HTTP_" ++ toString status),
        retryable⟩ st fun st =>
      if !retryable then .stop (.error (.httpError status)) st.db
      else
        let st := { st with
          lastRetryableError := some (.httpError status)
          sawCapacityPressure := st.sawCapacityPressure || decide (status = 429) }
        if status ∉ [401, 403] then .go st else retry st
  | .transportError =>
    finishThen reservation ⟨.failed, now, none, some "PROVIDER_TRANSPORT_UNAVAILABLE", true⟩ st fun st =>
      .go { st with lastRetryableError := some .transportError }
  | .raised e =>
    finishThen reservation ⟨.failed, now, none, some "MODEL_REQUEST_FAILED", false⟩ st fun st => .stop (.error e) st.db

/-- The `try` block: an invocation that has not confirmed its reservation raises. -/
def attempt (profile : ModelProfile) (credential : ApiCredential) (reservation : Reservation) (call : ℕ)
    (db : PoolDb) : Invocation τ × PoolDb :=
  match providerThinkingLevel r.plan profile with
  | .error e => (.raised e, db)
  | .ok level =>
    match host.invoke call profile credential level ⟨reservation, false⟩ db with
    | (.value v, accountant, db) =>
      if accountant.confirmed then (.value v, db)
      else (.raised (.valueError "Assistant invocation bypassed the metered gateway"), db)
    | (outcome, _, db) => (outcome, db)

/-- The credentials of a pool, for one profile. -/
def tryCredentials (profileIndex : ℕ) (profile : ModelProfile) (policy : CapacityPolicy) :
    List ApiCredential → LoopState → Loop τ
  | [], st => .go st
  | credential :: rest, st =>
    if MAX_ASSISTANT_CAPACITY_ATTEMPTS ≤ st.attempts then .go { st with sawCapacityPressure := true }
    else
      match host.beforeInvoke st.calls with
      | some e => .stop (.error e) st.db
      | none =>
        match reserveAssistantCapacity P ⟨policy.toCapacityPolicy, profile.profileId, profile.modelId, r.priority,
            r.plan.estimatedInputTokens, host.reservedAt st.calls, host.reservationId st.calls⟩ st.db with
        | (.error e, db) => .stop (.error (ofPool e)) db
        | (.ok none, db) => .go { st with db := db, calls := st.calls + 1, sawCapacityPressure := true }
        | (.ok (some reservation), db) =>
          let (invocation, db) := attempt host r profile credential reservation st.calls db
          settle r profileIndex profile policy credential reservation (host.finishedAt st.calls)
            { st with db := db, calls := st.calls + 1, attempts := st.attempts + 1 }
            (fun st => tryCredentials profileIndex profile policy rest st) invocation

/-- The pools of a profile, in their order. -/
def tryPools (profileIndex : ℕ) (profile : ModelProfile) : List String → LoopState → Loop τ
  | [], st => .go st
  | poolId :: rest, st =>
    match r.policyByPair poolId profile.modelId with
    | none => tryPools profileIndex profile rest st
    | some policy =>
      match tryCredentials P host r profileIndex profile policy
          ((r.byPool poolId).insertionSort fun c c' => c.credentialId ≤ c'.credentialId) st with
      | .go st => tryPools profileIndex profile rest st
      | .stop outcome db => .stop outcome db

/-- `ordered_pools`: the pools with room, the emptiest first, a preemptible one
    before a routine one. -/
def orderedPools (profile : ModelProfile) (db : PoolDb) : List String :=
  let snapshots := r.pools.filterMap fun poolId => (r.policyByPair poolId profile.modelId).map fun policy =>
    (poolId, capacitySnapshot P policy.toCapacityPolicy r.plan.estimatedInputTokens r.instant db)
  let key : String × Pool.CapacitySnapshot → ℚ ×ₗ Bool ×ₗ ℕ := fun s =>
    toLex (-s.2.score, toLex (!(r.byPool s.1).head?.any (·.pool = PREEMPTIBLE_POOL), r.pools.idxOf s.1))
  ((snapshots.filter (·.2.available)).insertionSort fun s s' => key s ≤ key s').map (·.1)

/-- The candidates, each with its index. -/
def tryProfiles : List (ModelProfile × ℕ) → LoopState → Loop τ
  | [], st => .go st
  | (profile, profileIndex) :: rest, st =>
    match orderedPools P r profile st.db with
    | [] => tryProfiles rest { st with sawCapacityPressure := true }
    | pools =>
      match tryPools P host r profileIndex profile pools st with
      | .go st => tryProfiles rest st
      | .stop outcome db => .stop outcome db

/-- The loops, and what is raised after them. -/
def Route.execute (db : PoolDb) : Except Raised (CapacityResult τ) × PoolDb :=
  match tryProfiles P host r r.plan.candidateProfiles.zipIdx ⟨db, 0, 0, false, none⟩ with
  | .stop outcome db => (outcome, db)
  | .go st =>
    if st.sawCapacityPressure then
      (.error (.capacityUnavailable "all compatible Assistant capacity is inside safety limits"), st.db)
    else
      match st.lastRetryableError with
      | some e => (.error e, st.db)
      | none => (.error (.capacityUnavailable "no usable Assistant pool x model route"), st.db)

end

/-- The arguments of `execute_assistant_capacity_route`. -/
structure ExecuteCall where
  plan : RoutePlan
  credentials : List ApiCredential
  servicePriority : String
  policies : List CapacityPolicy
  now : ℤ

/-- The checks, up to the loops. -/
def ExecuteCall.route (c : ExecuteCall) : Except Raised Route := do
  let priority ← match [ServicePriority.interactive, .background].find? (servicePriorityText · = c.servicePriority) with
    | some priority => .ok priority
    | none => .error (.valueError "Assistant service priority is invalid")
  let credentials ← validatedCredentials c.credentials
  let route : Route := ⟨c.plan, priority, credentials, c.policies, c.now⟩
  if route.eligible = [] then .error (.capacityUnavailable "no eligible Assistant credential pool")
  else
    let policies ← validatedCapacityPolicies c.policies credentials c.plan.candidateProfiles
    if ({ route with policies := policies } : Route).candidatePairs = [] then
      .error (.capacityUnavailable "no configured pool x model policy")
    else .ok { route with policies := policies }

/-- `execute_assistant_capacity_route` -/
def executeAssistantCapacityRoute {τ : Type} (P : Platform) (host : Host τ) (c : ExecuteCall) (db : PoolDb) :
    Except Raised (CapacityResult τ) × PoolDb :=
  match c.route with
  | .error e => (.error e, db)
  | .ok route => route.execute P host db

end Xauusd.Routing
