/-
  What an execution says in its receipt (`assistant/capacity.py`).

  * `CapacityPolicy.Bounded`, `validatedCapacityPolicies_ok`: the policies that
    the checks let through;
  * `Route.Sound`, `route_sound`: the counts of a route that the checks let
    through;
  * `Route.Selected`: a profile, a policy, a credential and a number of attempts
    that a receipt may be about;
  * `execute_selected`: **every success has the receipt of a selection**.
-/
import Xauusd.Routing.Execute

namespace Xauusd.Routing

/-! ## The checks -/

/-- What a receipt says of a policy. -/
structure CapacityPolicy.Bounded (p : CapacityPolicy) : Prop where
  softCap : 1 ≤ p.softCapBasisPoints ∧ p.softCapBasisPoints ≤ 10000
  maxInFlight : 1 ≤ p.maxInFlight ∧ p.maxInFlight ≤ 1000
  source : p.source ∈ ["CONFIGURED", "REGISTRY_DEFAULT"]

theorem integerFault_none {field : String} {minimum maximum value : ℕ}
    (h : integerFault field minimum maximum value = none) : minimum ≤ value ∧ value ≤ maximum := by
  unfold integerFault at h
  split at h
  · next hrange => exact hrange
  · cases h

theorem bounded_of_fault {credentials : List ApiCredential} {profiles : List ModelProfile} {p : CapacityPolicy}
    (h : p.fault credentials profiles = none) : p.Bounded := by
  unfold CapacityPolicy.fault at h
  split at h
  · cases h
  · split at h
    · cases h
    · split at h
      · cases h
      · split at h
        · cases h
        · split at h
          · cases h
          · simp only [Option.or_eq_none_iff] at h
            obtain ⟨-, -, -, hsoft, hflight, -, -, -, hsource⟩ := h
            refine ⟨integerFault_none hsoft, integerFault_none hflight, ?_⟩
            split at hsource
            · next hmem => exact hmem
            · cases hsource

theorem validatedCapacityPolicies_ok {policies policies' : List CapacityPolicy} {credentials : List ApiCredential}
    {profiles : List ModelProfile} (h : validatedCapacityPolicies policies credentials profiles = .ok policies') :
    policies'.length ≤ MAX_CAPACITY_POLICIES ∧ ∀ p ∈ policies', p.Bounded := by
  unfold validatedCapacityPolicies at h
  split at h
  · cases h
  · next hlength =>
    split at h
    · cases h
    · next hfault =>
      split at h
      · cases h
      · cases h
        exact ⟨not_lt.1 hlength, fun p hp => bounded_of_fault (List.findSome?_eq_none_iff.1 hfault p hp)⟩

theorem validatedCredentials_ok {credentials credentials' : List ApiCredential}
    (h : validatedCredentials credentials = .ok credentials') :
    (poolOrder credentials').length ≤ MAX_ASSISTANT_CREDENTIAL_POOLS := by
  unfold validatedCredentials at h
  split at h
  · cases h
  · split at h
    · cases h
    · split at h
      · cases h
      · next hpools =>
        split at h
        · cases h
        · cases h
          exact not_lt.1 hpools

/-! ## Routes -/

/-- A route that the checks let through. -/
structure Route.Sound (r : Route) : Prop where
  pools : (poolOrder r.credentials).length ≤ MAX_ASSISTANT_CREDENTIAL_POOLS
  policies : r.policies.length ≤ MAX_CAPACITY_POLICIES
  bounded : ∀ p ∈ r.policies, p.Bounded
  pairs : r.candidatePairs ≠ []

theorem route_sound {c : ExecuteCall} {r : Route} (h : c.route = .ok r) : r.plan = c.plan ∧ r.Sound := by
  unfold ExecuteCall.route at h
  cases hpriority : [Pool.ServicePriority.interactive, .background].find?
      (servicePriorityText · = c.servicePriority) with
  | none => simp [hpriority, bind, Except.bind] at h
  | some priority =>
    cases hcredentials : validatedCredentials c.credentials with
    | error e => simp [hpriority, hcredentials, bind, Except.bind] at h
    | ok credentials =>
      simp only [hpriority, hcredentials, bind, Except.bind] at h
      split at h
      · cases h
      · cases hpolicies : validatedCapacityPolicies c.policies credentials c.plan.candidateProfiles with
        | error e => simp [hpolicies] at h
        | ok policies =>
          simp only [hpolicies] at h
          split at h
          · cases h
          · next hpairs =>
            cases h
            obtain ⟨hlength, hbounded⟩ := validatedCapacityPolicies_ok hpolicies
            exact ⟨rfl, validatedCredentials_ok hcredentials, hlength, hbounded, hpairs⟩

namespace Route
variable {r : Route}

theorem mem_eligible {c : ApiCredential} (h : c ∈ r.eligible) :
    c ∈ r.credentials ∧ c.pool ∈ [PREEMPTIBLE_POOL, ROUTINE_POOL] ∧
      (r.priority = .background → c.pool = ROUTINE_POOL) := by
  unfold eligible at h
  split at h
  · simp only [List.mem_filter, decide_eq_true_eq] at h
    exact ⟨h.1, by simp [h.2], fun _ => h.2⟩
  · next hpriority =>
    simp only [List.mem_filter, decide_eq_true_eq] at h
    exact ⟨h.1, h.2, fun hbackground => by simp [hpriority] at hbackground⟩

theorem pools_subset : r.pools ⊆ poolOrder r.credentials := by
  intro pool hpool
  simp only [pools, poolOrder, List.mem_eraseDups, List.mem_map] at hpool ⊢
  obtain ⟨c, hc, rfl⟩ := hpool
  exact ⟨c, (mem_eligible hc).1, rfl⟩

theorem mem_candidatePairs {pair : String × String} (h : pair ∈ r.candidatePairs) :
    pair.1 ∈ r.pools ∧ ∃ policy ∈ r.policies, policy.pair = pair := by
  simp only [candidatePairs, List.mem_dedup, List.mem_flatMap, List.mem_map, List.mem_filter] at h
  obtain ⟨profile, -, pool, ⟨hpool, hpolicy⟩, rfl⟩ := h
  obtain ⟨policy, hpolicy⟩ := Option.isSome_iff_exists.1 hpolicy
  have hpair := List.find?_some hpolicy
  simp only [Bool.and_eq_true, decide_eq_true_eq] at hpair
  exact ⟨hpool, policy, List.mem_of_find?_eq_some hpolicy, hpair.2⟩

/-- There is a policy for every pair, -/
theorem candidatePairs_length (hr : r.Sound) : r.candidatePairs.length ≤ MAX_CAPACITY_POLICIES := by
  have hsub : r.candidatePairs ⊆ r.policies.map CapacityPolicy.pair := by
    intro pair hpair
    obtain ⟨-, policy, hpolicy, rfl⟩ := mem_candidatePairs hpair
    exact List.mem_map_of_mem hpolicy
  have hle := ((List.nodup_dedup _).subperm hsub).length_le
  rw [List.length_map] at hle
  exact hle.trans hr.policies

/-- a credential for every pool, -/
theorem candidatePools_length (hr : r.Sound) : r.candidatePools.length ≤ MAX_ASSISTANT_CREDENTIAL_POOLS := by
  have hsub : r.candidatePools ⊆ poolOrder r.credentials := by
    intro pool hpool
    obtain ⟨pair, hpair, rfl⟩ := List.mem_map.1 (List.mem_dedup.1 hpool)
    exact pools_subset (mem_candidatePairs hpair).1
  exact ((List.nodup_dedup _).subperm hsub).length_le.trans hr.pools

/-- and a pair for every pool. -/
theorem candidatePools_le : r.candidatePools.length ≤ r.candidatePairs.length := by
  have hle := (List.dedup_sublist (r.candidatePairs.map (·.1))).length_le
  rwa [List.length_map] at hle

theorem candidatePools_pos (hr : r.Sound) : 1 ≤ r.candidatePools.length := by
  obtain ⟨pair, hpair⟩ := List.exists_mem_of_ne_nil _ hr.pairs
  exact List.length_pos_of_mem (List.mem_dedup.2 (List.mem_map_of_mem hpair))

/-! ## Selections -/

/-- What a receipt may be about. -/
structure Selected (r : Route) (profile : ModelProfile) (policy : CapacityPolicy) (credential : ApiCredential)
    (attempts profileIndex : ℕ) : Prop where
  profile : r.plan.candidateProfiles[profileIndex]? = some profile
  policy : policy ∈ r.policies
  credential : credential ∈ r.eligible
  attempts : 1 ≤ attempts ∧ attempts ≤ MAX_ASSISTANT_CAPACITY_ATTEMPTS

/-- A success has the receipt of a selection. -/
def Receipted {τ : Type} (r : Route) (result : CapacityResult τ) : Prop :=
  ∃ profile policy credential attempts profileIndex, r.Selected profile policy credential attempts profileIndex ∧
    r.receipt profile policy credential attempts profileIndex = .ok result.routing

end Route

/-- Where a loop ends in a success, the property holds. -/
def Loop.Ends {τ : Type} (Q : CapacityResult τ → Prop) : Loop τ → Prop
  | .stop (.ok result) _ => Q result
  | .stop (.error _) _ | .go _ => True

section
variable {τ : Type} {P : Platform} {host : Host τ} {r : Route} {Q : CapacityResult τ → Prop}

theorem finishThen_ends {reservation : Pool.Reservation} {report : Pool.FinishReport} {st : LoopState}
    {next : LoopState → Loop τ} (h : ∀ db, (next { st with db := db }).Ends Q) :
    (finishThen reservation report st next).Ends Q := by
  unfold finishThen
  split
  · trivial
  · exact h _

/-- What follows a call ends in a success after it, or among the other
    credentials. -/
theorem settle_ends {profileIndex : ℕ} {profile : ModelProfile} {policy : CapacityPolicy}
    {credential : ApiCredential} {reservation : Pool.Reservation} {now : ℤ} {st : LoopState}
    {retry : LoopState → Loop τ} (hretry : ∀ st, (retry st).Ends r.Receipted)
    (hselected : r.Selected profile policy credential st.attempts profileIndex) (invocation : Invocation τ) :
    (settle r profileIndex profile policy credential reservation now st retry invocation).Ends r.Receipted := by
  unfold settle
  cases invocation with
  | value v =>
    refine finishThen_ends fun db => ?_
    cases hreceipt : r.receipt profile policy credential st.attempts profileIndex with
    | error e => simp only [Except.map, Loop.Ends]
    | ok routing =>
      simp only [Except.map, Loop.Ends]
      exact ⟨profile, policy, credential, st.attempts, profileIndex, hselected, hreceipt⟩
  | capacityExhausted =>
    refine finishThen_ends fun db => ?_
    trivial
  | httpError status =>
    refine finishThen_ends fun db => ?_
    dsimp only
    split
    · trivial
    · split
      · trivial
      · exact hretry _
  | transportError =>
    refine finishThen_ends fun db => ?_
    trivial
  | raised e =>
    refine finishThen_ends fun db => ?_
    trivial

/-- The credentials of a pool, by induction on them: an attempt is made only
    while there are fewer than may be made. -/
theorem tryCredentials_ends {profileIndex : ℕ} {profile : ModelProfile} {policy : CapacityPolicy}
    (hprofile : r.plan.candidateProfiles[profileIndex]? = some profile) (hpolicy : policy ∈ r.policies)
    (credentials : List ApiCredential) (hcredentials : ∀ c ∈ credentials, c ∈ r.eligible) (st : LoopState) :
    (tryCredentials P host r profileIndex profile policy credentials st).Ends r.Receipted := by
  induction credentials generalizing st with
  | nil => trivial
  | cons credential rest ih =>
    unfold tryCredentials
    split
    · trivial
    · next hattempts =>
      split
      · trivial
      · split
        · trivial
        · trivial
        · refine settle_ends (fun st => ih (fun c hc => hcredentials c (List.mem_cons_of_mem _ hc)) st) ?_ _
          exact ⟨hprofile, hpolicy, hcredentials _ List.mem_cons_self, Nat.le_add_left 1 _, not_le.1 hattempts⟩

theorem tryPools_ends {profileIndex : ℕ} {profile : ModelProfile}
    (hprofile : r.plan.candidateProfiles[profileIndex]? = some profile) (pools : List String) (st : LoopState) :
    (tryPools P host r profileIndex profile pools st).Ends r.Receipted := by
  induction pools generalizing st with
  | nil => trivial
  | cons poolId rest ih =>
    unfold tryPools
    split
    · exact ih st
    · next policy hpolicy =>
      have hends : (tryCredentials P host r profileIndex profile policy
          ((r.byPool poolId).insertionSort fun c c' => c.credentialId ≤ c'.credentialId) st).Ends r.Receipted :=
        tryCredentials_ends hprofile (List.mem_of_find?_eq_some hpolicy) _
          (fun c hc => List.mem_of_mem_filter ((List.mem_insertionSort _).1 hc)) st
      split
      · exact ih _
      · next hstop => rwa [hstop] at hends

theorem tryProfiles_ends (profiles : List (ModelProfile × ℕ))
    (hprofiles : ∀ p ∈ profiles, r.plan.candidateProfiles[p.2]? = some p.1) (st : LoopState) :
    (tryProfiles P host r profiles st).Ends r.Receipted := by
  induction profiles generalizing st with
  | nil => trivial
  | cons p rest ih =>
    obtain ⟨hp, hrest⟩ := List.forall_mem_cons.1 hprofiles
    unfold tryProfiles
    split
    · exact ih hrest _
    · have hends : (tryPools P host r p.2 p.1 (orderedPools P r p.1 st.db) st).Ends r.Receipted :=
        tryPools_ends hp _ st
      split
      · exact ih hrest _
      · next hstop => rwa [hstop] at hends

/-- **Every success has the receipt of a selection.** -/
theorem execute_selected {db : Pool.PoolDb} {result : CapacityResult τ} (h : (r.execute P host db).1 = .ok result) :
    r.Receipted result := by
  have hends : (tryProfiles P host r r.plan.candidateProfiles.zipIdx ⟨db, 0, 0, false, none⟩).Ends r.Receipted :=
    tryProfiles_ends _ (fun p hp => List.mem_zipIdx_iff_getElem?.1 hp) _
  unfold Route.execute at h
  split at h
  · next hstop =>
    rw [hstop] at hends
    subst h
    exact hends
  · split at h
    · cases h
    · split at h
      · cases h
      · cases h

end

end Xauusd.Routing
