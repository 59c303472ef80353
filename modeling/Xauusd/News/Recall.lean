/-
  Recall of prior event candidates (`news/annotation/impact.py`).

  The prior rows are indexed by their lookup keys. A row is reviewed against
  those that share a key with it, ranked, and at most so many of them.

  * `buildIdentityCandidateIndex`, `retrievePriorEventContext`;
  * `fullScan`: the candidates among all prior rows;
  * `recallPrior_top`: **what is retrieved are the best of the full scan**;
  * `recallPrior_seen`: rows that were first seen later change nothing.

  Annotations are the values of their JSON texts.
-/
import Xauusd.Lib.Recall
import Xauusd.Lib.Stable
import Xauusd.News.Identity

namespace Xauusd.News

open Recall

/-! ## Rows -/

/-- The columns of a prior row, but for its annotation. -/
structure CandidateColumns where
  source : String
  sourceItemId : String
  revisionNumber : ℤ
  headline : Option String
  collectorFirstSeenTime : String
  clusterId : Option String
  candidateId : String
  rawContentHash : String
  summaryZh : PyJson
  impactClass : Option String
  updateType : Option String
  canonicalEpisodeId : Option String
  canonicalEventId : Option String

structure PriorRow extends CandidateColumns where
  annotation : PyJson

/-- What is read of the row that is reviewed. -/
structure CurrentRow where
  source : String
  sourceItemId : String
  revisionNumber : ℤ
  collectorFirstSeenTime : String
  clusterId : Option String
  annotation : PyJson

/-- The members of an facts that is an object. -/
def members : PyJson → List (PyStr × PyJson)
  | .dict members => members
  | _ => []

def PriorRow.identity (prior : PriorRow) : Identity := ⟨members prior.annotation, prior.clusterId⟩

def CurrentRow.identity (current : CurrentRow) : Identity := ⟨members current.annotation, current.clusterId⟩

structure EventClaim where
  facts : List (String × PyJson)
  supportingEvidence : List PyStr

structure Candidate extends CandidateColumns where
  similarity : ℚ
  materialEventKey : PyJson
  canonicalActorId : PyJson
  canonicalObjectId : PyJson
  eventClaim : EventClaim
  identityAnchorEligible : Bool

/-- `sorted` compares the key `(eligible, similarity, first seen)`. -/
def Candidate.rank (c : Candidate) : Bool ×ₗ ℚ ×ₗ String :=
  toLex (c.identityAnchorEligible, toLex (c.similarity, c.collectorFirstSeenTime))

/-! ## Admission -/

section
variable (texts : Texts)

/-- `annotation.get(key)` -/
def fact (facts : List (PyStr × PyJson)) (key : String) : PyJson :=
  (facts.lookup (PyStr.of key)).getD .none

/-- `[str(excerpt)[:240] for excerpt in (value or [])[:3]]`, an error where a value
    cannot be sliced. -/
def excerpts (value : PyJson) : Except String (List PyStr) :=
  if value.truthy = false then .ok []
  else match value with
    | .list items => .ok ((items.take 3).map fun excerpt => (texts.str excerpt).take 240)
    | .str s => .ok ((s.take 3).map fun c => [c])
    | _ => .error "TypeError"

/-- `_claim_snapshot` -/
def claimSnapshot (facts : List (PyStr × PyJson)) : Except String EventClaim :=
  match excerpts texts (fact facts "supporting_evidence") with
  | .error e => .error e
  | .ok supportingEvidence => .ok {
      facts := ["record_kind", "evidence_role", "actor", "action", "object", "location", "event_time",
        "material_event_key", "episode_key", "canonical_actor_id", "canonical_object_id",
        "material_change"].map fun key => (key, fact facts key)
      supportingEvidence }

/-- `ACTIONABLE_RECORD_KINDS` -/
def actionableRecordKinds : List PyStr := [PyStr.of "FACT_EVENT", PyStr.of "OFFICIAL_CLAIM"]

def isCoreFact (facts : List (PyStr × PyJson)) : Bool :=
  texts.strOr (facts.lookup (PyStr.of "record_kind")) ∈ actionableRecordKinds &&
    texts.strOr (facts.lookup (PyStr.of "evidence_role")) ∈
      [PyStr.of "CORE_CLAIM", PyStr.of "EVIDENCE_DOCUMENT"]

/-- `round(x, 3)` of an exact number. -/
def roundThousandths (x : ℚ) : ℚ :=
  let n := ⌊x * 1000⌋
  let rest := x * 1000 - n
  if rest < 1 / 2 ∨ (rest = 1 / 2 ∧ n % 2 = 0) then n / 1000 else (n + 1) / 1000

/-- The prior row is the revision under review. -/
def CandidateColumns.isRevisionOf (prior : CandidateColumns) (current : CurrentRow) : Prop :=
  prior.source = current.source ∧ prior.sourceItemId = current.sourceItemId ∧
    prior.revisionNumber = current.revisionNumber

instance CandidateColumns.decidableIsRevisionOf (prior : CandidateColumns) (current : CurrentRow) :
    Decidable (prior.isRevisionOf current) := by
  unfold isRevisionOf
  infer_instance

def materializeIdentityCandidate (current : CurrentRow) (prior : PriorRow) (similarity : ℚ) :
    Except String (Option Candidate) :=
  if current.collectorFirstSeenTime < prior.collectorFirstSeenTime then .ok none
  else if prior.isRevisionOf current then .ok none
  else match current.annotation, prior.annotation with
    | .dict facts, .dict priorFacts =>
      match claimSnapshot texts priorFacts with
      | .error e => .error e
      | .ok eventClaim =>
        let candidate : Candidate := {
          prior with
          similarity := roundThousandths similarity
          materialEventKey := fact priorFacts "material_event_key"
          canonicalActorId := fact priorFacts "canonical_actor_id"
          canonicalObjectId := fact priorFacts "canonical_object_id"
          eventClaim
          identityAnchorEligible := isCoreFact texts priorFacts &&
            !(prior.updateType = some "COMMENTARY" || prior.updateType = some "HISTORICAL_CONTEXT") }
        if isCoreFact texts facts && !candidate.identityAnchorEligible then .ok none
        else .ok (some candidate)
    | _, _ => .error "identity candidate facts is missing"

/-- The body of the loop over the recalled rows. -/
def judgePrior (current : CurrentRow) (prior : PriorRow) : Except String (Option Candidate) :=
  let similarity := priorIdentitySimilarity texts current.identity prior.identity
  if similarity ≤ 1 / 4 then .ok none
  else materializeIdentityCandidate texts current prior similarity

/-! ## Recall -/

abbrev CandidateIndex := List ((String × PyStr) × List PriorRow)

/-- The body of the loop over the prior rows. -/
def fileRow (index : CandidateIndex) (prior : PriorRow) : Except String CandidateIndex :=
  match prior.annotation with
  | .dict facts => .ok ((identityLookupKeys texts ⟨facts, prior.clusterId⟩).foldl (file prior) index)
  | _ => .error "identity candidate facts is missing"

def buildIdentityCandidateIndex (priorRows : List PriorRow) : Except String CandidateIndex :=
  priorRows.foldlM (fileRow texts) []

def retrievePriorEventContext (current : CurrentRow) (candidateIndex : CandidateIndex) (limit : ℤ) :
    Except String (List Candidate) :=
  if ¬ (1 ≤ limit ∧ limit ≤ 20) then .error "identity candidate result bound is invalid"
  else match current.annotation with
    | .dict facts =>
      let recalled := (identityLookupKeys texts ⟨facts, current.clusterId⟩).foldl
        (fun recalled key => gather (fun prior => prior.candidateId) (bucket candidateIndex key) recalled) []
      match collect (judgePrior texts current) (recalled.map Prod.snd) with
      | .error e => .error e
      | .ok candidates =>
        .ok ((Stable.sortBy (fun c => OrderDual.toDual c.rank) candidates).take limit.toNat)
    | _ => .error "current identity facts is missing"

/-- Retrieval over the index of some prior rows. -/
def recallPrior (priorRows : List PriorRow) (current : CurrentRow) (limit : ℤ) :
    Except String (List Candidate) :=
  match buildIdentityCandidateIndex texts priorRows with
  | .error e => .error e
  | .ok candidateIndex => retrievePriorEventContext texts current candidateIndex limit

/-- The candidates among all prior rows. -/
def fullScan (current : CurrentRow) (priorRows : List PriorRow) : List Candidate :=
  priorRows.filterMap fun prior =>
    let similarity := priorIdentitySimilarity texts current.identity prior.identity
    if 1 / 4 < similarity then (materializeIdentityCandidate texts current prior similarity).toOption.join
    else none

/-- An annotation that can be indexed and shown. -/
def Readable (value : PyJson) : Prop :=
  ∃ members claim, value = .dict members ∧ claimSnapshot texts members = .ok claim

end

/-! ## What is retrieved -/

section
variable {texts : Texts} {current : CurrentRow} {prior : PriorRow} {priorRows : List PriorRow}
  {candidateIndex : CandidateIndex} {limit : ℤ} {offered : List Candidate} {e : String}

/-- The keys that a prior row is filed under. -/
def PriorRow.lookupKeys (texts : Texts) (prior : PriorRow) : List (String × PyStr) :=
  identityLookupKeys texts prior.identity

theorem fileRow_eq_ok_iff {index index' : CandidateIndex} : fileRow texts index prior = .ok index' ↔
    (∃ facts, prior.annotation = .dict facts) ∧
      index' = (prior.lookupKeys texts).foldl (file prior) index := by
  rw [fileRow, PriorRow.lookupKeys]
  cases hprior : prior.annotation with
  | dict facts =>
    have hidentity : prior.identity = ⟨facts, prior.clusterId⟩ := by
      rw [PriorRow.identity, hprior, members]
    rw [hidentity]
    dsimp only
    rw [Except.ok.injEq]
    exact ⟨fun h => ⟨⟨facts, rfl⟩, h.symm⟩, fun h => h.2.symm⟩
  | none | bool | int | float | str | list =>
    constructor
    · intro h
      cases h
    · rintro ⟨⟨facts, h⟩, -⟩
      cases h

theorem foldlM_fileRow_eq_ok_iff {index index' : CandidateIndex} :
    priorRows.foldlM (fileRow texts) index = .ok index' ↔
      (∀ prior ∈ priorRows, ∃ facts, prior.annotation = .dict facts) ∧
        index' = fileAll (PriorRow.lookupKeys texts) priorRows index := by
  induction priorRows generalizing index with
  | nil =>
    constructor
    · intro h
      exact ⟨fun _ hprior => absurd hprior List.not_mem_nil, (Except.ok.inj h).symm⟩
    · rintro ⟨-, rfl⟩
      rfl
  | cons prior priorRows ih =>
    rw [List.foldlM_cons, fileAll_cons, List.forall_mem_cons]
    constructor
    · intro h
      cases hstep : fileRow texts index prior with
      | error e =>
        rw [hstep] at h
        cases h
      | ok next =>
        rw [hstep] at h
        obtain ⟨hprior, hnext⟩ := fileRow_eq_ok_iff.1 hstep
        obtain ⟨hrest, hindex⟩ := ih.1 h
        exact ⟨⟨hprior, hrest⟩, hnext ▸ hindex⟩
    · rintro ⟨⟨hprior, hrest⟩, hindex⟩
      rw [fileRow_eq_ok_iff.2 ⟨hprior, rfl⟩]
      exact ih.2 ⟨hrest, hindex⟩

/-- The index is built if all annotations are objects. -/
theorem build_eq_ok_iff : buildIdentityCandidateIndex texts priorRows = .ok candidateIndex ↔
    (∀ prior ∈ priorRows, ∃ facts, prior.annotation = .dict facts) ∧
      candidateIndex = fileAll (PriorRow.lookupKeys texts) priorRows [] :=
  foldlM_fileRow_eq_ok_iff

theorem build_eq_error (h : buildIdentityCandidateIndex texts priorRows = .error e) :
    ∃ prior ∈ priorRows, ¬ Readable texts prior.annotation := by
  by_contra hall
  simp only [not_exists, not_and, not_not] at hall
  have hdict : ∀ prior ∈ priorRows, ∃ facts, prior.annotation = .dict facts := by
    intro prior hprior
    obtain ⟨facts, claim, hfacts, -⟩ := hall prior hprior
    exact ⟨facts, hfacts⟩
  rw [build_eq_ok_iff.2 ⟨hdict, rfl⟩] at h
  cases h

/-- The rows that are visited share a key with the one that is reviewed. -/
def visited (texts : Texts) (current : CurrentRow) (priorRows : List PriorRow) : List PriorRow :=
  (identityLookupKeys texts current.identity).flatMap
    (bucket (fileAll (PriorRow.lookupKeys texts) priorRows []))

theorem mem_visited : prior ∈ visited texts current priorRows ↔
    prior ∈ priorRows ∧ ∃ k ∈ identityLookupKeys texts current.identity, k ∈ prior.lookupKeys texts := by
  simp only [visited, List.mem_flatMap, mem_bucket]
  constructor
  · rintro ⟨k, hk, hprior, hkey⟩
    exact ⟨hprior, k, hk, hkey⟩
  · rintro ⟨hprior, k, hk, hkey⟩
    exact ⟨k, hk, hprior, hkey⟩

/-- The rows that are judged. -/
def recalled (texts : Texts) (current : CurrentRow) (priorRows : List PriorRow) : List PriorRow :=
  (gather (fun prior => prior.candidateId) (visited texts current priorRows) []).map Prod.snd

/-- What is retrieved over the index of some rows. -/
theorem retrieve_eq (hlimit : 1 ≤ limit ∧ limit ≤ 20) {facts : List (PyStr × PyJson)}
    (hcurrent : current.annotation = .dict facts) :
    retrievePriorEventContext texts current (fileAll (PriorRow.lookupKeys texts) priorRows []) limit =
      match collect (judgePrior texts current) (recalled texts current priorRows) with
      | .error e => .error e
      | .ok candidates =>
        .ok ((Stable.sortBy (fun c => OrderDual.toDual c.rank) candidates).take limit.toNat) := by
  have hidentity : (⟨facts, current.clusterId⟩ : Identity) = current.identity := by
    rw [CurrentRow.identity, hcurrent]
    rfl
  rw [retrievePriorEventContext, if_neg (not_not.2 hlimit), hcurrent]
  dsimp only
  rw [hidentity, gather_flatMap, ← visited, ← recalled]

/-- Nothing is retrieved from an empty index. -/
theorem retrieve_nil (hlimit : 1 ≤ limit ∧ limit ≤ 20) (hcurrent : ∃ facts, current.annotation = .dict facts) :
    retrievePriorEventContext texts current [] limit = .ok [] := by
  obtain ⟨facts, hfacts⟩ := hcurrent
  have hrecalled : recalled texts current [] = [] := by
    have hvisited : visited texts current [] = [] := List.flatMap_eq_nil_iff.2 fun _ _ => rfl
    rw [recalled, hvisited]
    rfl
  have h : retrievePriorEventContext texts current (fileAll (PriorRow.lookupKeys texts) [] []) limit = _ :=
    retrieve_eq hlimit hfacts
  rw [hrecalled] at h
  refine h.trans ?_
  rw [collect]
  dsimp only
  rw [Stable.sortBy, List.insertionSort_nil, List.take_nil]

theorem judgePrior_of_similar
    (h : 1 / 4 < priorIdentitySimilarity texts current.identity prior.identity) :
    judgePrior texts current prior = materializeIdentityCandidate texts current prior
      (priorIdentitySimilarity texts current.identity prior.identity) :=
  if_neg (not_le.2 h)

theorem judgePrior_of_not_similar
    (h : ¬ 1 / 4 < priorIdentitySimilarity texts current.identity prior.identity) :
    judgePrior texts current prior = .ok none :=
  if_pos (not_lt.1 h)

theorem fullScan_eq (priorRows : List PriorRow) :
    fullScan texts current priorRows = priorRows.filterMap (candidate? (judgePrior texts current)) := by
  refine List.filterMap_congr fun prior _ => ?_
  rw [candidate?]
  by_cases h : 1 / 4 < priorIdentitySimilarity texts current.identity prior.identity
  · rw [judgePrior_of_similar h]
    exact if_pos h
  · rw [judgePrior_of_not_similar h]
    exact if_neg h

/-- Who is admitted was visited. -/
theorem judgePrior_of_not_visited (hprior : prior ∈ priorRows) (h : prior ∉ visited texts current priorRows) :
    judgePrior texts current prior = .ok none := by
  refine judgePrior_of_not_similar fun hsimilar => h (mem_visited.2 ⟨hprior, exists_shared_key fun hzero => ?_⟩)
  rw [hzero] at hsimilar
  norm_num at hsimilar

/-- What a candidate that is materialized was made of. -/
theorem materialize_eq_some {similarity : ℚ} {c : Candidate}
    (h : materializeIdentityCandidate texts current prior similarity = .ok (some c)) :
    c.toCandidateColumns = prior.toCandidateColumns ∧
      prior.collectorFirstSeenTime ≤ current.collectorFirstSeenTime ∧ ¬ prior.isRevisionOf current := by
  unfold materializeIdentityCandidate at h
  split at h
  · cases h
  next hseen =>
  split at h
  · cases h
  next hrevision =>
  split at h
  · split at h
    · cases h
    · dsimp only at h
      split at h
      · cases h
      · cases h
        exact ⟨rfl, not_lt.1 hseen, hrevision⟩
  · cases h

theorem materialize_eq_error {similarity : ℚ}
    (h : materializeIdentityCandidate texts current prior similarity = .error e) :
    ¬ Readable texts current.annotation ∨ ¬ Readable texts prior.annotation := by
  by_contra hall
  obtain ⟨⟨facts, _, hcurrent, _⟩, ⟨priorFacts, claim, hprior, hclaim⟩⟩ :
      Readable texts current.annotation ∧ Readable texts prior.annotation := by
    simpa only [not_or, not_not] using hall
  unfold materializeIdentityCandidate at h
  split at h
  · cases h
  split at h
  · cases h
  rw [hcurrent, hprior] at h
  dsimp only at h
  rw [hclaim] at h
  dsimp only at h
  split at h
  · cases h
  · cases h

theorem judgePrior_eq_error (h : judgePrior texts current prior = .error e) :
    ¬ Readable texts current.annotation ∨ ¬ Readable texts prior.annotation := by
  by_cases hsimilar : 1 / 4 < priorIdentitySimilarity texts current.identity prior.identity
  · exact materialize_eq_error (judgePrior_of_similar hsimilar ▸ h)
  · rw [judgePrior_of_not_similar hsimilar] at h
    cases h

section
variable (hids : (priorRows.map fun prior => prior.candidateId).Nodup)
include hids

theorem visited_own : ∀ prior ∈ visited texts current priorRows, ∀ prior' ∈ visited texts current priorRows,
    prior'.candidateId = prior.candidateId → prior' = prior := fun _ hprior _ hprior' heq =>
  List.inj_on_of_nodup_map hids (mem_visited.1 hprior').1 (mem_visited.1 hprior).1 heq

/-- Each visited row is judged, once. -/
theorem recalled_spec : (recalled texts current priorRows).Nodup ∧
    ∀ prior, prior ∈ recalled texts current priorRows ↔ prior ∈ visited texts current priorRows := by
  obtain ⟨rows, hrows, hnodup, hmem⟩ := gather_eq_entries (visited_own hids)
  have hrecalled : recalled texts current priorRows = rows := by
    rw [recalled, hrows, entries, List.map_map]
    exact List.map_id rows
  rw [hrecalled]
  exact ⟨hnodup, hmem⟩

/-- The candidates among the judged rows are those among all. -/
theorem recalled_perm :
    ((recalled texts current priorRows).filterMap (candidate? (judgePrior texts current))).Perm
      (fullScan texts current priorRows) := by
  obtain ⟨hnodup, hmem⟩ := recalled_spec hids
  rw [fullScan_eq]
  refine filterMap_perm hnodup (List.Nodup.of_map _ hids) (fun prior hprior => ?_) fun prior hprior hmissed => ?_
  · exact (mem_visited.1 ((hmem prior).1 hprior)).1
  · rw [candidate?, judgePrior_of_not_visited hprior fun h => hmissed ((hmem prior).2 h)]
    rfl

theorem retrieved_top {candidates : List Candidate}
    (h : collect (judgePrior texts current) (recalled texts current priorRows) = .ok candidates) :
    Top Candidate.rank limit.toNat (fullScan texts current priorRows)
      ((Stable.sortBy (fun c => OrderDual.toDual c.rank) candidates).take limit.toNat) := by
  refine Top.of_perm ⟨_, Stable.sortBy_perm _ candidates, ?_, rfl⟩ ?_
  · exact Stable.sortBy_sorted (fun c => OrderDual.toDual c.rank) candidates
  · exact collect_eq_ok h ▸ recalled_perm hids

end

/-- A candidate of the full scan. -/
theorem mem_fullScan {c : Candidate} (h : c ∈ fullScan texts current priorRows) :
    c.collectorFirstSeenTime ≤ current.collectorFirstSeenTime ∧ ¬ c.isRevisionOf current := by
  obtain ⟨prior, -, hprior⟩ := List.mem_filterMap.1 h
  dsimp only at hprior
  split at hprior
  · cases hmaterial : materializeIdentityCandidate texts current prior
        (priorIdentitySimilarity texts current.identity prior.identity) with
    | error e =>
      rw [hmaterial] at hprior
      cases hprior
    | ok candidate =>
      rw [hmaterial] at hprior
      obtain ⟨hcolumns, hseen, hrevision⟩ := materialize_eq_some (hmaterial.trans (congrArg Except.ok hprior))
      exact ⟨hcolumns ▸ hseen, hcolumns ▸ hrevision⟩
  · cases hprior

/-- What a call of retrieval over an index can return. -/
theorem recallPrior_cases (texts : Texts) (current : CurrentRow) (priorRows : List PriorRow) (hlimit : 1 ≤ limit ∧ limit ≤ 20) :
    (∃ e, recallPrior texts priorRows current limit = .error e ∧
      ∃ value ∈ current.annotation :: priorRows.map (fun prior => prior.annotation),
        ¬ Readable texts value) ∨
    ∃ candidates, collect (judgePrior texts current) (recalled texts current priorRows) = .ok candidates ∧
      recallPrior texts priorRows current limit =
        .ok ((Stable.sortBy (fun c => OrderDual.toDual c.rank) candidates).take limit.toNat) := by
  have hprior : ∀ {prior : PriorRow}, prior ∈ priorRows → ¬ Readable texts prior.annotation →
      ∃ value ∈ current.annotation :: priorRows.map (fun prior => prior.annotation),
        ¬ Readable texts value := fun hmem h =>
    ⟨_, List.mem_cons_of_mem _ (List.mem_map_of_mem hmem), h⟩
  unfold recallPrior
  cases hbuild : buildIdentityCandidateIndex texts priorRows with
  | error e =>
    obtain ⟨prior, hmem, h⟩ := build_eq_error hbuild
    exact .inl ⟨e, rfl, hprior hmem h⟩
  | ok index =>
    dsimp only
    by_cases hcurrent : ∃ facts, current.annotation = .dict facts
    · obtain ⟨facts, hfacts⟩ := hcurrent
      rw [(build_eq_ok_iff.1 hbuild).2, retrieve_eq hlimit hfacts]
      cases hcollect : collect (judgePrior texts current) (recalled texts current priorRows) with
      | error e =>
        obtain ⟨prior, hmem, h⟩ := collect_eq_error hcollect
        refine .inl ⟨e, rfl, ?_⟩
        rcases judgePrior_eq_error h with h | h
        · exact ⟨_, List.mem_cons_self, h⟩
        · obtain ⟨entry, hentry, rfl⟩ := List.mem_map.1 hmem
          have hvisited := gather_subset hentry
          exact hprior (mem_visited.1 hvisited).1 h
      | ok candidates => exact .inr ⟨candidates, rfl, rfl⟩
    · refine .inl ⟨"current identity facts is missing", ?_, _, List.mem_cons_self, ?_⟩
      · rw [retrievePriorEventContext, if_neg (not_not.2 hlimit)]
        split
        · next facts h => exact absurd ⟨facts, h⟩ hcurrent
        · rfl
      · rintro ⟨facts, -, h, -⟩
        exact hcurrent ⟨facts, h⟩

/-- **What is retrieved are the best of the full scan.** -/
theorem recallPrior_top (texts : Texts) (current : CurrentRow)
    (hids : (priorRows.map fun prior => prior.candidateId).Nodup)
    (hlimit : 1 ≤ limit ∧ limit ≤ 20) :
    match recallPrior texts priorRows current limit with
    | .ok offered =>
      Top Candidate.rank limit.toNat (fullScan texts current priorRows) offered ∧
        (∀ prior ∈ priorRows, 1 / 4 < priorIdentitySimilarity texts current.identity prior.identity →
          ∃ candidate, materializeIdentityCandidate texts current prior
            (priorIdentitySimilarity texts current.identity prior.identity) = .ok candidate) ∧
        ∀ c ∈ offered, c.collectorFirstSeenTime ≤ current.collectorFirstSeenTime ∧ ¬ c.isRevisionOf current
    | .error _ => ∃ value ∈ current.annotation :: priorRows.map (fun prior => prior.annotation),
        ¬ Readable texts value := by
  rcases recallPrior_cases texts current priorRows hlimit with
    ⟨e, heq, hcause⟩ | ⟨candidates, hcollect, heq⟩
  · rw [heq]
    exact hcause
  · rw [heq]
    have htop : Top Candidate.rank limit.toNat _ _ := retrieved_top hids hcollect
    refine ⟨htop, fun prior hprior hsimilar => ?_, fun c hc => mem_fullScan (htop.mem hc)⟩
    rw [← judgePrior_of_similar hsimilar]
    by_cases hvisited : prior ∈ visited texts current priorRows
    · exact exists_of_collect_eq_ok hcollect (((recalled_spec hids).2 prior).2 hvisited)
    · exact ⟨none, judgePrior_of_not_visited hprior hvisited⟩

/-! ## Rows seen later -/

/-- The prior row was seen no later than the current one. -/
def seenBy (current : CurrentRow) (prior : PriorRow) : Bool :=
  prior.collectorFirstSeenTime ≤ current.collectorFirstSeenTime

theorem judgePrior_of_seen_later (h : seenBy current prior = false) : judgePrior texts current prior = .ok none := by
  by_cases hsimilar : 1 / 4 < priorIdentitySimilarity texts current.identity prior.identity
  · rw [judgePrior_of_similar hsimilar]
    exact if_pos (by simpa [seenBy] using h)
  · exact judgePrior_of_not_similar hsimilar

theorem visited_filter (p : PriorRow → Bool) :
    visited texts current (priorRows.filter p) = (visited texts current priorRows).filter p := by
  rw [visited, visited, List.filter_flatMap]
  exact List.flatMap_congr fun k _ => bucket_filter p

theorem recalled_filter (hids : (priorRows.map fun prior => prior.candidateId).Nodup) (p : PriorRow → Bool) :
    recalled texts current (priorRows.filter p) = (recalled texts current priorRows).filter p := by
  rw [recalled, recalled, visited_filter, gather_filter (visited_own hids), List.filter_map]
  rfl

/-- **Rows that were seen later change nothing.** -/
theorem recallPrior_seen (hids : (priorRows.map fun prior => prior.candidateId).Nodup)
    (hlimit : 1 ≤ limit ∧ limit ≤ 20) (h : recallPrior texts priorRows current limit = .ok offered) :
    recallPrior texts (priorRows.filter (seenBy current)) current limit = .ok offered := by
  unfold recallPrior at h ⊢
  cases hbuild : buildIdentityCandidateIndex texts priorRows with
  | error e =>
    rw [hbuild] at h
    cases h
  | ok index =>
    obtain ⟨hdict, rfl⟩ := build_eq_ok_iff.1 hbuild
    rw [hbuild] at h
    rw [build_eq_ok_iff.2 ⟨fun prior hprior => hdict prior (List.mem_of_mem_filter hprior), rfl⟩]
    dsimp only at h ⊢
    by_cases hcurrent : ∃ facts, current.annotation = .dict facts
    · obtain ⟨facts, hfacts⟩ := hcurrent
      rw [retrieve_eq hlimit hfacts] at h ⊢
      have hjudged : ∀ prior, seenBy current prior = false → judgePrior texts current prior = .ok none :=
        fun _ => judgePrior_of_seen_later
      rw [recalled_filter hids, collect_filter hjudged]
      exact h
    · rw [retrievePriorEventContext, if_neg (not_not.2 hlimit)] at h
      split at h
      · next facts hfacts => exact absurd ⟨facts, hfacts⟩ hcurrent
      · cases h

end

end Xauusd.News
