/-
  The stable occurrence anchors of a news row: `canonical_id` in
  `news/retrieval/identity.py`, and in `news/annotation/impact.py` the tests
  that two rows may be about one occurrence.

  * `canonicalId`;
  * `priorIdentitySimilarity`: six alternative tests;
  * `identityLookupKeys`: the keys that a row is filed under;
  * `exists_shared_key`: **two rows that any of the tests admits share a key**.

  Similarities are exact.
-/
import Xauusd.Lib.PyJson

namespace Xauusd.News

/-- `str.casefold`, and `str` of a value that is not a string. -/
structure Texts where
  casefold : PyStr → PyStr
  repr : PyJson → PyStr

namespace Texts

/-- `str(value)` -/
def str (texts : Texts) : PyJson → PyStr
  | .str s => s
  | v => texts.repr v

/-- `str(value or "")` of what `get` returns. -/
def strOr (texts : Texts) : Option PyJson → PyStr
  | some v => if v.truthy then texts.str v else []
  | none => []

end Texts

/-! ## Canonical identities -/

/-- `SOURCE_ORGANIZATION_ALIASES` -/
def sourceOrganizationAliases : List (PyStr × PyStr) := [
  ("ap_news", "ap"),
  ("apnews_com", "ap"),
  ("associated_press", "ap"),
  ("bea_economic_releases", "bureau_of_economic_analysis"),
  ("bls_consumer_price_index", "bureau_of_labor_statistics"),
  ("bls_employment_situation", "bureau_of_labor_statistics"),
  ("bls_job_openings", "bureau_of_labor_statistics"),
  ("bloomberg_com", "bloomberg"),
  ("bullionvault_com", "bullionvault"),
  ("bitcoinworld", "bitcoin_world"),
  ("cnbc_com", "cnbc"),
  ("ecb_press_releases", "european_central_bank"),
  ("eia_press_releases", "energy_information_administration"),
  ("eia_today_in_energy", "energy_information_administration"),
  ("federal_reserve_monetary", "federal_reserve"),
  ("federal_reserve_press_all", "federal_reserve"),
  ("federal_reserve_speeches_testimony", "federal_reserve"),
  ("finance_yahoo_com", "yahoo_finance"),
  ("ft_com", "financial_times"),
  ("google_news_bls_official_releases", "bureau_of_labor_statistics"),
  ("kitco_com", "kitco"),
  ("kitco_news", "kitco"),
  ("marketwatch_com", "marketwatch"),
  ("npr_org", "npr"),
  ("reuters_com", "reuters"),
  ("reuters_news", "reuters"),
  ("theguardian_com", "the_guardian"),
  ("thomson_reuters", "reuters"),
  ("us_bls", "bureau_of_labor_statistics"),
  ("us_bureau_of_labor_statistics", "bureau_of_labor_statistics"),
  ("us_treasury_press_releases", "us_treasury"),
  ("world_gold_council_central_banks", "world_gold_council"),
  ("wsj_com", "wall_street_journal")
].map fun (label, organization) => (PyStr.of label, PyStr.of organization)

/-- `[a-z0-9\u3400-\u9fff]` -/
def isIdentityChar (c : CodePoint) : Bool :=
  (97 ≤ c.toNat && c.toNat ≤ 122) || (48 ≤ c.toNat && c.toNat ≤ 57) ||
    (0x3400 ≤ c.toNat && c.toNat ≤ 0x9fff)

def underscore : CodePoint := .char '_'

/-- `re.sub(r"[^a-z0-9\u3400-\u9fff]+", "_", s)`; the flag says that the character
    before is one of a run that is replaced. -/
def replaceRuns : Bool → PyStr → PyStr
  | _, [] => []
  | replaced, c :: s =>
    if isIdentityChar c then c :: replaceRuns false s
    else if replaced then replaceRuns true s
    else underscore :: replaceRuns true s

/-- `s.strip("_")` -/
def stripUnderscores (s : PyStr) : PyStr :=
  ((s.dropWhile (· = underscore)).reverse.dropWhile (· = underscore)).reverse

def canonicalId (texts : Texts) (value : Option PyJson) : PyStr :=
  let value := stripUnderscores (replaceRuns false (texts.casefold (texts.strOr value)))
  (sourceOrganizationAliases.lookup value).getD value

/-- `_multiword_identity_signature` -/
def multiwordIdentitySignature (texts : Texts) (value : PyStr) : PyStr :=
  let parts := (canonicalId texts (some (.str value))).splitOn underscore
  if 3 ≤ parts.length then [underscore].intercalate (parts.insertionSort PyStr.le) else []

/-- An annotation, with the `cluster_id` of its row in place of its own. -/
structure Identity where
  annotation : List (PyStr × PyJson)
  clusterId : Option String

namespace Identity

/-- `str(item.get("cluster_id") or "").strip()` -/
def cluster (item : Identity) : PyStr := PyStr.of (Text.strip (item.clusterId.getD ""))

/-- `canonical_id(item.get(field))` -/
def id (texts : Texts) (item : Identity) (field : String) : PyStr :=
  canonicalId texts <| item.annotation.lookup (PyStr.of field)

/-- `_multiword_identity_signature(canonical_id(item.get(field)))` -/
def family (texts : Texts) (item : Identity) (field : String) : PyStr :=
  multiwordIdentitySignature texts (item.id texts field)

end Identity

/-! ## Similarity -/

/-- One object is a part of the words of the other, at one of its ends. -/
def relatedObject (current prior : PyStr) : Bool :=
  let (shorter, longer) := if current.length ≤ prior.length then (current, prior) else (prior, current)
  2 ≤ (shorter.splitOn underscore).length &&
    ((shorter ++ [underscore]).isPrefixOf longer || (underscore :: shorter).isSuffixOf longer)

variable (texts : Texts)

def priorIdentitySimilarity (current prior : Identity) : ℚ :=
  if current.cluster ≠ [] ∧ current.cluster = prior.cluster then 1
  else if (current.id texts "material_event_key" ≠ [] ∧
        current.id texts "material_event_key" = prior.id texts "material_event_key") ∨
      (current.id texts "episode_key" ≠ [] ∧
        current.id texts "episode_key" = prior.id texts "episode_key") then 1
  else if (current.family texts "material_event_key" ≠ [] ∧
        current.family texts "material_event_key" = prior.family texts "material_event_key") ∨
      (current.family texts "episode_key" ≠ [] ∧
        current.family texts "episode_key" = prior.family texts "episode_key") then 1
  else
    let currentObject := current.id texts "canonical_object_id"
    let priorObject := prior.id texts "canonical_object_id"
    let actorMatch := current.id texts "canonical_actor_id" ≠ [] ∧
      current.id texts "canonical_actor_id" = prior.id texts "canonical_actor_id"
    if ¬ actorMatch ∨ currentObject = [] ∨ priorObject = [] then 0
    else if currentObject = priorObject then 3 / 4
    else if multiwordIdentitySignature texts currentObject = multiwordIdentitySignature texts priorObject ∧
        multiwordIdentitySignature texts priorObject ≠ [] then 3 / 4
    else if relatedObject currentObject priorObject then 1 / 2
    else 0

/-! ## Lookup keys -/

/-- The key of that kind, if there is a value. -/
def keyOf (kind : String) (value : PyStr) : List (String × PyStr) :=
  if value ≠ [] then [(kind, value)] else []

/-- `_identity_lookup_keys` -/
def identityLookupKeys (item : Identity) : List (String × PyStr) :=
  keyOf "cluster" item.cluster ++
    (["material_event_key", "episode_key"].flatMap fun field =>
      keyOf field (item.id texts field) ++ keyOf (field ++ "_tokens") (item.family texts field)) ++
    keyOf "actor" (item.id texts "canonical_actor_id")

@[simp] theorem mem_keyOf {kind : String} {value : PyStr} {k : String × PyStr} :
    k ∈ keyOf kind value ↔ value ≠ [] ∧ k = (kind, value) := by
  unfold keyOf
  split <;> simp [*]

variable {texts}

/-- A value of one kind that two items have in common. -/
theorem exists_shared_of_eq {current prior : Identity} {kind : String} {value : Identity → PyStr}
    (hkeys : ∀ item, keyOf kind (value item) ⊆ identityLookupKeys texts item)
    (hne : value current ≠ []) (heq : value current = value prior) :
    ∃ k ∈ identityLookupKeys texts current, k ∈ identityLookupKeys texts prior := by
  refine ⟨(kind, value current), hkeys current (mem_keyOf.2 ⟨hne, rfl⟩), hkeys prior (mem_keyOf.2 ⟨?_, ?_⟩)⟩
  · exact heq ▸ hne
  · rw [heq]

theorem id_subset {field : String} (hfield : field ∈ ["material_event_key", "episode_key"]) (item : Identity) :
    keyOf field (item.id texts field) ⊆ identityLookupKeys texts item := fun _ hk =>
  List.mem_append_left _ (List.mem_append_right _
    (List.mem_flatMap.2 ⟨field, hfield, List.mem_append_left _ hk⟩))

theorem family_subset {field : String} (hfield : field ∈ ["material_event_key", "episode_key"])
    (item : Identity) :
    keyOf (field ++ "_tokens") (item.family texts field) ⊆ identityLookupKeys texts item := fun _ hk =>
  List.mem_append_left _ (List.mem_append_right _
    (List.mem_flatMap.2 ⟨field, hfield, List.mem_append_right _ hk⟩))

/-- **Rows of some similarity share a key.** -/
theorem exists_shared_key {current prior : Identity} (h : priorIdentitySimilarity texts current prior ≠ 0) :
    ∃ k ∈ identityLookupKeys texts current, k ∈ identityLookupKeys texts prior := by
  unfold priorIdentitySimilarity at h
  split at h
  · next hcluster =>
    have hkeys : ∀ item, keyOf "cluster" item.cluster ⊆ identityLookupKeys texts item :=
      fun _ _ hk => List.mem_append_left _ (List.mem_append_left _ hk)
    exact exists_shared_of_eq hkeys hcluster.1 hcluster.2
  split at h
  · next hid =>
    rcases hid with ⟨hne, heq⟩ | ⟨hne, heq⟩
    · exact exists_shared_of_eq (id_subset (by simp)) hne heq
    · exact exists_shared_of_eq (id_subset (by simp)) hne heq
  split at h
  · next hfamily =>
    rcases hfamily with ⟨hne, heq⟩ | ⟨hne, heq⟩
    · exact exists_shared_of_eq (family_subset (by simp)) hne heq
    · exact exists_shared_of_eq (family_subset (by simp)) hne heq
  -- What is left are the tests of the objects, which all require the actor.
  dsimp only at h
  split at h
  · exact absurd rfl h
  · next hactor =>
    obtain ⟨hne, heq⟩ := not_not.1 (not_or.1 hactor).1
    exact exists_shared_of_eq (fun item => List.subset_append_right _ _) hne heq

end Xauusd.News
