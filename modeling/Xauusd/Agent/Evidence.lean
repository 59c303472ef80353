/-
  The citations of the Assistant's answers (`assistant/evidence.py`).

  A model answers with claims, each one line with the evidence it cites; the
  answer is their lines, and comes with a receipt.

  * `orderedEvidenceIds`, `claimText`: what is read of a claim;
  * `readClaim`, `readClaims`: the loop over the claims;
  * `validateAssistantEvidenceClaims`, `validateAssistantEvidenceModelText`;
  * `Validated.Covered`, `validated_covered`: **every line of an answer is a
    claim, and every claim is cited if and only if there is evidence**.
-/
import Xauusd.Agent.Tools
import Xauusd.Lib.Raises

namespace Xauusd.Agent

open Raises (raiseIf orRaise bind_eq_ok raiseIf_eq_ok orRaise_eq_ok)

def ASSISTANT_EVIDENCE_PROTOCOL : String := "assistant.evidence.v1"
def ASSISTANT_EVIDENCE_VALIDATOR_VERSION : String := "assistant-evidence-validator-v1"
def MAX_EVIDENCE_CLAIMS : ℕ := 12
def MAX_CLAIM_CHARACTERS : ℕ := 4000
def MAX_EVIDENCE_PER_CLAIM : ℕ := 8

/-- `EvidenceValidationMode` -/
inductive EvidenceMode where
  | citationCoverage
  | noCitableEvidence
  | insufficientEvidence
  deriving DecidableEq, Repr

def EvidenceMode.value : EvidenceMode → String
  | citationCoverage => "CITATION_COVERAGE"
  | noCitableEvidence => "NO_CITABLE_EVIDENCE"
  | insufficientEvidence => "INSUFFICIENT_EVIDENCE"

/-- `_EVIDENCE_ID` -/
def isEvidenceId (s : String) : Bool :=
  s.toList.all (fun c => Routing.alphanumeric c || c ∈ [':', '.', '_', '-']) &&
    decide (1 ≤ s.toList.length ∧ s.toList.length ≤ 128)

/-! ## Claims -/

/-- The loop of `_ordered_evidence_ids`. -/
def orderedFrom (seen : List PyStr) : List PyJson → Except Raised (List PyStr)
  | [] => .ok seen
  | .str item :: items =>
    if ¬ item.text?.any isEvidenceId then .error (.evidence "Evidence ID is invalid")
    else if item ∈ seen then .error (.evidence "Evidence IDs must be unique")
    else orderedFrom (seen ++ [item]) items
  | _ :: _ => .error (.evidence "Evidence ID is invalid")

/-- `_ordered_evidence_ids` -/
def orderedEvidenceIds (maximum : ℕ) : PyJson → Except Raised (List PyStr)
  | .list items =>
    if maximum < items.length then .error (.evidence "Evidence IDs are invalid") else orderedFrom [] items
  | _ => .error (.evidence "Evidence IDs are invalid")

/-- `ord(character) < 32 or ord(character) == 127` -/
def isControl (c : CodePoint) : Bool := decide (c.toNat < 32) || decide (c.toNat = 127)

/-- `_claim_text` -/
def claimText (P : Python) : PyJson → Except Raised PyStr
  | .str value =>
    let stripped := PyStr.strip (P.nfc value)
    if stripped.any isControl then .error (.evidence "Evidence claim must be one safe line")
    else
      let normalized := stripped.joinWords
      if normalized = [] ∨ MAX_CLAIM_CHARACTERS < normalized.length then
        .error (.evidence "Evidence claim text is out of bounds")
      else .ok normalized
  | _ => .error (.evidence "Evidence claim text is invalid")

/-- A claim of the receipt. -/
structure Claim where
  text : PyStr
  textSha256 : String
  evidenceIds : List PyStr

/-- `set(value) == {…}`, of the keys of a dictionary -/
def hasKeys (members : List (PyStr × PyJson)) (keys : List String) : Bool :=
  (keys.all fun key => PyStr.of key ∈ members.map (·.1)) && (members.map (·.1)).all (· ∈ keys.map PyStr.of)

/-- Ids join those that were seen, unless they are among them. -/
def joinIds (seen : List PyStr) : List PyStr → List PyStr
  | [] => seen
  | id :: ids => joinIds (if id ∈ seen then seen else seen ++ [id]) ids

/-- One claim: its text, its citations, and all that are cited so far. -/
def readClaim (P : Python) (mode : EvidenceMode) (available : List PyStr) (maxCited : ℕ) (cited : List PyStr) :
    PyJson → Except Raised (Claim × List PyStr)
  | .dict members => do
    raiseIf (¬ hasKeys members ["text", "evidence_ids"]) (.evidence "Evidence claim fields are invalid")
    let text ← claimText P ((members.lookup (PyStr.of "text")).getD .none)
    let refs ← orderedEvidenceIds MAX_EVIDENCE_PER_CLAIM ((members.lookup (PyStr.of "evidence_ids")).getD .none)
    raiseIf (mode = .citationCoverage ∧ (refs = [] ∨ ¬ refs.all (· ∈ available)))
      (.evidence "Every evidence-backed claim needs retrieved citations")
    raiseIf (mode ≠ .citationCoverage ∧ refs ≠ []) (.evidence "Uncited answer mode contains citations")
    raiseIf (maxCited < (joinIds cited refs).length) (.evidence "Cited evidence exceeds its bound")
    let textSha256 ← orRaise (sha256Text text) .unwritable
    return ({ text, textSha256, evidenceIds := refs }, joinIds cited refs)
  | _ => .error (.evidence "Evidence claim fields are invalid")

/-- The loop over the claims. -/
def readClaims (P : Python) (mode : EvidenceMode) (available : List PyStr) (maxCited : ℕ) (cited : List PyStr) :
    List PyJson → Except Raised (List Claim × List PyStr)
  | [] => .ok ([], cited)
  | raw :: raws => do
    let read ← readClaim P mode available maxCited cited raw
    let rest ← readClaims P mode available maxCited read.2 raws
    return (read.1 :: rest.1, rest.2)

/-! ## Answers -/

/-- `"\n".join(texts)` -/
def joinLines (texts : List PyStr) : PyStr := [CodePoint.char '\n'].intercalate texts

/-- `ValidatedAssistantEvidence` -/
structure Validated where
  answer : PyStr
  evidenceIds : List PyStr
  mode : EvidenceMode
  available : List PyStr
  claims : List Claim
  answerSha256 : String

def Claim.json (c : Claim) (index : ℕ) : PyJson := pyDict [
  ("claim_id", pyString ("claim-" ++ toString (index + 1))), ("line_index", .int index),
  ("text_sha256", pyString c.textSha256), ("evidence_ids", .list (c.evidenceIds.map .str))]

/-- The receipt without its hash. -/
def Validated.core (v : Validated) : List (String × PyJson) := [
  ("protocol", pyString ASSISTANT_EVIDENCE_PROTOCOL),
  ("validator_version", pyString ASSISTANT_EVIDENCE_VALIDATOR_VERSION),
  ("mode", pyString v.mode.value), ("claim_count", .int v.claims.length),
  ("citation_count", .int (v.claims.map (·.evidenceIds.length)).sum),
  ("available_evidence_ids", .list (v.available.map .str)), ("cited_evidence_ids", .list (v.evidenceIds.map .str)),
  ("claims", .list (v.claims.zipIdx.map fun c => c.1.json c.2)),
  ("coverage_complete", .bool (v.mode = .citationCoverage)), ("entailment_status", pyString "NOT_VERIFIED"),
  ("answer_sha256", pyString v.answerSha256)]

/-- The receipt: its texts are ids and hashes, which can be written. -/
def Validated.receipt (P : Python) (v : Validated) : PyJson :=
  pyDict (v.core ++ [("receipt_sha256", pyString (sha256Bytes ((P.jsonBytes (pyDict v.core)).getD [])))])

/-- The mode of an answer, of the one that is asked for or of the evidence. -/
def selectMode (mode : Option EvidenceMode) (available : List PyStr) : EvidenceMode :=
  mode.getD (if available = [] then .noCitableEvidence else .citationCoverage)

/-- The claims of an envelope. -/
def rawClaims : PyJson → Except Raised (List PyJson)
  | .dict members =>
    if ¬ hasKeys members ["claims"] then .error (.evidence "Evidence answer envelope is invalid")
    else match members.lookup (PyStr.of "claims") with
      | some (.list raws) => .ok raws
      | _ => .error (.evidence "Evidence claim count is invalid")
  | _ => .error (.evidence "Evidence answer envelope is invalid")

/-- `validate_assistant_evidence_claims` -/
def validateAssistantEvidenceClaims (P : Python) (value : PyJson) (availableEvidenceIds : List PyStr)
    (mode : Option EvidenceMode) (maxCitedEvidence : ℕ) : Except Raised Validated := do
  raiseIf (¬ (1 ≤ maxCitedEvidence ∧ maxCitedEvidence ≤ 100)) (.valueError "Evidence citation bound is invalid")
  let available ← orderedEvidenceIds 100 (.list (availableEvidenceIds.map .str))
  let raws ← rawClaims value
  raiseIf (¬ (1 ≤ raws.length ∧ raws.length ≤ MAX_EVIDENCE_CLAIMS)) (.evidence "Evidence claim count is invalid")
  let selected := selectMode mode available
  raiseIf (selected = .citationCoverage ∧ available = []) (.evidence "Citation coverage requires evidence")
  raiseIf (selected ≠ .citationCoverage ∧ available ≠ []) (.evidence "Uncited mode cannot hide available evidence")
  let read ← readClaims P selected available maxCitedEvidence [] raws
  let answer := joinLines (read.1.map (·.text))
  let answerSha256 ← orRaise (sha256Text answer) .unwritable
  return { answer, evidenceIds := read.2, mode := selected, available, claims := read.1, answerSha256 }

/-- `s` in any case, with the letter that `re.IGNORECASE` takes for an `s` -/
def isJsonWord (s : PyStr) : Bool :=
  match s with
  | [.char j, .char s, .char o, .char n] =>
    j ∈ ['j', 'J'] && s ∈ ['s', 'S', 'ſ'] && o ∈ ['o', 'O'] && n ∈ ['n', 'N']
  | _ => false

def isBlank (c : CodePoint) : Bool := c = .char ' ' || c = .char '\t'

/-- The text after `\r?\n`. -/
def afterNewline : PyStr → Option PyStr
  | .char '\r' :: .char '\n' :: rest => some rest
  | .char '\n' :: rest => some rest
  | _ => none

/-- The body of `_SINGLE_JSON_FENCE`, none when the text does not match. -/
def fencedBody (text : PyStr) : Option PyStr := do
  let opened ← PyStr.dropHead? (PyStr.of "```") text
  let header := if isJsonWord (opened.take 4) then opened.drop 4 else opened
  let rest ← afterNewline (header.dropWhile isBlank)
  -- the end is read backwards, where the newline comes before its `\r`
  let closed ← PyStr.dropHead? (PyStr.of "```") (rest.reverse.dropWhile isBlank)
  match closed with
  | .char '\n' :: .char '\r' :: body => return body.reverse
  | .char '\n' :: body => return body.reverse
  | _ => none

/-- The text without a fence around it. -/
def unfence (text : PyStr) : Except Raised PyStr :=
  if PyStr.of "```" <+: text then
    match fencedBody text with
    | some body => .ok (PyStr.strip body)
    | none => .error (.evidence "Evidence model output must be strict JSON")
  else .ok text

/-- `validate_assistant_evidence_model_text` -/
def validateAssistantEvidenceModelText (P : Python) (value : PyStr) (availableEvidenceIds : List PyStr)
    (maxCitedEvidence : ℕ) : Except Raised Validated := do
  let text ← unfence (PyStr.strip value)
  let parsed ← (P.loads text).mapError fun name =>
    if name = "JSONDecodeError" then .evidence "Evidence model output must be strict JSON" else .other name
  validateAssistantEvidenceClaims P parsed availableEvidenceIds none maxCitedEvidence

/-- `insufficient_evidence_validation` -/
def insufficientEvidenceValidation (P : Python) (answer : PyStr) : Except Raised Validated :=
  validateAssistantEvidenceClaims P
    (pyDict [("claims", .list [pyDict [("text", .str answer), ("evidence_ids", .list [])]])]) []
    (some .insufficientEvidence) 20

/-! ## What an answer is -/

theorem orderedFrom_ok {seen ids : List PyStr} {items : List PyJson} (h : orderedFrom seen items = .ok ids)
    (hseen : seen.Nodup) : ids.Nodup ∧ ∃ l : List PyStr, items = l.map .str ∧ ids = seen ++ l := by
  induction items generalizing seen with
  | nil =>
    cases h
    exact ⟨hseen, [], rfl, (List.append_nil _).symm⟩
  | cons item items ih =>
    cases item with
    | str s =>
      rw [orderedFrom] at h
      split at h
      · cases h
      · split at h
        · cases h
        · next hnew =>
          obtain ⟨hnodup, l, rfl, hids⟩ := ih h (List.nodup_append.2 ⟨hseen, List.nodup_singleton s, by
            rintro a ha b hb rfl
            exact hnew (List.mem_singleton.1 hb ▸ ha)⟩)
          exact ⟨hnodup, s :: l, rfl, by rw [hids, List.append_assoc, List.singleton_append]⟩
    | _ => cases h

theorem orderedEvidenceIds_ok {maximum : ℕ} {value : PyJson} {ids : List PyStr}
    (h : orderedEvidenceIds maximum value = .ok ids) : ids.Nodup ∧ value = .list (ids.map .str) := by
  cases value with
  | list items =>
    rw [orderedEvidenceIds] at h
    split at h
    · cases h
    · obtain ⟨hnodup, l, rfl, hids⟩ := orderedFrom_ok h List.nodup_nil
      rw [List.nil_append] at hids
      exact ⟨hnodup, by rw [hids]⟩
  | _ => cases h

theorem str_injective : Function.Injective PyJson.str := fun _ _ h => PyJson.str.inj h

theorem joinIds_spec {seen ids : List PyStr} (h : seen.Nodup) :
    (joinIds seen ids).Nodup ∧ ∀ id, id ∈ joinIds seen ids ↔ id ∈ seen ∨ id ∈ ids := by
  induction ids generalizing seen with
  | nil => exact ⟨h, fun id => by simp [joinIds]⟩
  | cons id ids ih =>
    rw [joinIds]
    split
    · next hid =>
      obtain ⟨hnodup, hmem⟩ := ih h
      refine ⟨hnodup, fun id' => ?_⟩
      rw [hmem, List.mem_cons]
      constructor
      · rintro (h | h)
        · exact .inl h
        · exact .inr (.inr h)
      · rintro (h | rfl | h)
        · exact .inl h
        · exact .inl hid
        · exact .inr h
    · next hid =>
      obtain ⟨hnodup, hmem⟩ := ih (List.nodup_append.2 ⟨h, List.nodup_singleton id, by
        rintro a ha b hb rfl
        exact hid (List.mem_singleton.1 hb ▸ ha)⟩)
      refine ⟨hnodup, fun id' => ?_⟩
      rw [hmem, List.mem_append, List.mem_singleton, List.mem_cons, or_assoc]

theorem joinIds_append (seen ids ids' : List PyStr) : joinIds seen (ids ++ ids') = joinIds (joinIds seen ids) ids' := by
  induction ids generalizing seen with
  | nil => rfl
  | cons id ids ih =>
    rw [List.cons_append, joinIds, joinIds, ih]

theorem length_joinIds_le (seen ids : List PyStr) : (joinIds seen ids).length ≤ seen.length + ids.length := by
  induction ids generalizing seen with
  | nil => exact Nat.le_refl _
  | cons id ids ih =>
    rw [joinIds, List.length_cons]
    split
    · have hrest := ih seen
      omega
    · have hrest := ih (seen ++ [id])
      rw [List.length_append, List.length_singleton] at hrest
      omega

theorem claimText_ok {P : Python} {value : PyJson} {text : PyStr} (h : claimText P value = .ok text) :
    (∀ c ∈ text, PyStr.isSpace c = true → c = .char ' ') ∧ text ≠ [] ∧ text.length ≤ MAX_CLAIM_CHARACTERS := by
  cases value with
  | str s =>
    rw [claimText] at h
    dsimp only at h
    split at h
    · cases h
    · split at h
      · cases h
      · next hbounds =>
        cases h
        rw [not_or, Nat.not_lt] at hbounds
        exact ⟨fun c hc hspace => PyStr.eq_blank_of_mem_joinWords hc hspace, hbounds⟩
  | _ => cases h

/-- A claim that is read: one line, cited if there is evidence and only then. -/
structure Claim.Sound (mode : EvidenceMode) (available : List PyStr) (c : Claim) : Prop where
  line : (∀ x ∈ c.text, PyStr.isSpace x = true → x = .char ' ') ∧ c.text ≠ [] ∧ c.text.length ≤ MAX_CLAIM_CHARACTERS
  hash : sha256Text c.text = some c.textSha256
  nodup : c.evidenceIds.Nodup
  cited : mode = .citationCoverage → c.evidenceIds ≠ [] ∧ ∀ id ∈ c.evidenceIds, id ∈ available
  uncited : mode ≠ .citationCoverage → c.evidenceIds = []

section
variable {P : Python} {mode : EvidenceMode} {available cited : List PyStr} {maxCited : ℕ}

theorem readClaim_ok {raw : PyJson} {x : Claim × List PyStr}
    (h : readClaim P mode available maxCited cited raw = .ok x) :
    x.1.Sound mode available ∧ x.2 = joinIds cited x.1.evidenceIds ∧ x.2.length ≤ maxCited := by
  cases raw with
  | dict members =>
    rw [readClaim] at h
    obtain ⟨-, -, h⟩ := bind_eq_ok.1 h
    obtain ⟨text, htext, h⟩ := bind_eq_ok.1 h
    obtain ⟨refs, hrefs, h⟩ := bind_eq_ok.1 h
    obtain ⟨_, hcovered, h⟩ := bind_eq_ok.1 h
    obtain ⟨_, huncited, h⟩ := bind_eq_ok.1 h
    obtain ⟨_, hbound, h⟩ := bind_eq_ok.1 h
    obtain ⟨hash, hhash, h⟩ := bind_eq_ok.1 h
    cases h
    refine ⟨⟨claimText_ok htext, orRaise_eq_ok.1 hhash, (orderedEvidenceIds_ok hrefs).1, ?_, ?_⟩, rfl,
      Nat.not_lt.1 (raiseIf_eq_ok.1 hbound)⟩
    · intro hmode
      have hrest := not_or.1 (not_and.1 (raiseIf_eq_ok.1 hcovered) hmode)
      refine ⟨hrest.1, fun id hid => ?_⟩
      exact of_decide_eq_true (List.all_eq_true.1 (not_not.1 hrest.2) id hid)
    · intro hmode
      exact not_not.1 (not_and.1 (raiseIf_eq_ok.1 huncited) hmode)
  | _ => cases h

/-- The claims that are read, and all that they cite. -/
theorem readClaims_ok {raws : List PyJson} {x : List Claim × List PyStr} (hcited : cited.Nodup)
    (h : readClaims P mode available maxCited cited raws = .ok x) :
    x.1.length = raws.length ∧ (∀ c ∈ x.1, c.Sound mode available) ∧ x.2.Nodup ∧
      (∀ id, id ∈ x.2 ↔ id ∈ cited ∨ ∃ c ∈ x.1, id ∈ c.evidenceIds) ∧ (raws ≠ [] → x.2.length ≤ maxCited) := by
  induction raws generalizing cited x with
  | nil =>
    cases h
    exact ⟨rfl, by simp, hcited, by simp, fun h => absurd rfl h⟩
  | cons raw raws ih =>
    rw [readClaims] at h
    obtain ⟨read, hread, h⟩ := bind_eq_ok.1 h
    obtain ⟨rest, hrest, h⟩ := bind_eq_ok.1 h
    cases h
    obtain ⟨hsound, hcites, hbound⟩ := readClaim_ok hread
    obtain ⟨hnodup, hmem⟩ := @joinIds_spec cited read.1.evidenceIds hcited
    rw [← hcites] at hnodup hmem
    obtain ⟨hlength, hall, hrestNodup, hrestMem, hrestBound⟩ := ih hnodup hrest
    refine ⟨by rw [List.length_cons, List.length_cons, hlength], List.forall_mem_cons.2 ⟨hsound, hall⟩, hrestNodup, ?_, ?_⟩
    · intro id
      rw [hrestMem, hmem, or_assoc]
      simp only [List.mem_cons, exists_eq_or_imp]
    · intro _
      cases raws with
      | nil =>
        cases hrest
        exact hbound
      | cons raw' raws => exact hrestBound (List.cons_ne_nil _ _)

end

/-- An answer whose claims are covered by the evidence that is available. -/
structure Validated.Covered (available : List PyStr) (maxCited : ℕ) (v : Validated) : Prop where
  distinct : available.Nodup
  claims : 1 ≤ v.claims.length ∧ v.claims.length ≤ MAX_EVIDENCE_CLAIMS
  /-- every line is a claim, with the hash of the receipt -/
  lines : v.answer.splitOn (.char '\n') = v.claims.map (·.text)
  plain : ∀ c ∈ v.answer, PyStr.isSpace c = true → c = .char ' ' ∨ c = .char '\n'
  hashes : ∀ c ∈ v.claims, sha256Text c.text = some c.textSha256
  /-- every claim is cited, if there is evidence -/
  covered : available ≠ [] → ∀ c ∈ v.claims, c.evidenceIds ≠ [] ∧ c.evidenceIds.Nodup ∧ ∀ id ∈ c.evidenceIds, id ∈ available
  uncited : available = [] → v.evidenceIds = []
  cited : v.evidenceIds.Nodup ∧ ∀ id, id ∈ v.evidenceIds ↔ ∃ c ∈ v.claims, id ∈ c.evidenceIds
  count : v.evidenceIds.length ≤ maxCited

theorem validateClaims_covered {P : Python} {value : PyJson} {available : List PyStr} {mode : Option EvidenceMode}
    {maxCited : ℕ} {v : Validated} (h : validateAssistantEvidenceClaims P value available mode maxCited = .ok v) :
    v.Covered available maxCited := by
  rw [validateAssistantEvidenceClaims] at h
  obtain ⟨-, -, h⟩ := bind_eq_ok.1 h
  obtain ⟨ids, hids, h⟩ := bind_eq_ok.1 h
  obtain ⟨raws, hraws, h⟩ := bind_eq_ok.1 h
  obtain ⟨_, hcount, h⟩ := bind_eq_ok.1 h
  obtain ⟨_, hcoverage, h⟩ := bind_eq_ok.1 h
  obtain ⟨_, hhidden, h⟩ := bind_eq_ok.1 h
  obtain ⟨read, hread, h⟩ := bind_eq_ok.1 h
  obtain ⟨hash, hhash, h⟩ := bind_eq_ok.1 h
  cases h
  obtain ⟨hnodup, hlist⟩ := orderedEvidenceIds_ok hids
  have hcount := not_not.1 (raiseIf_eq_ok.1 hcount)
  have hcoverage := not_and.1 (raiseIf_eq_ok.1 hcoverage)
  have hhidden := not_and.1 (raiseIf_eq_ok.1 hhidden)
  have hids : available = ids := str_injective.list_map (PyJson.list.inj hlist)
  subst hids
  obtain ⟨hlength, hsound, hcited, hmem, hbound⟩ := readClaims_ok List.nodup_nil hread
  have hne : raws ≠ [] := List.ne_nil_of_length_pos hcount.1
  have hclaims : read.1.map (·.text) ≠ [] := by
    intro hnil
    have hzero : read.1.length = 0 := by rw [← List.length_map (f := Claim.text), hnil, List.length_nil]
    omega
  have hmode : available ≠ [] → selectMode mode available = .citationCoverage := by
    intro havailable
    by_contra hother
    exact hhidden hother havailable
  refine ⟨hnodup, hlength ▸ hcount, ?_, ?_, fun c hc => (hsound c hc).hash, ?_, ?_, ⟨hcited, fun id => ?_⟩, hbound hne⟩
  · refine List.splitOn_intercalate _ ?_ hclaims
    intro line hline hnewline
    obtain ⟨c, hc, rfl⟩ := List.mem_map.1 hline
    have hblank := (hsound c hc).line.1 _ hnewline rfl
    cases hblank
  · intro x hx hspace
    rcases PyStr.mem_intercalate hx with rfl | ⟨line, hline, hx⟩
    · exact .inr rfl
    · obtain ⟨c, hc, rfl⟩ := List.mem_map.1 hline
      exact .inl ((hsound c hc).line.1 x hx hspace)
  · intro havailable c hc
    have hc := hsound c hc
    exact ⟨(hc.cited (hmode havailable)).1, hc.nodup, (hc.cited (hmode havailable)).2⟩
  · intro havailable
    refine List.eq_nil_iff_forall_not_mem.2 fun id hid => ?_
    obtain hid | ⟨c, hc, hid⟩ := (hmem id).1 hid
    · cases hid
    · have hmode : selectMode mode available ≠ .citationCoverage := fun hmode => hcoverage hmode havailable
      rw [(hsound c hc).uncited hmode] at hid
      cases hid
  · rw [hmem id]
    simp

/-- What the text of a model is read as. -/
theorem validated_covered {P : Python} {text : PyStr} {available : List PyStr} {maxCited : ℕ} {v : Validated}
    (h : validateAssistantEvidenceModelText P text available maxCited = .ok v) : v.Covered available maxCited := by
  rw [validateAssistantEvidenceModelText] at h
  obtain ⟨body, -, h⟩ := bind_eq_ok.1 h
  obtain ⟨parsed, -, h⟩ := bind_eq_ok.1 h
  exact validateClaims_covered h

end Xauusd.Agent
