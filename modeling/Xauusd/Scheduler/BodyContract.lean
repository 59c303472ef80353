/-
  Complete bodies (`news/semantics/critical_state.py`, `transitions.py`,
  `news/scheduler/state.py`).

  The dashboard reads the length of a body in Python, the statements on jobs
  read it in SQL.

  * `contentState`, `annotationState`: the state of a revision in the
    dashboard;
  * `Evidence.backfills`, `Evidence.transitions`: the `WHERE` clauses of the
    other statements, beside that of the reconciliation;
  * `OneContract`: the state is that of a complete body where the statements
    find one;
  * `one_contract_iff`: **it is, if and only if no NUL stands among the first
    characters of a long body, and no white space but blanks makes up for the
    characters that a short one lacks**.
-/
import Xauusd.Scheduler.Reconcile

namespace Xauusd.Scheduler

variable (P : Platform)

/-! ## The dashboard -/

/-- A row of `news_content_failures`. -/
structure ContentFailure where
  source : String
  sourceItemId : String
  revisionNumber : ℤ
  attemptNumber : ℤ
  isTerminal : Bool
  deriving DecidableEq, Repr

inductive ContentState where
  | available
  | unavailable
  | waiting
  deriving DecidableEq, Repr

inductive AnnotationState where
  | none
  | pending
  | ready
  deriving DecidableEq, Repr

def DEFAULT_GEMINI_MODEL : String := "gemini-3.5-flash-lite"
def FALLBACK_GEMINI_MODEL : String := "gemini-3.1-flash-lite"
def SUPPORTED_GEMINI_MODELS : List String := [DEFAULT_GEMINI_MODEL, FALLBACK_GEMINI_MODEL]

/-- `str(row["body"] or "").strip()`, of at least the number of characters -/
def NewsRevision.hasStrippedBody (n : NewsRevision) : Bool :=
  decide (ANNOTATION_BODY_MIN_CHARACTERS ≤ Text.len (Text.strip (n.body.getD "")))

/-- `_content_state` -/
def contentState (failures : List ContentFailure) (n : NewsRevision) : ContentState :=
  if n.hasStrippedBody then .available
  else
    match Table.firstBy (fun a b => decide (b.attemptNumber ≤ a.attemptNumber)) (failures.filter fun f =>
      f.source = n.source && f.sourceItemId = n.sourceItemId && f.revisionNumber = n.revisionNumber) with
    | some failure => if failure.isTerminal then .unavailable else .waiting
    | Option.none => .waiting

/-- A usable annotation of the revision by a supported model. -/
def NewsRevision.annotatedBy (n : NewsRevision) (promptVersion : String) (a : NewsAnnotation) : Bool :=
  a.source = n.source && a.sourceItemId = n.sourceItemId && a.revisionNumber = n.revisionNumber &&
    a.llmModelVersion ∈ SUPPORTED_GEMINI_MODELS && a.promptVersion = promptVersion && modelUsable a

/-- `_annotation_state` -/
def annotationState (forwardEpoch : Option ℤ) (e : Evidence) (n : NewsRevision) : AnnotationState :=
  if !n.hasStrippedBody then .none
  else
    match forwardEpoch with
    | Option.none => .none
    | some epoch =>
      if !(assessNewsSemanticEligibility n epoch).eligible then .none
      else if e.annotations.any (n.annotatedBy PROMPT_VERSION) then .ready
      else .pending

/-! ## The statements -/

/-- `length(trim(COALESCE(body,'')))>=240` -/
def NewsRevision.hasTrimmedBody (n : NewsRevision) : Bool :=
  decide (ANNOTATION_BODY_MIN_CHARACTERS ≤ Text.sqlLength (Text.trimBlanks (n.body.getD "")))

/-- No later revision of the same item. -/
def Evidence.newest (e : Evidence) (n : NewsRevision) : Bool :=
  !e.revisions.any fun newer =>
    newer.source = n.source && newer.sourceItemId = n.sourceItemId && decide (n.revisionNumber < newer.revisionNumber)

/-- The rows of `_backfill_current_annotation_completions` -/
def Evidence.backfills (e : Evidence) (forwardEpoch : ℤ) (n : NewsRevision) : Bool :=
  e.annotations.any (n.annotatedBy PROMPT_VERSION) && n.hasTrimmedBody && semanticEligible forwardEpoch n &&
    e.newest n &&
    !e.revisions.any fun peer => peer.clusterId = n.clusterId && e.newest peer && semanticEligible forwardEpoch peer &&
      preferredClusterPeer peer n

/-- What a page of a transition is asked for: the versions, when it was
    activated, the annotations that failed, and where the last page ended. -/
structure TransitionPage where
  fromVersion : String
  toVersion : String
  activatedAt : ℤ
  failed : List String
  cursor : Option (ℤ × String)

/-- The rows of `execute_transition_page` -/
def Evidence.transitions (e : Evidence) (t : TransitionPage) (forwardEpoch : ℤ) (a : NewsAnnotation)
    (n : NewsRevision) : Bool :=
  n.annotatedBy t.fromVersion a && semanticEligible forwardEpoch n && n.hasTrimmedBody &&
    decide (n.collectorFirstSeenTime < t.activatedAt) && e.newest n &&
    !(e.revisions.any fun peer => peer.clusterId = n.clusterId && peer.hasTrimmedBody && e.newest peer &&
      semanticEligible forwardEpoch peer && preferredClusterPeer peer n) &&
    !e.annotations.any (n.annotatedBy t.toVersion) &&
    !(e.annotations.any fun newer => n.annotatedBy t.fromVersion newer &&
      (decide (a.parsedAt < newer.parsedAt) || a.parsedAt = newer.parsedAt && decide (a.annotationId < newer.annotationId))) &&
    a.annotationId ∉ t.failed &&
    t.cursor.all fun c => decide (c.1 < a.parsedAt) || c.1 = a.parsedAt && decide (c.2 < a.annotationId)

/-- A statement takes the revision for annotation: the reconciliation keeps its
    job, or it is one of the rows of the others. -/
inductive Evidence.Admits (e : Evidence) (forwardEpoch : ℤ) (n : NewsRevision) : Prop
  | kept (protectedDays : List String) (j : Job) : n ∈ e.revisions →
      j.about n.source n.sourceItemId n.revisionNumber = true → e.unfit P forwardEpoch protectedDays j = false →
      Admits e forwardEpoch n
  | backfilled : e.backfills forwardEpoch n = true → Admits e forwardEpoch n
  | transitioned (t : TransitionPage) (a : NewsAnnotation) : e.transitions t forwardEpoch a n = true →
      Admits e forwardEpoch n

/-! ## One contract -/

/-- The state is that of a complete body where the statements find one, and a
    revision that they take is neither waiting nor without annotation state. -/
structure OneContract (n : NewsRevision) : Prop where
  content : ∀ failures, contentState failures n = .available ↔ n.hasTrimmedBody = true
  annotation : ∀ e epoch, annotationState (some epoch) e n ≠ .none ↔
    n.hasTrimmedBody = true ∧ semanticEligible epoch n = true
  admitted : ∀ e epoch failures, e.Admits P epoch n →
    contentState failures n = .available ∧ annotationState (some epoch) e n ≠ .none

/-- A NUL among the first characters after the leading blanks. -/
def NewsRevision.nulEarly (n : NewsRevision) : Prop :=
  ∃ c ∈ (Text.trimBlanks (n.body.getD "")).toList.take ANNOTATION_BODY_MIN_CHARACTERS, c.toNat = 0

/-- Without its outer white space the body is too short, but not without its
    outer blanks alone. -/
def NewsRevision.padded (n : NewsRevision) : Prop :=
  Text.len (Text.strip (n.body.getD "")) < ANNOTATION_BODY_MIN_CHARACTERS ∧
    ANNOTATION_BODY_MIN_CHARACTERS ≤ Text.len (Text.trimBlanks (n.body.getD ""))

variable {P} {n : NewsRevision} {e : Evidence} {epoch : ℤ}

theorem content_available_iff {failures : List ContentFailure} :
    contentState failures n = .available ↔ n.hasStrippedBody = true := by
  unfold contentState
  split
  · next h => exact iff_of_true rfl h
  · next h =>
    refine iff_of_false ?_ h
    split
    · split <;> simp
    · simp

theorem annotation_ne_none_iff : annotationState (some epoch) e n ≠ .none ↔
    n.hasStrippedBody = true ∧ semanticEligible epoch n = true := by
  unfold annotationState semanticEligible
  by_cases hbody : n.hasStrippedBody = true
  · by_cases heligible : (assessNewsSemanticEligibility n epoch).eligible = true
    · refine iff_of_true ?_ ⟨hbody, heligible⟩
      rw [if_neg (by simp [hbody])]
      dsimp only
      rw [if_neg (by simp [heligible])]
      split <;> simp
    · simp [hbody, heligible]
  · simp [hbody]

/-- Whatever a statement takes is complete and eligible. -/
theorem Evidence.Admits.complete (h : e.Admits P epoch n) : n.hasTrimmedBody = true ∧ semanticEligible epoch n = true := by
  cases h with
  | kept protectedDays j hn habout hfit =>
    have hn := List.any_eq_false.1 hfit n hn
    simp only [habout, Bool.true_and, Bool.or_eq_true, not_or, decide_eq_true_eq, not_lt, Bool.not_eq_true',
      Bool.not_eq_false] at hn
    exact ⟨decide_eq_true hn.1.1.1, hn.1.1.2⟩
  | backfilled h =>
    simp only [Evidence.backfills, Bool.and_eq_true] at h
    exact ⟨h.1.1.1.2, h.1.1.2⟩
  | transitioned t a h =>
    simp only [Evidence.transitions, Bool.and_eq_true] at h
    exact ⟨h.1.1.1.1.1.1.1.2, h.1.1.1.1.1.1.1.1.2⟩

/-- The readers share a contract if they find the same lengths. -/
theorem one_contract_of_eq : OneContract P n ↔ (n.hasStrippedBody = true ↔ n.hasTrimmedBody = true) := by
  constructor
  · intro h
    exact content_available_iff.symm.trans (h.content [])
  · intro h
    refine ⟨fun failures => content_available_iff.trans h, fun e epoch => ?_, fun e epoch failures hadmits => ?_⟩
    · rw [annotation_ne_none_iff, h]
    · obtain ⟨hbody, heligible⟩ := hadmits.complete
      rw [content_available_iff, annotation_ne_none_iff, h]
      exact ⟨hbody, hbody, heligible⟩

/-- A blank is white space. -/
theorem isSpace_of_blank (c : Char) (h : decide (c = ' ') = true) : Text.isSpace c = true := by
  obtain rfl := of_decide_eq_true h
  decide

/-- **The readers share a contract if and only if no NUL stands among the first
    characters of a long body, and no white space but blanks makes up for the
    characters that a short one lacks.** -/
theorem one_contract_iff (P : Platform) (n : NewsRevision) : OneContract P n ↔
    (ANNOTATION_BODY_MIN_CHARACTERS ≤ Text.len (Text.strip (n.body.getD "")) → ¬ n.nulEarly) ∧
      (n.padded → n.nulEarly) := by
  have hle : Text.len (Text.strip (n.body.getD "")) ≤ Text.len (Text.trimBlanks (n.body.getD "")) :=
    Text.len_trimBy_le isSpace_of_blank _
  have hnul : n.nulEarly ↔ ¬ ∀ c ∈ (Text.trimBlanks (n.body.getD "")).toList.take ANNOTATION_BODY_MIN_CHARACTERS,
      c.toNat ≠ 0 := by
    simp only [NewsRevision.nulEarly, not_forall, not_not, exists_prop]
  rw [one_contract_of_eq, NewsRevision.hasStrippedBody, NewsRevision.hasTrimmedBody, decide_eq_true_eq,
    decide_eq_true_eq, Text.le_sqlLength_iff, NewsRevision.padded, hnul]
  constructor
  · intro h
    refine ⟨fun hlong hnone => hnone (h.1 hlong).2, fun hpadded hnone => ?_⟩
    have hlong := h.2 ⟨hpadded.2, hnone⟩
    omega
  · rintro ⟨hlong, hpadded⟩
    refine ⟨fun h => ⟨h.trans hle, not_not.1 (hlong h)⟩, fun ⟨htrimmed, hnone⟩ => ?_⟩
    by_contra hshort
    exact hpadded ⟨not_le.1 hshort, htrimmed⟩ hnone

/-! ## A line break at the end -/

/-- 239 letters and a line break. -/
def brokenText : List Char := List.replicate 239 'a' ++ [Char.ofNat 10]

def brokenLine : NewsRevision where
  source := "source"
  sourceItemId := "item"
  revisionNumber := 1
  sourcePublishedTime := some 0
  collectorFirstSeenTime := 0
  headline := "headline"
  body := some (String.ofList brokenText)
  contentHash := "hash"
  clusterId := "cluster"

/-- **The dashboard waits for a body that the statements take.** -/
theorem brokenLine_waits : ¬ ∃ P : Platform, OneContract P brokenLine := by
  rintro ⟨P, h⟩
  have hstripped : ((brokenText.dropWhile Text.isSpace).rdropWhile Text.isSpace).length = 239 := by decide +kernel
  have htrimmed : (((brokenText.dropWhile (· = ' ')).rdropWhile (· = ' ')).takeWhile fun c => c.toNat ≠ 0).length =
      240 := by
    decide +kernel
  rw [one_contract_of_eq, NewsRevision.hasStrippedBody, NewsRevision.hasTrimmedBody] at h
  simp only [brokenLine, Option.getD_some, Text.strip, Text.trimBlanks, Text.trimBy, Text.len, Text.sqlLength,
    String.toList_ofList, hstripped, htrimmed] at h
  revert h
  decide

end Xauusd.Scheduler
