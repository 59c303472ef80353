/-
  The evidence ledger the scheduler reads (`evidence/ledger.py`), and the
  predicates on its rows that the scheduler's statements share.

  The evidence tables are append-only: no statement of the program updates or
  deletes a row, so a table is the list of its rows in insertion order, and the
  newest implicit rowid is the length of the list.

  * `modelUsable` is `model_usable_annotation_predicate`;
  * `assessNewsSemanticEligibility` and `assessNewsTime` are the two decisions
    of `news/semantics/time.py`;
  * `preferredClusterPeer` is `preferred_cluster_peer_predicate`, a strict
    order on the rows (`preferredClusterPeer_irrefl`,
    `preferredClusterPeer_trans`).
-/
import Xauusd.Scheduler.Types

namespace Xauusd.Scheduler

/-! ## Rows -/

/-- A row of `news_revisions`. -/
structure NewsRevision where
  source : String
  sourceItemId : String
  revisionNumber : ℤ
  sourcePublishedTime : Option ℤ
  collectorFirstSeenTime : ℤ
  headline : String
  body : Option String
  contentHash : String
  clusterId : String
  deriving DecidableEq, Repr

/-- The numeric part of an annotation; `append_annotation` refuses a value
    outside its range. -/
structure AnnotationVector where
  hawkishness : ℚ
  inflationImpulse : ℚ
  growthImpulse : ℚ
  geopoliticalRisk : ℚ
  usdImpulse : ℚ
  novelty : ℚ
  confidence : ℚ
  impulses : ∀ x ∈ [hawkishness, inflationImpulse, growthImpulse, geopoliticalRisk, usdImpulse],
    -1 ≤ x ∧ x ≤ 1
  shares : ∀ x ∈ [novelty, confidence], 0 ≤ x ∧ x ≤ 1
  deriving DecidableEq

/-- A row of `news_annotations`; of `annotation_json`, the members that the
    scheduler reads. -/
structure NewsAnnotation where
  annotationId : String
  source : String
  sourceItemId : String
  revisionNumber : ℤ
  rawContentHash : String
  vector : AnnotationVector
  llmModelVersion : String
  promptVersion : String
  parsedAt : ℤ
  semanticReasonZh : Option String
  xauusdRelevance : Option String
  primaryCategory : Option String
  deriving DecidableEq

/-- A row of `news_title_translations`. -/
structure TitleTranslation where
  translationId : String
  source : String
  sourceItemId : String
  revisionNumber : ℤ
  headlineZh : String
  promptVersion : String
  parsedAt : ℤ
  deriving DecidableEq, Repr

/-- A row of `news_impact_assessments_v1`. -/
structure ImpactAssessment where
  assessmentId : String
  annotationId : String
  promptVersion : String
  deriving DecidableEq, Repr

/-- A row of `news_llm_failures`. -/
structure LlmFailure where
  failureId : String
  taskType : String
  source : String
  sourceItemId : String
  revisionNumber : ℤ
  rawContentHash : String
  llmModelVersion : String
  promptVersion : String
  attemptNumber : ℤ
  failedAt : ℤ
  nextRetryAt : Option ℤ
  isTerminal : Bool
  deriving DecidableEq, Repr

/-- A row of `news_impact_failures_v1`. -/
structure ImpactFailure where
  failureId : String
  annotationId : String
  rawContentHash : String
  llmModelVersion : String
  promptVersion : String
  attemptNumber : ℤ
  failedAt : ℤ
  nextRetryAt : Option ℤ
  isTerminal : Bool
  deriving DecidableEq, Repr

/-- A row of `news_annotation_transition_projections_v1`. -/
structure TransitionProjection where
  targetAnnotationId : String
  sourceAnnotationId : String
  transitionFingerprint : String
  deriving DecidableEq, Repr

/-- A row of `macro_observations`. -/
structure MacroObservation where
  source : String
  seriesId : String
  observationPeriod : String
  revisionNumber : ℤ
  collectorFirstSeenTime : ℤ
  value : ℚ
  deriving DecidableEq, Repr

/-- The evidence tables, each in insertion order. -/
structure Evidence where
  revisions : List NewsRevision
  annotations : List NewsAnnotation
  titleTranslations : List TitleTranslation
  impactAssessments : List ImpactAssessment
  llmFailures : List LlmFailure
  impactFailures : List ImpactFailure
  projections : List TransitionProjection
  macroObservations : List MacroObservation

def Evidence.empty : Evidence := ⟨[], [], [], [], [], [], [], []⟩

/-! ## Annotations that may drive downstream behaviour -/

def LEGACY_INVALID_SEMANTIC_REASON_PREFIX : String := "语言或结构一致性检查未通过"
def DISPLAY_AUDIT_FALLBACK_REASON_PREFIX : String := "语义已完成，但中文展示未通过校验"

/-- `model_usable_annotation_predicate` -/
def modelUsable (a : NewsAnnotation) : Bool :=
  !Text.like (LEGACY_INVALID_SEMANTIC_REASON_PREFIX ++ "%") (a.semanticReasonZh.getD "") &&
    !Text.like (DISPLAY_AUDIT_FALLBACK_REASON_PREFIX ++ "%") (a.semanticReasonZh.getD "")

/-! ## Time decisions -/

def MAX_ACTIONABLE_NEWS_AGE : ℤ := 72 * IsoTime.hour
def MAX_ACTIONABLE_DISCOVERY_DELAY : ℤ := IsoTime.hour
def MAX_PUBLICATION_CLOCK_SKEW : ℤ := 10 * IsoTime.minute

structure NewsSemanticEligibility where
  eligible : Bool
  reasonCode : String
  timingReasonCodes : List String
  publicationTimeReliability : String
  deriving DecidableEq, Repr

/-- `assess_publication_receipt_clock`: eligible, and published after receipt -/
def assessPublicationReceiptClock (published received : ℤ) : Bool × Bool :=
  let followsReceipt := decide (received < published)
  (!followsReceipt || decide (published - received ≤ MAX_PUBLICATION_CLOCK_SKEW), followsReceipt)

/-- `assess_news_semantic_eligibility` -/
def assessNewsSemanticEligibility (row : NewsRevision) (forwardEpoch : ℤ) :
    NewsSemanticEligibility :=
  let firstSeen := row.collectorFirstSeenTime
  let reliability :=
    if row.source = "gdelt_gold_geopolitics" then "MIXED_PRECISE_OR_BATCH_PROXY"
    else "SOURCE_REPORTED"
  if firstSeen < forwardEpoch then ⟨false, "PRE_FORWARD_RECEIPT", [], reliability⟩
  else match row.sourcePublishedTime with
  | none => ⟨false, "PUBLISHED_TIME_MISSING", [], reliability⟩
  | some published =>
    if published < forwardEpoch then ⟨false, "PRE_FORWARD_PUBLICATION", [], reliability⟩
    else
      let (eligible, publishedAfterReceipt) := assessPublicationReceiptClock published firstSeen
      if publishedAfterReceipt && !eligible then
        ⟨false, "PUBLISHED_AFTER_DECISION", ["PUBLISHED_AFTER_RECEIPT"], reliability⟩
      else
        let reasons :=
          if publishedAfterReceipt then ["PUBLISHED_AFTER_RECEIPT"]
          else (if MAX_ACTIONABLE_DISCOVERY_DELAY < firstSeen - published
              then ["LATE_DISCOVERY"] else []) ++
            (if MAX_ACTIONABLE_NEWS_AGE < firstSeen - published then ["STALE_EVENT"] else [])
        ⟨true, "SEMANTIC_ELIGIBLE", if reasons = [] then ["CURRENT_EVENT"] else reasons, reliability⟩

/-- `news_semantic_is_eligible`, the SQL function behind
    `semantic_eligibility_sql_predicate` -/
def semanticEligible (forwardEpoch : ℤ) (row : NewsRevision) : Bool :=
  (assessNewsSemanticEligibility row forwardEpoch).eligible

/-- `category_time_rule`, the actionable window -/
def categoryActionableAge (category : Option String) : ℤ :=
  match category.getD "" with
  | "inflation_employment" | "risk_sentiment" => 24 * IsoTime.hour
  | "rates_fed" => 72 * IsoTime.hour
  | "growth_economy" | "usd_liquidity" | "oil_energy" => 48 * IsoTime.hour
  | "war_geopolitics" => 36 * IsoTime.hour
  | "central_bank_gold" => 7 * IsoTime.day
  | _ => MAX_ACTIONABLE_NEWS_AGE

structure NewsTimeAssessment where
  eligible : Bool
  eventTime : Option ℤ
  ageMinutes : Option ℚ
  discoveryDelaySeconds : Option ℚ
  reasonCode : String
  deriving DecidableEq, Repr

/-- `assess_news_time`, with the flags its callers here leave at their defaults -/
def assessNewsTime (row : NewsRevision) (decisionTime forwardEpoch maxActionableAge : ℤ)
    (maxDiscoveryDelay : Option ℤ) : NewsTimeAssessment :=
  let firstSeen := row.collectorFirstSeenTime
  if decisionTime < firstSeen then
    ⟨false, row.sourcePublishedTime, none, none, "NOT_YET_VISIBLE"⟩
  else match row.sourcePublishedTime with
  | none => ⟨false, none, none, none, "PUBLISHED_TIME_MISSING"⟩
  | some published =>
    let delay : ℚ := (firstSeen - published) / IsoTime.second
    let age : ℚ := (decisionTime - published) / IsoTime.minute
    let refuse (code : String) : NewsTimeAssessment :=
      ⟨false, some published, some age, some delay, code⟩
    if published < forwardEpoch then refuse "PRE_FORWARD_PUBLICATION"
    else if decisionTime < published then refuse "PUBLISHED_AFTER_DECISION"
    else if maxDiscoveryDelay.any fun limit => limit < firstSeen - published then
      refuse "LATE_DISCOVERY"
    else if maxActionableAge < decisionTime - published then refuse "STALE_EVENT"
    else ⟨true, some published, some (max 0 age), some delay, "CURRENT_EVENT"⟩

/-! ## Cluster representatives -/

/-- `length(COALESCE(body,''))` -/
def NewsRevision.bodyLength (n : NewsRevision) : ℕ := Text.sqlLength (n.body.getD "")

/-- `preferred_cluster_peer_predicate`: the longer body, then the smaller
    `(source, source_item_id)`. -/
def preferredClusterPeer (peer candidate : NewsRevision) : Bool :=
  decide (candidate.bodyLength < peer.bodyLength ∨
    peer.bodyLength = candidate.bodyLength ∧ (peer.source < candidate.source ∨
      peer.source = candidate.source ∧ peer.sourceItemId < candidate.sourceItemId))

theorem preferredClusterPeer_irrefl (n : NewsRevision) : preferredClusterPeer n n = false := by
  simp [preferredClusterPeer]

theorem preferredClusterPeer_trans {n n' n'' : NewsRevision}
    (h : preferredClusterPeer n n' = true) (h' : preferredClusterPeer n' n'' = true) :
    preferredClusterPeer n n'' = true := by
  simp only [preferredClusterPeer, decide_eq_true_eq] at h h' ⊢
  rcases h with h | ⟨e, h⟩
  · rcases h' with h' | ⟨e', -⟩
    · exact .inl (h'.trans h)
    · exact .inl (e' ▸ h)
  · rcases h' with h' | ⟨e', h'⟩
    · exact .inl (e ▸ h')
    · refine .inr ⟨e.trans e', ?_⟩
      rcases h with h | ⟨f, h⟩ <;> rcases h' with h' | ⟨f', h'⟩
      · exact .inl (String.lt_trans h h')
      · exact .inl (f' ▸ h)
      · exact .inl (f ▸ h')
      · exact .inr ⟨f.trans f', String.lt_trans h h'⟩

end Xauusd.Scheduler
