/-
  Reconciliation (`news/scheduler/state.py`): closing the jobs that immutable
  evidence has satisfied or superseded.

  * `satisfied` and `obsolete` are the `WHERE` clauses of the two updates of
    the full pass, `fullPass`;
  * `reconciliationInputKey` names the inputs of the pass: the job revision and
    the newest row of each evidence table;
  * `reconcileCompletedJobs` skips the pass when the cached key is the current
    one, and caches the key after a pass.
-/
import Xauusd.Scheduler.Recovery

namespace Xauusd.Scheduler

variable (P : Platform)

def PROMPT_VERSION : String := "news-json-v17-source-grounded-latin-display"
def INVALID_CHINESE_TITLE : String := "来源新闻（中文标题待校验）"
def ANNOTATION_BODY_MIN_CHARACTERS : ℕ := 240

/-! ## The two predicates of the full pass -/

/-- `a.source=… AND a.source_item_id=… AND a.revision_number=…` -/
def Job.about (j : Job) (source sourceItemId : String) (revisionNumber : ℤ) : Bool :=
  source = j.source && sourceItemId = j.sourceItemId && revisionNumber = j.revisionNumber

/-- A usable annotation of the job's revision under the job's prompt. -/
def Evidence.usableAnnotation (e : Evidence) (j : Job) : Bool :=
  e.annotations.any fun a => j.about a.source a.sourceItemId a.revisionNumber &&
    a.promptVersion = j.promptVersion && modelUsable a

/-- A headline that names the news in Chinese. -/
def validChineseTitle (headline : String) : Bool :=
  Text.trimBlanks headline ≠ INVALID_CHINESE_TITLE && !Text.like "%相关数值%" headline &&
    headline.toList.any fun c => '一' ≤ c && c ≤ '龥'

/-- The clause of the first update on what a job asks for. -/
def Evidence.fulfils (e : Evidence) (j : Job) : Bool :=
  match j.taskType with
  | TaskType.activeAnnotation => e.usableAnnotation j
  | .activeImpact => e.impactAssessments.any fun i =>
      i.annotationId = j.annotationId && i.promptVersion = j.promptVersion
  | .titleTranslation => e.titleTranslations.any fun t =>
      j.about t.source t.sourceItemId t.revisionNumber && t.promptVersion = j.promptVersion &&
        validChineseTitle t.headlineZh

/-- The `WHERE` clause of the first update. -/
def satisfied (e : Evidence) (j : Job) : Bool :=
  j.state ≠ .completed && j.notRetired && e.fulfils j

/-- The receipt day of the job's revision is protected. -/
def Evidence.protectedRevision (e : Evidence) (protectedDays : List String) (j : Job) : Bool :=
  e.revisions.any fun current =>
    j.about current.source current.sourceItemId current.revisionNumber &&
      P.receiptDay current.collectorFirstSeenTime ∈ protectedDays

/-- `newer_scope` -/
def Evidence.newerScope (e : Evidence) (protectedDays : List String) (j : Job)
    (newer : NewsRevision) : Bool :=
  j.taskType ≠ TaskType.activeAnnotation || !e.protectedRevision P protectedDays j ||
    (e.revisions.find? fun current =>
      j.about current.source current.sourceItemId current.revisionNumber).any fun current =>
        P.receiptDay newer.collectorFirstSeenTime = P.receiptDay current.collectorFirstSeenTime

/-- A newer revision supersedes the job. -/
def Evidence.superseded (e : Evidence) (protectedDays : List String) (j : Job) : Bool :=
  e.revisions.any fun newer => newer.source = j.source && newer.sourceItemId = j.sourceItemId &&
    decide (j.revisionNumber < newer.revisionNumber) && e.newerScope P protectedDays j newer

/-- `peer_scope` and `peer_revision_scope`: on a protected day, only revisions
    of the same receipt day count. -/
def sameReceiptScope (protectedDays : List String) (current other : NewsRevision) : Bool :=
  P.receiptDay current.collectorFirstSeenTime ∉ protectedDays ||
    P.receiptDay other.collectorFirstSeenTime = P.receiptDay current.collectorFirstSeenTime

/-- A current peer of the same cluster is preferred over `current`. -/
def Evidence.outranked (e : Evidence) (forwardEpoch : ℤ) (protectedDays : List String)
    (current : NewsRevision) : Bool :=
  e.revisions.any fun peer => peer.clusterId = current.clusterId &&
    semanticEligible forwardEpoch peer && sameReceiptScope P protectedDays current peer &&
    !(e.revisions.any fun newer => newer.source = peer.source &&
      newer.sourceItemId = peer.sourceItemId &&
      decide (peer.revisionNumber < newer.revisionNumber) &&
      sameReceiptScope P protectedDays current newer) &&
    preferredClusterPeer peer current

/-- The clause of the second update on the job's own revision. -/
def Evidence.unfit (e : Evidence) (forwardEpoch : ℤ) (protectedDays : List String) (j : Job) :
    Bool :=
  e.revisions.any fun current =>
    j.about current.source current.sourceItemId current.revisionNumber &&
      (decide (Text.sqlLength (Text.trimBlanks (current.body.getD "")) < ANNOTATION_BODY_MIN_CHARACTERS) ||
        !semanticEligible forwardEpoch current ||
        (j.state = .completed && !e.usableAnnotation j) ||
        e.outranked P forwardEpoch protectedDays current)

/-- The `WHERE` clause of the second update. -/
def obsolete (e : Evidence) (forwardEpoch : ℤ) (protectedDays : List String) (j : Job) : Bool :=
  (j.waiting || j.state = .completed || j.state = .deadLetter) && j.notRetired &&
    ((j.taskType ∉ TASKS && j.waiting) ||
      (j.taskType = TaskType.activeAnnotation && j.promptVersion ≠ PROMPT_VERSION) ||
      e.superseded P protectedDays j ||
      (j.taskType = TaskType.activeAnnotation && e.unfit P forwardEpoch protectedDays j))

/-- The `SET` clause of the first update. -/
def Job.reconciled (j : Job) (now : ℤ) : Job :=
  { j with
    state := .completed
    leaseOwner := none
    leaseExpiresAt := none
    updatedAt := now
    completedAt := some now }

/-- The first `UPDATE` statement. -/
def Db.completeSatisfied (db : Db) (now : ℤ) : Db :=
  db.updateJobs (satisfied db.evidence) (·.reconciled now) fun _ => rfl

/-- The second `UPDATE` statement. -/
def Db.retireObsolete (db : Db) (forwardEpoch : ℤ) (protectedDays : List String) (now : ℤ) : Db :=
  db.updateJobs (obsolete P db.evidence forwardEpoch protectedDays)
    (·.retired CURRENT_EVIDENCE_NO_LONGER_ELIGIBLE now) fun _ => rfl

/-- The two `UPDATE` statements of the full pass, and the rows they changed. -/
def Db.fullPass (db : Db) (forwardEpoch : ℤ) (protectedDays : List String) (now : ℤ) : ℕ × Db :=
  let completed := db.completeSatisfied now
  (db.jobs.hits (satisfied db.evidence) +
      completed.jobs.hits (obsolete P db.evidence forwardEpoch protectedDays),
    completed.retireObsolete P forwardEpoch protectedDays now)

/-! ## The cached acceptance -/

/-- `news_job_input_revision` -/
def Db.newsJobInputRevision (db : Db) : Option ℕ :=
  match db.metadata.jobRevision with
  | .value n => if n < 2 ^ 63 && db.metadata.hooksCurrent then some n else none
  | _ => none

/-- `CASE WHEN length(CAST(column AS BLOB))<=256 THEN column END` -/
def boundedColumn (s : String) : Bool := s.utf8ByteSize ≤ 256

/-- The head of a table: its newest rowid and identity, none inside if the
    table is empty, none if an identity column is too long. -/
def tableHead {α β : Type} (rows : List α) (bounded : α → Bool) (identity : α → β) :
    Option (Option (ℕ × β)) :=
  match rows.getLast? with
  | none => some none
  | some r => if bounded r then some (some (rows.length, identity r)) else none

/-- `_reconciliation_input_key` -/
def Db.reconciliationInputKey (db : Db) (forwardEpoch : ℤ) (protectedDays : List String) :
    Option ReconciliationKey := do
  let jobRevision ← db.newsJobInputRevision
  let revisions ← tableHead db.evidence.revisions
    (fun n => boundedColumn n.source && boundedColumn n.sourceItemId && boundedColumn n.contentHash)
    fun n => (n.source, n.sourceItemId, n.revisionNumber, n.contentHash)
  let annotations ← tableHead db.evidence.annotations (fun a => boundedColumn a.annotationId)
    (·.annotationId)
  let translations ← tableHead db.evidence.titleTranslations
    (fun t => boundedColumn t.translationId) (·.translationId)
  let assessments ← tableHead db.evidence.impactAssessments
    (fun i => boundedColumn i.assessmentId) (·.assessmentId)
  let key : ReconciliationKey :=
    { jobRevision := jobRevision
      newsRevisionHead := revisions
      annotationHead := annotations
      titleTranslationHead := translations
      impactAssessmentHead := assessments
      forwardEpoch := forwardEpoch
      protectedDays := protectedDays.insertionSort (· ≤ ·) }
  if P.keyBytes key ≤ 6144 then some key else none

/-- `_reconciliation_is_unchanged` -/
def Db.reconciliationIsUnchanged (db : Db) (forwardEpoch : ℤ) (protectedDays : List String)
    (now : ℤ) : Bool :=
  match db.reconciliationInputKey P forwardEpoch protectedDays, db.metadata.reconciliationCache with
  | some key, some cached => decide (P.cacheBytes cached ≤ 8192) && decide (cached.key = key) &&
      decide (cached.observedAt ≤ now)
  | _, _ => false

/-- The cache after a pass; `writable` is whether its write succeeds. -/
def Db.publishReconciliation (db : Db) (forwardEpoch : ℤ) (protectedDays : List String) (now : ℤ)
    (writable : Bool) : Db :=
  match db.reconciliationInputKey P forwardEpoch protectedDays with
  | none => db
  | some key =>
    if P.cacheBytes ⟨key, now⟩ ≤ 8192 && writable then
      { db with metadata := { db.metadata with reconciliationCache := some ⟨key, now⟩ } }
    else db

structure ReconcileRequest where
  now : ℤ
  protectedReceiptDays : List String := []
  /-- `manage_transaction`, outside of a transaction -/
  cacheEnabled : Bool := true
  /-- whether the database lets the cache be written -/
  cacheWritable : Bool := true

/-- `tuple(dict.fromkeys(protected_receipt_days))` -/
def ReconcileRequest.protectedDays (r : ReconcileRequest) : List String :=
  r.protectedReceiptDays.eraseDups

/-- `reconcile_completed_jobs`, which returns the number of rows it changed. -/
def reconcileCompletedJobs (r : ReconcileRequest) (db : Db) : Outcome ℕ × Db :=
  match db.metadata.forwardEpoch with
  | none => (.error .typeError, db)
  | some epoch =>
    if r.cacheEnabled && db.reconciliationIsUnchanged P epoch r.protectedDays r.now then (.ok 0, db)
    else
      let (changed, passed) := db.fullPass P epoch r.protectedDays r.now
      if r.cacheEnabled then
        (.ok changed, passed.publishReconciliation P epoch r.protectedDays r.now r.cacheWritable)
      else (.ok changed, passed)

end Xauusd.Scheduler
