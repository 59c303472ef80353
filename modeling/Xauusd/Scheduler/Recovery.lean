/-
  Reopening and retiring jobs (`news/scheduler/state.py`,
  `news/annotation/content_policy.py`).

  * `authorizeRepairableAnnotationFailures` and
    `authorizeRepairableImpactFailures` record recoveries of failed attempts
    and requeue their jobs;
  * `reopenProtectedAnnotationJobs` requeues retired jobs of a protected
    backlog;
  * `skipProhibitedContent` retires the waiting jobs of refused content.
-/
import Xauusd.Scheduler.Jobs

namespace Xauusd.Scheduler

variable (P : Platform)

/-- The errors of jobs that no recovery reopens. -/
def RETIRED_ERRORS : List String :=
  [CURRENT_EVIDENCE_NO_LONGER_ELIGIBLE, PROVIDER_PROHIBITED_CONTENT]

/-- `COALESCE(last_error,'') NOT IN (…)` -/
def Job.notRetired (j : Job) : Bool := j.lastError.getD "" ∉ RETIRED_ERRORS

/-- `permitted_content_sql` -/
def Db.contentPermitted (db : Db) (contentHash : String) : Bool :=
  "provider-prohibited:" ++ contentHash ∉ db.classifications

/-! ## Authorized recoveries -/

/-- The task types of `news_llm_failures`. -/
inductive FailureTask where
  | annotation
  | titleTranslation
  deriving DecidableEq, Repr

def FailureTask.text : FailureTask → String
  | annotation => "ANNOTATION"
  | titleTranslation => "TITLE_TRANSLATION"

def FailureTask.jobType : FailureTask → TaskType
  | annotation => TaskType.activeAnnotation
  | titleTranslation => .titleTranslation

/-- `is_terminal=1 OR (next_retry_at>failed_at AND next_retry_at>?)` -/
def repairable (isTerminal : Bool) (failedAt : ℤ) (nextRetryAt : Option ℤ) (now : ℤ) : Bool :=
  isTerminal || nextRetryAt.any fun t => decide (failedAt < t) && decide (now < t)

/-- The attempt is the last one of its task, revision, model and prompt. -/
def Evidence.latestFailure (e : Evidence) (f : LlmFailure) : Bool :=
  e.llmFailures.all fun f₂ =>
    !(f₂.taskType = f.taskType && f₂.source = f.source && f₂.sourceItemId = f.sourceItemId &&
      f₂.revisionNumber = f.revisionNumber && f₂.llmModelVersion = f.llmModelVersion &&
      f₂.promptVersion = f.promptVersion) || decide (f₂.attemptNumber ≤ f.attemptNumber)

def Evidence.latestImpactFailure (e : Evidence) (f : ImpactFailure) : Bool :=
  e.impactFailures.all fun f₂ =>
    !(f₂.annotationId = f.annotationId && f₂.llmModelVersion = f.llmModelVersion &&
      f₂.promptVersion = f.promptVersion) || decide (f₂.attemptNumber ≤ f.attemptNumber)

/-- The clauses that both requeueing updates share. -/
def Db.recoverable (db : Db) (taskType : TaskType) (promptVersion : String) (j : Job) : Bool :=
  j.taskType = taskType && j.promptVersion = promptVersion &&
    (j.state = .deadLetter || j.waiting) &&
    !(db.overrides.rows.any fun o => o.jobId = j.jobId && o.active) && j.notRetired

/-- The failures whose recovery is authorized, at most 200 of them. -/
def Db.authorizedFailures (db : Db) (task : FailureTask) (promptVersion recoveryVersion : String)
    (now : ℤ) : List LlmFailure :=
  ((db.evidence.llmFailures.filter fun f =>
      f.taskType = task.text && f.promptVersion = promptVersion &&
        db.contentPermitted f.rawContentHash && repairable f.isTerminal f.failedAt f.nextRetryAt now &&
        !(db.failureRecoveries.rows.any fun r =>
          r.failureId = f.failureId && r.recoveryVersion = recoveryVersion) &&
        db.evidence.latestFailure f).insertionSort
    fun f g => f.failedAt < g.failedAt ∨ f.failedAt = g.failedAt ∧ f.failureId ≤ g.failureId).take 200

def Db.insertFailureRecovery (recoveryVersion : String) (now : ℤ) (db : Db) (f : LlmFailure) : Db :=
  { db with
    failureRecoveries := db.failureRecoveries.insertIgnore
      ⟨f.failureId, recoveryVersion, f.source, f.sourceItemId, f.revisionNumber, f.llmModelVersion,
        f.promptVersion, now⟩
      fun r => r.failureId = f.failureId && r.recoveryVersion = recoveryVersion }

/-- A recovery of the job's last failed attempt was authorized after the job
    was last written. -/
def Db.recoveryPending (db : Db) (task : FailureTask) (recoveryVersion : String) (j : Job) : Bool :=
  db.evidence.llmFailures.any fun f =>
    f.taskType = task.text && f.source = j.source && f.sourceItemId = j.sourceItemId &&
      f.revisionNumber = j.revisionNumber && f.promptVersion = j.promptVersion &&
      db.evidence.latestFailure f &&
      db.failureRecoveries.rows.any fun r =>
        r.failureId = f.failureId && r.recoveryVersion = recoveryVersion &&
          decide (j.updatedAt < r.authorizedAt)

/-- `authorize_repairable_annotation_failures`, which returns the number of
    recoveries it inserted. -/
def authorizeRepairableAnnotationFailures (task : FailureTask)
    (promptVersion recoveryVersion : String) (now : ℤ) (db : Db) : Outcome ℕ × Db :=
  let inserted := (db.authorizedFailures task promptVersion recoveryVersion now).foldl
    (Db.insertFailureRecovery recoveryVersion now) db
  (.ok (inserted.failureRecoveries.rows.length - db.failureRecoveries.rows.length),
    inserted.updateJobs
      (fun j => inserted.recoverable task.jobType promptVersion j &&
        inserted.recoveryPending task recoveryVersion j)
      (·.requeued now none) fun _ => rfl)

def Db.authorizedImpactFailures (db : Db) (promptVersion recoveryVersion : String) (now : ℤ) :
    List ImpactFailure :=
  ((db.evidence.impactFailures.filter fun f =>
      f.promptVersion = promptVersion && db.contentPermitted f.rawContentHash &&
        repairable f.isTerminal f.failedAt f.nextRetryAt now &&
        !(db.impactFailureRecoveries.rows.any fun r =>
          r.failureId = f.failureId && r.recoveryVersion = recoveryVersion) &&
        db.evidence.latestImpactFailure f).insertionSort
    fun f g => f.failedAt < g.failedAt ∨ f.failedAt = g.failedAt ∧ f.failureId ≤ g.failureId).take 200

def Db.insertImpactFailureRecovery (recoveryVersion : String) (now : ℤ) (db : Db)
    (f : ImpactFailure) : Db :=
  { db with
    impactFailureRecoveries := db.impactFailureRecoveries.insertIgnore
      ⟨f.failureId, recoveryVersion, f.annotationId, f.llmModelVersion, f.promptVersion, now⟩
      fun r => r.failureId = f.failureId && r.recoveryVersion = recoveryVersion }

def Db.impactRecoveryPending (db : Db) (recoveryVersion : String) (j : Job) : Bool :=
  db.evidence.impactFailures.any fun f =>
    f.annotationId = j.annotationId && f.promptVersion = j.promptVersion &&
      db.evidence.latestImpactFailure f &&
      db.impactFailureRecoveries.rows.any fun r =>
        r.failureId = f.failureId && r.recoveryVersion = recoveryVersion &&
          decide (j.updatedAt < r.authorizedAt)

/-- `authorize_repairable_impact_failures` -/
def authorizeRepairableImpactFailures (promptVersion recoveryVersion : String) (now : ℤ) (db : Db) :
    Outcome ℕ × Db :=
  let inserted := (db.authorizedImpactFailures promptVersion recoveryVersion now).foldl
    (Db.insertImpactFailureRecovery recoveryVersion now) db
  (.ok (inserted.impactFailureRecoveries.rows.length - db.impactFailureRecoveries.rows.length),
    inserted.updateJobs
      (fun j => inserted.recoverable .activeImpact promptVersion j &&
        inserted.impactRecoveryPending recoveryVersion j)
      (·.requeued now none) fun _ => rfl)

/-! ## Protected backlog and refused content -/

/-- `_reopen_protected_annotation_jobs`; a record is `(source, source_item_id,
    revision_number)`. -/
def reopenProtectedAnnotationJobs (records : List (String × String × ℤ)) (promptVersion : String)
    (now : ℤ) (db : Db) : Outcome ℕ × Db :=
  let jobIds := (records.map fun (source, item, revision) =>
    jobIdOf P TaskType.activeAnnotation source item revision "" promptVersion).dedup.insertionSort (· ≤ ·)
  let reopen (acc : ℕ × Db) (jobId : String) : ℕ × Db :=
    let p (j : Job) := j.jobId = jobId && j.taskType = TaskType.activeAnnotation &&
      j.state = .deadLetter && j.lastError = some CURRENT_EVIDENCE_NO_LONGER_ELIGIBLE
    (acc.1 + acc.2.jobs.hits p, acc.2.updateJobs p (·.requeued now none) fun _ => rfl)
  let result := jobIds.foldl reopen (0, db)
  (.ok result.1, result.2)

/-- A job retired with an error. -/
def Job.retired (j : Job) (error : String) (now : ℤ) : Job :=
  { j with
    state := .deadLetter
    leaseOwner := none
    leaseExpiresAt := none
    lastError := some error
    updatedAt := now
    completedAt := some now }

/-- The classification of the content with this hash as prohibited. -/
def Db.markProhibited (db : Db) (contentHash : String) : Db :=
  let id := "provider-prohibited:" ++ contentHash
  { db with
    classifications := if id ∈ db.classifications then db.classifications
      else db.classifications ++ [id] }

/-- The retirement of the waiting jobs of prohibited content. -/
def Db.retireProhibited (db : Db) (contentHash : String) (now : ℤ) : Db :=
  db.updateJobs
    (fun j => j.waiting && db.evidence.revisions.any fun n =>
      n.source = j.source && n.sourceItemId = j.sourceItemId &&
        n.revisionNumber = j.revisionNumber && n.contentHash = contentHash)
    (·.retired PROVIDER_PROHIBITED_CONTENT now) fun _ => rfl

/-- The overrides of jobs retired for prohibited content become inactive. -/
def Db.closeProhibitedOverrides (db : Db) : Db :=
  db.closeOverrides fun o => o.active && db.jobs.rows.any fun j => j.jobId = o.jobId &&
    j.state = .deadLetter && j.lastError = some PROVIDER_PROHIBITED_CONTENT

/-- `skip_prohibited_content`, of the content with this hash -/
def skipProhibitedContent (contentHash : String) (now : ℤ) (db : Db) : Outcome Unit × Db :=
  (.ok (), ((db.markProhibited contentHash).retireProhibited contentHash now).closeProhibitedOverrides)

end Xauusd.Scheduler
