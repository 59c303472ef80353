/-
  The scheduler as a machine: every call that writes its database is one step,
  as every call is one transaction.

  * `JobCall`: the calls on the job queue;
  * `CapacityCall`: the calls on the request ledgers and the governor, which
    read the jobs;
  * `RecordCall`: what the rest of the program records in the same database:
    evidence, the forward epoch, and the triggers of the job table, which an
    older writer may replace;
  * `exec`: the step, `Reachable`: the states of the database.
-/
import Xauusd.Lib.Machine
import Xauusd.Scheduler.Override
import Xauusd.Scheduler.Migration
import Xauusd.Scheduler.Reconcile
import Xauusd.Scheduler.Quota

namespace Xauusd.Scheduler

variable (P : Platform)

/-- What a call returns. -/
inductive Reply where
  | done
  | jobId (id : String)
  | claimed (job : Option ScheduledJob)
  | snapshot (job : RetryJobSnapshot)
  | count (n : ℕ)
  | activatedAt (t : ℤ)
  | provenance (counts : ProvenanceCounts)
  | reservation (decision : ReserveDecision)
  | slot (granted : Bool) (nextEligible : ℤ)
  deriving DecidableEq

/-- The outcome of a call, as a reply. -/
def replyWith {α τ : Type} (f : α → Reply) (x : Outcome α × τ) : Outcome Reply × τ :=
  (x.1.map f, x.2)

@[simp] theorem replyWith_snd {α τ : Type} (f : α → Reply) (x : Outcome α × τ) :
    (replyWith f x).2 = x.2 := rfl

/-! ## Calls on the job queue -/

inductive JobCall where
  | enqueue (r : EnqueueRequest)
  | enqueueDerived (r : EnqueueRequest) (provenance : WorkProvenance)
  | claim (r : ClaimRequest)
  | complete (jobId workerId : String) (completed clock : ℤ)
  | release (jobId workerId : String) (availableAt : ℤ) (error : Option String) (clock : ℤ)
  | backoff (jobId workerId : String) (availableAt : ℤ) (error : String) (terminal : Bool)
      (clock : ℤ)
  | deferForMaintenance (jobId workerId : String) (availableAt : ℤ) (reason : String) (clock : ℤ)
  | recordCompletion (source sourceItemId : String) (revisionNumber : ℤ) (promptVersion : String)
      (completedAt : ℤ) (provenance : Option WorkProvenance)
  | recordAttempt (job : ScheduledJob) (accountId credentialId : String) (attemptedAt : ℤ)
  | overrideRetry (r : OverrideRequest)
  | authorizeAnnotations (task : FailureTask) (promptVersion recoveryVersion : String) (now : ℤ)
  | authorizeImpacts (promptVersion recoveryVersion : String) (now : ℤ)
  | reopenProtected (records : List (String × String × ℤ)) (promptVersion : String) (now : ℤ)
  | skipProhibited (contentHash : String) (now : ℤ)
  | installLanes (promptVersion : String) (now : ℤ)
  | installProvenance (currentPromptVersion : String) (now : ℤ)
  | reconcile (r : ReconcileRequest)

def JobCall.exec (db : Db) : JobCall → Outcome Reply × Db
  | enqueue r => replyWith .jobId (enqueueJob P r db)
  | enqueueDerived r provenance => replyWith .jobId (enqueueDerivedAiJob P r provenance db)
  | claim r => replyWith .claimed (claimJob r db)
  | complete jobId workerId completed clock =>
    replyWith (fun _ => .done) (completeJob jobId workerId completed clock db)
  | release jobId workerId availableAt error clock =>
    replyWith (fun _ => .done) (releaseJob jobId workerId availableAt error clock db)
  | backoff jobId workerId availableAt error terminal clock =>
    replyWith (fun _ => .done) (backoffJob jobId workerId availableAt error terminal clock db)
  | deferForMaintenance jobId workerId availableAt reason clock =>
    replyWith (fun _ => .done) (deferJobForMaintenance jobId workerId availableAt reason clock db)
  | recordCompletion source item revision promptVersion completedAt provenance =>
    replyWith (fun _ => .done)
      (recordAnnotationCompletion P source item revision promptVersion completedAt provenance db)
  | recordAttempt job accountId credentialId attemptedAt =>
    replyWith (fun _ => .done) (recordJobAttempt P job accountId credentialId attemptedAt db)
  | overrideRetry r => replyWith .snapshot (applyRetryScheduleOverride r db)
  | authorizeAnnotations task promptVersion recoveryVersion now =>
    replyWith .count
      (authorizeRepairableAnnotationFailures task promptVersion recoveryVersion now db)
  | authorizeImpacts promptVersion recoveryVersion now =>
    replyWith .count (authorizeRepairableImpactFailures promptVersion recoveryVersion now db)
  | reopenProtected records promptVersion now =>
    replyWith .count (reopenProtectedAnnotationJobs P records promptVersion now db)
  | skipProhibited contentHash now =>
    replyWith (fun _ => .done) (skipProhibitedContent contentHash now db)
  | installLanes promptVersion now =>
    replyWith .activatedAt (installAnnotationContractLanes promptVersion now db)
  | installProvenance currentPromptVersion now =>
    replyWith .provenance (installDownstreamWorkProvenance currentPromptVersion now db)
  | reconcile r => replyWith .count (reconcileCompletedJobs P r db)

/-! ## Calls on the capacity tables -/

inductive CapacityCall where
  | reserve (r : ReserveRequest)
  | markAttempted (usageId : String) (now : ℤ)
  | recordOutcome (r : OutcomeReport)
  | recordVectors (usageIds : List String) (now : ℤ)
  | recordDeferral (jobId accountId failureCode : String) (deferredAt : ℤ)
  | registerDemand (providerTask : String) (now : ℤ) (pressure : Option Pressure)
  | reserveDispatch (providerTask : String) (now : ℤ)
  | recordDispatch (outcome : String) (retryAfterSeconds : Option ℤ) (now : ℤ)
  | prune (installedAt : ℤ)

def CapacityCall.exec (jobs : List Job) (c : Capacity) : CapacityCall → Outcome Reply × Capacity
  | reserve r => replyWith .reservation (reserveAccountRequest P r jobs c)
  | markAttempted usageId now =>
    replyWith (fun _ => .done) (markAccountRequestAttempted usageId now c)
  | recordOutcome r => replyWith (fun _ => .done) (recordAccountRequestOutcome r c)
  | recordVectors usageIds now =>
    replyWith (fun _ => .done) (recordAccountVectorsCommitted usageIds now c)
  | recordDeferral jobId accountId failureCode deferredAt =>
    replyWith (fun _ => .done) (recordSchedulerDeferral P jobId accountId failureCode deferredAt c)
  | registerDemand providerTask now pressure =>
    replyWith (fun _ => .done) (registerProviderDispatchDemand jobs providerTask now pressure c)
  | reserveDispatch providerTask now =>
    replyWith (fun s => .slot s.1 s.2) (reserveProviderDispatch jobs providerTask now c)
  | recordDispatch outcome retryAfterSeconds now =>
    replyWith (fun _ => .done) (recordProviderDispatchOutcome outcome retryAfterSeconds now c)
  | prune installedAt => (.ok .done, pruneLedgers P installedAt c)

/-! ## Records of the rest of the program -/

/-- A row of one of the evidence tables. -/
inductive EvidenceRow where
  | revision (n : NewsRevision)
  | annotation (a : NewsAnnotation)
  | titleTranslation (t : TitleTranslation)
  | impactAssessment (i : ImpactAssessment)
  | llmFailure (f : LlmFailure)
  | impactFailure (f : ImpactFailure)
  | projection (p : TransitionProjection)
  | macroObservation (m : MacroObservation)

/-- `INSERT` into an append-only table with the primary key `key`. -/
def appendRow {ρ κ : Type} [DecidableEq κ] (key : ρ → κ) (r : ρ) (rows : List ρ) :
    Outcome (List ρ) :=
  if ∃ r' ∈ rows, key r' = key r then .error .integrityError else .ok (rows ++ [r])

/-- The statements of `evidence/ledger.py` that append a row. -/
def Evidence.append (e : Evidence) : EvidenceRow → Outcome Evidence
  | .revision n =>
    (appendRow (fun n => (n.source, n.sourceItemId, n.revisionNumber)) n e.revisions).map
      fun rows => { e with revisions := rows }
  | EvidenceRow.annotation a =>
    (appendRow (·.annotationId) a e.annotations).map fun rows => { e with annotations := rows }
  | .titleTranslation t =>
    (appendRow (·.translationId) t e.titleTranslations).map
      fun rows => { e with titleTranslations := rows }
  | .impactAssessment i =>
    (appendRow (·.assessmentId) i e.impactAssessments).map
      fun rows => { e with impactAssessments := rows }
  | .llmFailure f =>
    (appendRow (·.failureId) f e.llmFailures).map fun rows => { e with llmFailures := rows }
  | .impactFailure f =>
    (appendRow (·.failureId) f e.impactFailures).map fun rows => { e with impactFailures := rows }
  | .projection p =>
    (appendRow (·.targetAnnotationId) p e.projections).map
      fun rows => { e with projections := rows }
  | .macroObservation m =>
    (appendRow (fun m => (m.source, m.seriesId, m.observationPeriod, m.revisionNumber)) m
      e.macroObservations).map fun rows => { e with macroObservations := rows }

inductive RecordCall where
  | append (row : EvidenceRow)
  /-- the ledger opened at `now` -/
  | startForward (now : ℤ)
  /-- another writer replaces the triggers of the job table -/
  | displaceHooks
  | installHooks

/-- `_install_annotation_job_count_schema`, of the counter, the cache and the
    triggers. -/
def Metadata.installHooks (m : Metadata) : Metadata :=
  { m with
    jobRevision := if m.jobRevision = .absent then .value 0 else m.jobRevision
    reconciliationCache :=
      if m.hooksCurrent ∧ m.jobRevision ≠ .absent then m.reconciliationCache else none
    hooksCurrent := true }

def RecordCall.exec (db : Db) : RecordCall → Outcome Reply × Db
  | append row =>
    match db.evidence.append row with
    | .error e => (.error e, db)
    | .ok evidence => (.ok .done, { db with evidence := evidence })
  | startForward now =>
    (.ok .done, { db with
      metadata := { db.metadata with forwardEpoch := some (db.metadata.forwardEpoch.getD now) } })
  | displaceHooks => (.ok .done, { db with metadata := { db.metadata with hooksCurrent := false } })
  | installHooks => (.ok .done, { db with metadata := db.metadata.installHooks })

/-! ## The machine -/

inductive Call where
  | job (c : JobCall)
  | capacity (c : CapacityCall)
  | record (c : RecordCall)

/-- One call: its reply, and the database it leaves. -/
def exec (db : Db) : Call → Outcome Reply × Db
  | .job c => c.exec P db
  | .capacity c =>
    let (reply, capacity) := c.exec P db.jobs.rows db.capacity
    (reply, { db with capacity := capacity })
  | .record c => c.exec db

/-- The databases that calls from an empty one reach. -/
def Reachable (db : Db) : Prop := Machine.Reachable (exec P) Db.empty db

end Xauusd.Scheduler
