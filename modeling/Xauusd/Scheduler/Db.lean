/-
  The scheduler's database: its tables, and the statements that write the job
  table together with the triggers they fire.

  * `Db.updateJobs`, `Db.insertJobIgnore`, `Db.upsertJob` are the three kinds
    of statements that write `news_ai_jobs_v1`;
  * while the canonical triggers are installed, each of them adds to the job
    revision counter one for every row it inserts and for every row of which it
    changes one of the columns `Job.inputs` (`_annotation_job_count_schema`);
  * `Db.updateJobs_inputs_unchanged`: an update either leaves the inputs of
    every row as they were, or moves the counter.
-/
import Xauusd.Scheduler.Evidence
import Xauusd.Scheduler.Capacity

namespace Xauusd.Scheduler

/-! ## Further rows -/

/-- A row of `news_ai_failure_recoveries_v1`. -/
structure FailureRecovery where
  failureId : String
  recoveryVersion : String
  source : String
  sourceItemId : String
  revisionNumber : ℤ
  llmModelVersion : String
  promptVersion : String
  authorizedAt : ℤ
  deriving DecidableEq, Repr

def FailureRecovery.key (r : FailureRecovery) : String × String × String × ℤ × String × String :=
  (r.recoveryVersion, r.source, r.sourceItemId, r.revisionNumber, r.llmModelVersion,
    r.promptVersion)

/-- A row of `news_ai_impact_failure_recoveries_v1`. -/
structure ImpactFailureRecovery where
  failureId : String
  recoveryVersion : String
  annotationId : String
  llmModelVersion : String
  promptVersion : String
  authorizedAt : ℤ
  deriving DecidableEq, Repr

def ImpactFailureRecovery.key (r : ImpactFailureRecovery) : String × String × String × String :=
  (r.recoveryVersion, r.annotationId, r.llmModelVersion, r.promptVersion)

/-- What the scheduler reads of a row of `news_ai_job_attempts_v1`. -/
structure JobAttempt where
  attemptId : String
  jobId : String
  attemptedAt : ℤ
  deriving DecidableEq, Repr

inductive MigrationState where
  | active
  | waitingInput
  | complete
  deriving DecidableEq, Repr

/-- A row of `news_annotation_contract_backfill_v1`. -/
structure ContractBackfill where
  promptVersion : String
  activatedAt : ℤ
  cursor : Option (ℤ × String × String × ℤ)
  state : MigrationState
  updatedAt : ℤ
  deriving DecidableEq, Repr

/-- A row of `news_annotation_work_lane_migrations_v1`. -/
structure WorkLaneMigration where
  promptVersion : String
  activatedAt : ℤ
  cursor : Option (ℤ × String)
  processedCount : ℕ
  state : MigrationState
  updatedAt : ℤ
  deriving DecidableEq, Repr

/-- A row of `news_downstream_provenance_migrations_v1`. -/
structure ProvenanceMigration where
  provenanceVersion : String
  cursor : Option (ℤ × String)
  processedCount : ℕ
  resolvedCount : ℕ
  unresolvedCount : ℕ
  leasedSkippedCount : ℕ
  passCount : ℕ
  state : MigrationState
  updatedAt : ℤ
  deriving DecidableEq, Repr

/-- A row of `news_ai_scheduler_migrations_v1`. -/
structure AppliedMigration where
  migrationId : String
  appliedAt : ℤ
  deriving DecidableEq, Repr

/-! ## Runtime metadata -/

/-- The value under `NEWS_JOB_INPUT_REVISION_V1`: no row, the text of a number,
    or a text that is not one. -/
inductive RevisionCell where
  | absent
  | value (n : ℕ)
  | invalid
  deriving DecidableEq, Repr

/-- One run of the trigger's counter update. -/
def RevisionCell.succ : RevisionCell → RevisionCell
  | absent => absent
  | value n => if n + 1 < 2 ^ 63 then value (n + 1) else invalid
  | invalid => invalid

/-- What the scheduler keeps in `runtime_metadata`, and whether the canonical
    triggers of the job table are installed. -/
structure Metadata where
  forwardEpoch : Option ℤ
  jobRevision : RevisionCell
  reconciliationCache : Option ReconciliationCache
  hooksCurrent : Bool
  deriving DecidableEq, Repr

/-- The job revision after the canonical triggers ran `n` times. -/
def Metadata.bump (m : Metadata) (n : ℕ) : Metadata :=
  if m.hooksCurrent then { m with jobRevision := RevisionCell.succ^[n] m.jobRevision } else m

@[simp] theorem Metadata.bump_zero (m : Metadata) : m.bump 0 = m := by
  unfold bump; split <;> rfl

@[simp] theorem Metadata.bump_forwardEpoch (m : Metadata) (n : ℕ) :
    (m.bump n).forwardEpoch = m.forwardEpoch := by unfold bump; split <;> rfl

@[simp] theorem Metadata.bump_reconciliationCache (m : Metadata) (n : ℕ) :
    (m.bump n).reconciliationCache = m.reconciliationCache := by unfold bump; split <;> rfl

@[simp] theorem Metadata.bump_hooksCurrent (m : Metadata) (n : ℕ) :
    (m.bump n).hooksCurrent = m.hooksCurrent := by unfold bump; split <;> rfl

/-! ## The database -/

structure Db where
  jobs : Table Job.jobId
  overrides : Table RetryOverride.requestId
  attempts : Table JobAttempt.attemptId
  evidence : Evidence
  /-- the classification ids of `news_item_classifications_v1` -/
  classifications : List String
  failureRecoveries : Table FailureRecovery.key
  impactFailureRecoveries : Table ImpactFailureRecovery.key
  contractBackfills : Table ContractBackfill.promptVersion
  workLaneMigrations : Table WorkLaneMigration.promptVersion
  provenanceMigrations : Table ProvenanceMigration.provenanceVersion
  appliedMigrations : Table AppliedMigration.migrationId
  metadata : Metadata
  capacity : Capacity

/-- The database before its first use: no rows, no metadata, no triggers. -/
def Db.empty : Db where
  jobs := .empty
  overrides := .empty
  attempts := .empty
  evidence := .empty
  classifications := []
  failureRecoveries := .empty
  impactFailureRecoveries := .empty
  contractBackfills := .empty
  workLaneMigrations := .empty
  provenanceMigrations := .empty
  appliedMigrations := .empty
  metadata := ⟨none, .absent, none, false⟩
  capacity := .empty

/-- The columns of a job of which a change moves the job revision. -/
structure JobInputs where
  taskType : TaskType
  source : String
  sourceItemId : String
  revisionNumber : ℤ
  annotationId : String
  promptVersion : String
  state : JobState
  lastError : Option String
  deriving DecidableEq

def Job.inputs (j : Job) : JobInputs :=
  ⟨j.taskType, j.source, j.sourceItemId, j.revisionNumber, j.annotationId, j.promptVersion,
    j.state, j.lastError⟩

/-! ## Statements on the job table -/

section
variable (db : Db)

/-- The rows on which an update changes an input. -/
def Db.inputChanges (p : Job → Bool) (f : Job → Job) : ℕ :=
  db.jobs.hits fun j => p j && decide ((f j).inputs ≠ j.inputs)

/-- `UPDATE news_ai_jobs_v1 SET f WHERE p` -/
def Db.updateJobs (p : Job → Bool) (f : Job → Job) (hf : ∀ j, (f j).jobId = j.jobId) : Db :=
  { db with
    jobs := db.jobs.update p f hf
    metadata := db.metadata.bump (db.inputChanges p f) }

/-- `INSERT OR IGNORE INTO news_ai_jobs_v1` -/
def Db.insertJobIgnore (j : Job) : Db :=
  let jobs := db.jobs.insertIgnore j fun j' => j'.identity = j.identity
  { db with
    jobs := jobs
    metadata := db.metadata.bump (jobs.rows.length - db.jobs.rows.length) }

/-- `INSERT INTO news_ai_jobs_v1 … ON CONFLICT(job_id) DO UPDATE SET f WHERE p`;
    a row of another id with the same identity refuses it. -/
def Db.upsertJob (j : Job) (p : Job → Bool) (f : Job → Job) (hf : ∀ j, (f j).jobId = j.jobId) :
    Outcome Db :=
  if ∃ j' ∈ db.jobs.rows, j'.jobId = j.jobId then
    .ok (db.updateJobs (fun j' => j'.jobId = j.jobId && p j') f hf)
  else if ∃ j' ∈ db.jobs.rows, j'.identity = j.identity then .error .integrityError
  else .ok (db.insertJobIgnore j)

end

/-- `UPDATE news_ai_retry_schedule_overrides_v1 SET active=0 WHERE p` -/
def Db.closeOverrides (db : Db) (p : RetryOverride → Bool) : Db :=
  { db with
    overrides := db.overrides.update p (fun o => { o with active := false }) fun _ => rfl }

section
variable {db : Db} {p : Job → Bool} {f : Job → Job} {hf : ∀ j, (f j).jobId = j.jobId} {j : Job}

@[simp] theorem Db.updateJobs_jobs : (db.updateJobs p f hf).jobs = db.jobs.update p f hf := rfl

@[simp] theorem Db.updateJobs_evidence : (db.updateJobs p f hf).evidence = db.evidence := rfl

@[simp] theorem Db.updateJobs_overrides : (db.updateJobs p f hf).overrides = db.overrides := rfl

@[simp] theorem Db.updateJobs_capacity : (db.updateJobs p f hf).capacity = db.capacity := rfl

@[simp] theorem Db.insertJobIgnore_jobs : (db.insertJobIgnore j).jobs =
    db.jobs.insertIgnore j fun j' => j'.identity = j.identity := rfl

@[simp] theorem Db.insertJobIgnore_evidence :
    (db.insertJobIgnore j).evidence = db.evidence := rfl

@[simp] theorem Db.insertJobIgnore_overrides :
    (db.insertJobIgnore j).overrides = db.overrides := rfl

@[simp] theorem Db.insertJobIgnore_capacity :
    (db.insertJobIgnore j).capacity = db.capacity := rfl

/-- The three outcomes of an upsert. -/
theorem Db.upsertJob_cases (db : Db) (j : Job) (p : Job → Bool) (f : Job → Job)
    (hf : ∀ j, (f j).jobId = j.jobId) :
    ((∃ j' ∈ db.jobs, j'.jobId = j.jobId) ∧ db.upsertJob j p f hf =
        .ok (db.updateJobs (fun j' => j'.jobId = j.jobId && p j') f hf)) ∨
      db.upsertJob j p f hf = .error .integrityError ∨
      ((∀ j' ∈ db.jobs, j'.jobId ≠ j.jobId ∧ j'.identity ≠ j.identity) ∧
        db.upsertJob j p f hf = .ok (db.insertJobIgnore j)) := by
  unfold Db.upsertJob
  split
  · next h => exact .inl ⟨h, rfl⟩
  · next h =>
    split
    · exact .inr (.inl rfl)
    · next h' =>
      exact .inr (.inr ⟨fun j' hj' => ⟨fun e => h ⟨j', hj', e⟩, fun e => h' ⟨j', hj', e⟩⟩, rfl⟩)

/-- An update that changes no input leaves the job revision; one that does
    moves it while the canonical triggers are installed. -/
theorem Db.updateJobs_inputs_unchanged (hf : ∀ j, (f j).jobId = j.jobId)
    (h : db.inputChanges p f = 0) :
    (db.updateJobs p f hf).metadata = db.metadata ∧
      ∀ j ∈ db.jobs, (if p j then f j else j).inputs = j.inputs := by
  refine ⟨by simp [Db.updateJobs, h], fun j hj => ?_⟩
  have := Table.hits_eq_zero_iff.1 h j hj
  by_cases hp : p j
  · simpa [hp] using this
  · simp [hp]

end

end Xauusd.Scheduler
