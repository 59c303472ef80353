/-
  The lane and provenance migrations of the job table
  (`news/scheduler/state.py`).

  * `installAnnotationContractLanes` classifies one page of annotation jobs as
    LIVE or CONTRACT_BACKFILL, and retires the historical ones that no longer
    matter;
  * `resolveWorkProvenance` derives the lane of work from the annotation job
    it stems from;
  * `installDownstreamWorkProvenance` gives one page of derived jobs that
    provenance.

  Both migrations first commit their state row and then one page in a second
  transaction, so that an exception in the page leaves the state row.
-/
import Xauusd.Scheduler.Jobs

namespace Xauusd.Scheduler

def EXISTING_JOB_LANE_PAGE_SIZE : ℕ := 100
def DOWNSTREAM_PROVENANCE_PAGE_SIZE : ℕ := 100

/-- `(created_at,job_id)`, ordered as SQLite orders row values -/
def pageBefore (a b : ℤ × String) : Prop := a.1 < b.1 ∨ a.1 = b.1 ∧ a.2 < b.2

instance (a b : ℤ × String) : Decidable (pageBefore a b) := inferInstanceAs (Decidable (_ ∨ _))

/-- `SELECT … WHERE p AND (created_at,job_id)>cursor ORDER BY created_at,job_id LIMIT n` -/
def Db.jobPage (db : Db) (p : Job → Bool) (cursor : Option (ℤ × String)) (n : ℕ) : List Job :=
  ((db.jobs.rows.filter fun j => p j &&
      cursor.all fun c => decide (pageBefore c (j.createdAt, j.jobId))).insertionSort
    fun a b => ¬ pageBefore (b.createdAt, b.jobId) (a.createdAt, a.jobId)).take n

/-! ## Annotation lanes -/

/-- The revision a job is about. -/
def Evidence.revisionOf (e : Evidence) (j : Job) : Option NewsRevision :=
  e.revisions.find? fun n =>
    n.source = j.source && n.sourceItemId = j.sourceItemId && n.revisionNumber = j.revisionNumber

/-- `_contract_backfill_has_current_value` -/
def Db.contractBackfillHasCurrentValue (db : Db) (n : NewsRevision) (activatedAt : ℤ)
    (promptVersion : String) : Outcome Bool :=
  let prior := Table.firstBy (fun a b => decide (b.parsedAt ≤ a.parsedAt))
    (db.evidence.annotations.filter fun a =>
      a.source = n.source && a.sourceItemId = n.sourceItemId &&
        a.revisionNumber = n.revisionNumber && a.promptVersion ≠ promptVersion)
  if prior.any fun a => a.xauusdRelevance = some "IRRELEVANT" then .ok false
  else match db.metadata.forwardEpoch with
  | none => .error .typeError
  | some epoch =>
    .ok (assessNewsTime n activatedAt epoch
      (categoryActionableAge (prior.bind (·.primaryCategory))) none).eligible

/-- The activation instant of the contract. -/
def Db.laneActivatedAt (db : Db) (promptVersion : String) (now : ℤ) : ℤ :=
  match db.workLaneMigrations.find? promptVersion, db.contractBackfills.find? promptVersion with
  | some m, _ => m.activatedAt
  | none, some b => b.activatedAt
  | none, none =>
    (((db.jobs.rows.filter fun j => j.taskType = TaskType.activeAnnotation &&
      j.promptVersion = promptVersion).map (·.createdAt)).min?).getD now

/-- The first transaction: the two state rows. -/
def Db.startLaneMigration (db : Db) (promptVersion : String) (activatedAt now : ℤ) : Db :=
  { db with
    contractBackfills := db.contractBackfills.insertIgnore
      ⟨promptVersion, activatedAt, none, .active, now⟩
    workLaneMigrations := db.workLaneMigrations.insertIgnore
      ⟨promptVersion, activatedAt, none, 0, .active, now⟩ }

/-- The lane of a job, and whether the migration retires it. -/
def Db.laneOf (db : Db) (j : Job) (activatedAt : ℤ) (promptVersion : String) :
    Outcome (Bool × Bool) :=
  match db.evidence.revisionOf j with
  | none => .ok (true, j.waiting)
  | some n =>
    if activatedAt ≤ n.collectorFirstSeenTime then .ok (false, false)
    else if !j.waiting then .ok (true, false)
    else (db.contractBackfillHasCurrentValue n activatedAt promptVersion).map fun v => (true, !v)

/-- The `SET` clause of the lane update. -/
def Job.laned (j : Job) (historical retired : Bool) (now : ℤ) : Job :=
  { j with
    workLane := if historical then .contractBackfill else .live
    priority := if historical then .background else .fast
    laneClassified := true
    state := if retired then .deadLetter else j.state
    lastError := if retired then some CURRENT_EVIDENCE_NO_LONGER_ELIGIBLE else j.lastError
    leaseOwner := if retired then none else j.leaseOwner
    leaseExpiresAt := if retired then none else j.leaseExpiresAt
    updatedAt := if retired then now else j.updatedAt
    completedAt := if retired then some now else j.completedAt }

/-- One row of the page. -/
def Db.laneJob (activatedAt : ℤ) (promptVersion : String) (now : ℤ) (db : Db) (row : Job) :
    Outcome Db := do
  let (historical, retired) ← db.laneOf row activatedAt promptVersion
  return db.updateJobs (fun j => j.jobId = row.jobId && !j.laneClassified)
    (·.laned historical retired now) fun _ => rfl

/-- The state row after a page of `rows`. -/
def WorkLaneMigration.advanced (m : WorkLaneMigration) (rows : List Job) (now : ℤ) :
    WorkLaneMigration :=
  let m := match rows.getLast? with
    | none => m
    | some last => { m with
        cursor := some (last.createdAt, last.jobId)
        processedCount := m.processedCount + rows.length
        updatedAt := now }
  if rows.length < EXISTING_JOB_LANE_PAGE_SIZE then { m with state := .complete, updatedAt := now }
  else m

/-- The second transaction: one page of unclassified annotation jobs. -/
def Db.lanePage (db : Db) (m : WorkLaneMigration) (activatedAt : ℤ) (now : ℤ) : Outcome Db := do
  let rows := db.jobPage (fun j => j.taskType = TaskType.activeAnnotation &&
    j.promptVersion = m.promptVersion && !j.laneClassified) m.cursor EXISTING_JOB_LANE_PAGE_SIZE
  let laned ← rows.foldlM (Db.laneJob activatedAt m.promptVersion now) db
  return { laned with
    workLaneMigrations := laned.workLaneMigrations.update
      (fun m' => m'.promptVersion = m.promptVersion)
      (fun m' => { m.advanced rows now with promptVersion := m'.promptVersion }) fun _ => rfl
    appliedMigrations :=
      if rows.length < EXISTING_JOB_LANE_PAGE_SIZE then
        laned.appliedMigrations.insertIgnore ⟨"annotation-work-lanes:" ++ m.promptVersion, now⟩
      else laned.appliedMigrations }

/-- `_install_annotation_contract_lanes`, which returns the activation instant. -/
def installAnnotationContractLanes (promptVersion : String) (now : ℤ) (db : Db) :
    Outcome ℤ × Db :=
  let activatedAt := db.laneActivatedAt promptVersion now
  let started := db.startLaneMigration promptVersion activatedAt now
  match started.workLaneMigrations.find? promptVersion with
  | none => (.ok activatedAt, started)
  | some m =>
    if m.state = .complete then (.ok activatedAt, started)
    else match started.lanePage m activatedAt now with
    | .error e => (.error e, started)
    | .ok db' => (.ok activatedAt, db')

/-! ## Provenance of derived work -/

/-- The projections behind the current annotations of a revision, the newest
    first, each with the annotation it made. -/
def Db.projectionsOf (db : Db) (source sourceItemId : String) (revisionNumber : ℤ)
    (annotationId currentPromptVersion : String) : List (TransitionProjection × NewsAnnotation) :=
  ((db.evidence.projections.flatMap fun p =>
      (db.evidence.annotations.filter fun a => a.annotationId = p.targetAnnotationId &&
        a.source = source && a.sourceItemId = sourceItemId && a.revisionNumber = revisionNumber &&
        a.promptVersion = currentPromptVersion &&
        (annotationId = "" || a.annotationId = annotationId)).map fun a => (p, a)).insertionSort
    fun x y => y.2.parsedAt < x.2.parsedAt ∨
      x.2.parsedAt = y.2.parsedAt ∧ y.2.annotationId ≤ x.2.annotationId).take 2

/-- The classified annotation jobs of a revision that have an annotation. -/
def Db.annotationJobsOf (db : Db) (source sourceItemId : String) (revisionNumber : ℤ)
    (annotationId currentPromptVersion : String) : List Job :=
  (db.jobs.rows.filter fun j => j.taskType = TaskType.activeAnnotation && j.source = source &&
    j.sourceItemId = sourceItemId && j.revisionNumber = revisionNumber &&
    j.promptVersion = currentPromptVersion && j.laneClassified &&
    db.evidence.annotations.any fun a => a.source = j.source && a.sourceItemId = j.sourceItemId &&
      a.revisionNumber = j.revisionNumber && a.promptVersion = j.promptVersion &&
      (annotationId = "" || a.annotationId = annotationId)).take 2

/-- `resolve_work_provenance` -/
def resolveWorkProvenance (source sourceItemId : String) (revisionNumber : ℤ)
    (annotationId currentPromptVersion : String) (db : Db) : Outcome (Option WorkProvenance) :=
  match db.annotationJobsOf source sourceItemId revisionNumber annotationId currentPromptVersion,
    db.projectionsOf source sourceItemId revisionNumber annotationId currentPromptVersion with
  | [job], [] => (WorkProvenance.make job.workLane "ACTIVE_ANNOTATION" job.jobId).map some
  | [_], [(p, _)] => (WorkProvenance.make .contractBackfill "SEMANTIC_TRANSITION"
      (p.transitionFingerprint ++ ":" ++ p.sourceAnnotationId)).map some
  | _, _ => .ok none

/-- `task_type IN ('ACTIVE_IMPACT','TITLE_TRANSLATION') AND COALESCE(provenance_version,'')<>?` -/
def Job.provenanceDue (j : Job) : Bool :=
  (j.taskType = .activeImpact || j.taskType = .titleTranslation) &&
    j.provenanceVersion.getD "" ≠ WORK_PROVENANCE_VERSION

/-- A derived job without a resolvable parent. -/
def Job.unresolved (j : Job) (now : ℤ) : Job :=
  { j with
    laneClassified := false
    provenanceResolved := false
    provenanceVersion := some WORK_PROVENANCE_VERSION
    provenanceOriginTask := some "UNRESOLVED"
    provenanceOriginRef := some ("unresolved:" ++ j.jobId)
    updatedAt := now }

/-- A derived job with the provenance of its parent. -/
def Job.resolvedTo (j : Job) (provenance : WorkProvenance) (priority : Priority) (now : ℤ) : Job :=
  { j with
    workLane := provenance.workLane
    priority := priority
    laneClassified := true
    provenanceResolved := true
    provenanceVersion := some WORK_PROVENANCE_VERSION
    provenanceOriginTask := some provenance.originTask
    provenanceOriginRef := some provenance.originRef
    updatedAt := now }

/-- What one page did. -/
structure ProvenanceCounts where
  resolved : ℕ := 0
  unresolved : ℕ := 0
  leasedSkipped : ℕ := 0
  deriving DecidableEq, Repr

/-- `finalized` -/
def ProvenanceCounts.finalized (c : ProvenanceCounts) : ℕ := c.resolved + c.unresolved

/-- One row of the page. -/
def Db.resolveJob (currentPromptVersion : String) (parentsComplete : Bool) (now : ℤ)
    (acc : ProvenanceCounts × Db) (row : Job) : Outcome (ProvenanceCounts × Db) := do
  let (counts, db) := acc
  if row.state = .leased then
    return ({ counts with leasedSkipped := counts.leasedSkipped + 1 }, db)
  match ← resolveWorkProvenance row.source row.sourceItemId row.revisionNumber row.annotationId
      currentPromptVersion db with
  | none =>
    if !parentsComplete then return (counts, db)
    return ({ counts with unresolved := counts.unresolved + 1 },
      db.updateJobs (fun j => j.jobId = row.jobId && j.state ≠ .leased) (·.unresolved now)
        fun _ => rfl)
  | some provenance =>
    let priority := if provenance.workLane = .contractBackfill then .background else row.priority
    return ({ counts with resolved := counts.resolved + 1 },
      db.updateJobs (fun j => j.jobId = row.jobId && j.state ≠ .leased)
        (·.resolvedTo provenance priority now) fun _ => rfl)

/-- The state row after a page of `rows`; `remaining` jobs are still due. -/
def ProvenanceMigration.advanced (m : ProvenanceMigration) (rows : List Job) (priorityPage : Bool)
    (counts : ProvenanceCounts) (remaining : ℕ) (now : ℤ) : ProvenanceMigration :=
  let m := match rows.getLast? with
    | none => m
    | some last => { m with
        cursor := if priorityPage then m.cursor else some (last.createdAt, last.jobId)
        processedCount := m.processedCount + counts.finalized
        resolvedCount := m.resolvedCount + counts.resolved
        unresolvedCount := m.unresolvedCount + counts.unresolved
        leasedSkippedCount := m.leasedSkippedCount + counts.leasedSkipped
        state := .active
        updatedAt := now }
  if !priorityPage && rows.length < DOWNSTREAM_PROVENANCE_PAGE_SIZE then
    { m with
      cursor := none
      passCount := m.passCount + 1
      state := if remaining = 0 then .complete else .waitingInput
      updatedAt := now }
  else m

/-- The second transaction: one page of derived jobs. -/
def Db.provenancePage (db : Db) (m : ProvenanceMigration) (currentPromptVersion : String)
    (now : ℤ) : Outcome (ProvenanceCounts × Db) := do
  let parentsComplete := (db.workLaneMigrations.find? currentPromptVersion).any
    fun lanes => lanes.state = .complete
  let urgent := if parentsComplete then
      db.jobPage (fun j => j.provenanceDue && j.waiting) none DOWNSTREAM_PROVENANCE_PAGE_SIZE
    else []
  let priorityPage := !urgent.isEmpty
  let rows := if priorityPage then urgent
    else db.jobPage Job.provenanceDue m.cursor DOWNSTREAM_PROVENANCE_PAGE_SIZE
  let (counts, resolved) ← rows.foldlM (Db.resolveJob currentPromptVersion parentsComplete now)
    ({}, db)
  let remaining := resolved.jobs.hits Job.provenanceDue
  return (counts, { resolved with
    provenanceMigrations := resolved.provenanceMigrations.update
      (fun m' => m'.provenanceVersion = m.provenanceVersion)
      (fun m' => { m.advanced rows priorityPage counts remaining now with
        provenanceVersion := m'.provenanceVersion }) fun _ => rfl })

/-- The first transaction: the state row. -/
def Db.startProvenanceMigration (db : Db) (now : ℤ) : Db :=
  { db with
    provenanceMigrations := db.provenanceMigrations.insertIgnore
      ⟨WORK_PROVENANCE_VERSION, none, 0, 0, 0, 0, 0, .active, now⟩ }

/-- `_install_downstream_work_provenance` -/
def installDownstreamWorkProvenance (currentPromptVersion : String) (now : ℤ) (db : Db) :
    Outcome ProvenanceCounts × Db :=
  let started := db.startProvenanceMigration now
  match started.provenanceMigrations.find? WORK_PROVENANCE_VERSION with
  | none => (.ok {}, started)
  | some m =>
    if m.state = .complete then (.ok {}, started)
    else match started.provenancePage m currentPromptVersion now with
    | .error e => (.error e, started)
    | .ok (counts, db') => (.ok counts, db')

end Xauusd.Scheduler
