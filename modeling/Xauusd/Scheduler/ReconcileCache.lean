/-
  The cached acceptance of reconciliation.

  A key names a version of the database: the job revision and the lengths of
  the four evidence tables.  What the pass reads of the jobs and of the
  evidence cannot change under one version (`Db.Write.tracks`), so the key
  cached after a pass vouches, in the sense of `Versioned`, that a pass still
  has nothing to do.

  * `Settled`: neither update of the pass hits a row;
  * `fullPass_settled`: a pass leaves a settled database (idempotence);
  * `CacheSound`: the cached key vouches for `Settled`; every call keeps it
    (`exec_cacheSound`);
  * `reconcile_cache_agrees`: when the cached key is the current one, the full
    pass changes nothing.
-/
import Mathlib
import Xauusd.Lib.Versioned
import Xauusd.Scheduler.Writes

namespace Xauusd.Scheduler

variable {P : Platform} {A : Label → Prop} {j j' : Job} {db db' : Db} {epoch : ℤ}
  {days days' : List String}

/-! ## Settled databases -/

/-- Neither update of the full pass hits a row. -/
def Settled (P : Platform) (epoch : ℤ) (days : List String) (db : Db) : Prop :=
  ∀ j ∈ db.jobs, satisfied db.evidence j = false ∧ obsolete P db.evidence epoch days j = false

theorem satisfied_congr (e : Evidence) (h : j.inputs = j'.inputs) :
    satisfied e j = satisfied e j' := by
  cases j; cases j'
  simp only [Job.inputs, JobInputs.mk.injEq] at h
  obtain ⟨rfl, rfl, rfl, rfl, rfl, rfl, rfl, rfl⟩ := h
  rfl

theorem obsolete_congr (e : Evidence) (h : j.inputs = j'.inputs) :
    obsolete P e epoch days j = obsolete P e epoch days j' := by
  cases j; cases j'
  simp only [Job.inputs, JobInputs.mk.injEq] at h
  obtain ⟨rfl, rfl, rfl, rfl, rfl, rfl, rfl, rfl⟩ := h
  rfl

/-- The protected days count as a set. -/
theorem obsolete_days_congr (e : Evidence) (h : ∀ d, d ∈ days ↔ d ∈ days') :
    obsolete P e epoch days j = obsolete P e epoch days' j := by
  simp only [obsolete, Evidence.superseded, Evidence.newerScope, Evidence.protectedRevision,
    Evidence.unfit, Evidence.outranked, sameReceiptScope, h]

theorem Settled.days_congr (h : ∀ d, d ∈ days ↔ d ∈ days') (hs : Settled P epoch days db) :
    Settled P epoch days' db :=
  fun j hj => ⟨(hs j hj).1, by rw [← obsolete_days_congr db.evidence h]; exact (hs j hj).2⟩

/-- On a settled database the full pass does nothing. -/
theorem Settled.fullPass (hs : Settled P epoch days db) (now : ℤ) :
    (db.fullPass P epoch days now).1 = 0 ∧ (db.fullPass P epoch days now).2.jobs = db.jobs := by
  have hsatisfied : db.jobs.hits (satisfied db.evidence) = 0 :=
    Table.hits_eq_zero_iff.2 fun j hj => (hs j hj).1
  have hjobs : (db.completeSatisfied now).jobs = db.jobs :=
    Table.update_of_hits_eq_zero (f := fun j : Job => j.reconciled now) (fun _ => rfl) hsatisfied
  have hobsolete : (db.completeSatisfied now).jobs.hits (obsolete P db.evidence epoch days) = 0 := by
    rw [hjobs]; exact Table.hits_eq_zero_iff.2 fun j hj => (hs j hj).2
  refine ⟨by simp [Db.fullPass, hsatisfied, hobsolete], ?_⟩
  exact (Table.update_of_hits_eq_zero (f := fun j : Job =>
    j.retired CURRENT_EVIDENCE_NO_LONGER_ELIGIBLE now) (fun _ => rfl) hobsolete).trans hjobs

theorem Job.retired_notRetired (now : ℤ) :
    (j.retired CURRENT_EVIDENCE_NO_LONGER_ELIGIBLE now).notRetired = false := by
  simp [notRetired, retired, RETIRED_ERRORS]

/-- **The full pass is idempotent**: a row that it completed is not satisfied
    any more, and one that it retired is exempt from both updates. -/
theorem fullPass_settled (P : Platform) (epoch : ℤ) (days : List String) (now : ℤ) (db : Db) :
    Settled P epoch days (db.fullPass P epoch days now).2 := by
  intro j hj
  show satisfied db.evidence j = false ∧ obsolete P db.evidence epoch days j = false
  obtain ⟨j₁, hj₁, rfl⟩ := (Table.mem_update (f := fun j : Job =>
    j.retired CURRENT_EVIDENCE_NO_LONGER_ELIGIBLE now) fun _ => rfl).1 hj
  split
  · simp [satisfied, obsolete, Job.retired_notRetired]
  · next hobsolete =>
    refine ⟨?_, Bool.eq_false_of_not_eq_true hobsolete⟩
    obtain ⟨j₀, -, rfl⟩ := (Table.mem_update (f := fun j : Job => j.reconciled now) fun _ => rfl).1 hj₁
    split
    · simp [satisfied, Job.reconciled]
    · next hsatisfied => simpa using hsatisfied

/-! ## Versions -/

/-- The version of a job revision; a counter that is not a number is past all. -/
def RevisionCell.version : RevisionCell → WithTop ℕ
  | value n => n
  | _ => ⊤

theorem RevisionCell.version_succ (r : RevisionCell) :
    r.version < r.succ.version ∨ r.version = ⊤ ∧ r.succ.version = ⊤ := by
  cases r with
  | absent | invalid => exact .inr ⟨rfl, rfl⟩
  | value n =>
    left
    simp only [succ]
    split
    · exact WithTop.coe_lt_coe.2 n.lt_succ_self
    · exact WithTop.coe_lt_top n

theorem RevisionCell.version_iterate (r : RevisionCell) (n : ℕ) :
    r.version < (succ^[n + 1] r).version ∨ r.version = ⊤ ∧ (succ^[n + 1] r).version = ⊤ := by
  induction n with
  | zero => exact r.version_succ
  | succ n ih =>
    rw [Function.iterate_succ_apply']
    rcases (succ^[n + 1] r).version_succ with h | ⟨-, h⟩ <;> rcases ih with h' | ⟨h', e⟩
    · exact .inl (h'.trans h)
    · exact absurd (e ▸ h) not_top_lt
    · exact .inl (h ▸ lt_of_lt_of_le h' le_top)
    · exact .inr ⟨h', h⟩

/-- A version of the database. -/
abbrev Version := WithTop ℕ × ℕ × ℕ × ℕ × ℕ

/-- The lengths of the four tables that the pass reads. -/
def Evidence.sizes (e : Evidence) : ℕ × ℕ × ℕ × ℕ :=
  (e.revisions.length, e.annotations.length, e.titleTranslations.length,
    e.impactAssessments.length)

def Db.version (db : Db) : Version := (db.metadata.jobRevision.version, db.evidence.sizes)

/-- While the counter is a number, the database is settled. -/
def SettledIfCounted (P : Platform) (epoch : ℤ) (days : List String) (db : Db) : Prop :=
  db.metadata.jobRevision.version ≠ ⊤ → Settled P epoch days db

/-- What a call does to the version, and to what it vouches for. -/
abbrev Db.Tracks (P : Platform) (epoch : ℤ) (days : List String) (db db' : Db) : Prop :=
  Versioned.Tracks Db.version (SettledIfCounted P epoch days) db db'

/-- A job table whose rows have inputs of rows before is as settled as before. -/
theorem Settled.of_inputs (he : db'.evidence = db.evidence)
    (hj : ∀ j' ∈ db'.jobs, ∃ j ∈ db.jobs, j'.inputs = j.inputs) (hs : Settled P epoch days db) :
    Settled P epoch days db' := by
  intro j' hj'
  obtain ⟨j, hmem, hinputs⟩ := hj j' hj'
  rw [he, satisfied_congr _ hinputs, obsolete_congr _ hinputs]
  exact hs j hmem

/-- While the triggers are installed, rows change their inputs only with the
    counter. -/
theorem Db.tracks_of_bump {n : ℕ} (hooks : db.metadata.hooksCurrent = true)
    (he : db'.evidence = db.evidence) (hm : db'.metadata = db.metadata.bump n)
    (hn : n = 0 → ∀ j' ∈ db'.jobs, ∃ j ∈ db.jobs, j'.inputs = j.inputs) :
    db.Tracks P epoch days db' := by
  have hrev : db'.metadata.jobRevision = RevisionCell.succ^[n] db.metadata.jobRevision := by
    simp [hm, Metadata.bump, hooks]
  cases n with
  | zero =>
    have hsame : db'.metadata.jobRevision = db.metadata.jobRevision := hrev
    refine ⟨le_of_eq (by rw [version, version, hsame, he]), fun _ hs hcounted => ?_⟩
    exact (hs (hsame ▸ hcounted)).of_inputs he (hn rfl)
  | succ n =>
    rcases db.metadata.jobRevision.version_iterate n with h | ⟨h, h'⟩
    · refine Versioned.tracks_of_lt ?_
      rw [version, version, hrev, he]
      exact Prod.mk_lt_mk_iff_left.2 h
    · rw [← hrev] at h'
      exact ⟨le_of_eq (by rw [version, version, h, h', he]), fun _ _ hcounted => absurd h' hcounted⟩

/-- Every statement of a call on the queue tracks. -/
theorem Db.Write.tracks (hooks : db.metadata.hooksCurrent = true) (h : db.Write A db') :
    db.Tracks P epoch days db' := by
  cases h with
  | update p f hf h =>
    refine tracks_of_bump hooks rfl rfl fun h0 j' hj' => ?_
    obtain ⟨j, hj, rfl⟩ := (Table.mem_update hf).1 hj'
    exact ⟨j, hj, (updateJobs_inputs_unchanged hf h0).2 j hj⟩
  | insert j hj hs =>
    refine tracks_of_bump hooks rfl rfl fun h0 j' hj' => ?_
    obtain ⟨e, -⟩ | ⟨-, e⟩ := db.jobs.insertIgnore_cases j fun j' => j'.identity = j.identity
    · exact ⟨j', by rwa [insertJobIgnore_jobs, e] at hj', rfl⟩
    · simp [e] at h0
  | other _ h =>
    simp only [core, Prod.mk.injEq] at h
    obtain ⟨hj, he, -, hm, -⟩ := h
    refine ⟨le_of_eq (by rw [version, version, hm, he]), fun _ hs hcounted => ?_⟩
    exact (hs (hm ▸ hcounted)).of_inputs he fun j' hj' => ⟨j', hj ▸ hj', rfl⟩

theorem Db.Writes.metadata (h : db.Writes A db') :
    db'.metadata.hooksCurrent = db.metadata.hooksCurrent ∧
      db'.metadata.reconciliationCache = db.metadata.reconciliationCache := by
  induction h with
  | refl => exact ⟨rfl, rfl⟩
  | tail _ h ih =>
    cases h with
    | update p f hf h => simpa [updateJobs] using ih
    | insert j hj hs => simpa [insertJobIgnore] using ih
    | other _ h =>
      simp only [core, Prod.mk.injEq] at h
      rw [h.2.2.2.1]; exact ih

theorem Db.Writes.tracks (hooks : db.metadata.hooksCurrent = true) (h : db.Writes A db') :
    db.Tracks P epoch days db' := by
  induction h with
  | refl => exact .refl _
  | tail h h' ih => exact ih.trans (h'.tracks ((Db.Writes.metadata h).1.trans hooks))

/-! ## The cached key -/

/-- The rowid in a head. -/
def headSize {α : Type} (head : Option (ℕ × α)) : ℕ := (head.map (·.1)).getD 0

/-- The version that a key names. -/
def ReconciliationKey.version (k : ReconciliationKey) : Version :=
  (k.jobRevision, headSize k.newsRevisionHead, headSize k.annotationHead,
    headSize k.titleTranslationHead, headSize k.impactAssessmentHead)

theorem headSize_tableHead {α β : Type} {rows : List α} {bounded : α → Bool} {identity : α → β}
    {head : Option (ℕ × β)} (h : tableHead rows bounded identity = some head) :
    headSize head = rows.length := by
  unfold tableHead at h
  split at h
  · next hnone =>
    obtain rfl := Option.some.inj h
    simp [headSize, List.getLast?_eq_none_iff.1 hnone]
  · split at h
    · obtain rfl := Option.some.inj h
      rfl
    · cases h

theorem Db.newsJobInputRevision_spec {n : ℕ} (h : db.newsJobInputRevision = some n) :
    db.metadata.hooksCurrent = true ∧ db.metadata.jobRevision = .value n := by
  unfold newsJobInputRevision at h
  split at h
  · next m hm =>
    split at h
    · next hok =>
      simp only [Bool.and_eq_true] at hok
      exact ⟨hok.2, by rw [hm, Option.some.inj h]⟩
    · cases h
  · cases h

/-- What the current key says of the database. -/
theorem Db.reconciliationInputKey_spec {key : ReconciliationKey}
    (h : db.reconciliationInputKey P epoch days = some key) :
    db.metadata.hooksCurrent = true ∧ key.version = db.version ∧ key.forwardEpoch = epoch ∧
      ∀ d, d ∈ key.protectedDays ↔ d ∈ days := by
  simp only [reconciliationInputKey, Option.bind_eq_bind, Option.bind_eq_some_iff] at h
  obtain ⟨revision, hrevision, revisions, hrevisions, annotations, hannotations, translations,
    htranslations, assessments, hassessments, h⟩ := h
  split at h
  · obtain rfl := Option.some.inj h
    obtain ⟨hooks, hcell⟩ := newsJobInputRevision_spec hrevision
    refine ⟨hooks, ?_, rfl, fun d => List.mem_insertionSort _⟩
    simp only [ReconciliationKey.version, Db.version, Evidence.sizes, hcell,
      RevisionCell.version, headSize_tableHead hrevisions, headSize_tableHead hannotations,
      headSize_tableHead htranslations, headSize_tableHead hassessments]
  · cases h

/-- While the triggers are installed, the cached key vouches that a pass has
    nothing to do. -/
def CacheSound (P : Platform) (db : Db) : Prop :=
  ∀ cached, db.metadata.reconciliationCache = some cached → db.metadata.hooksCurrent = true →
    Versioned.Vouches Db.version
      (SettledIfCounted P cached.key.forwardEpoch cached.key.protectedDays) cached.key.version db

theorem Db.Writes.cacheSound (h : db.Writes A db') (hdb : CacheSound P db) : CacheSound P db' := by
  intro cached hcached hooks
  rw [h.metadata.2] at hcached
  rw [h.metadata.1] at hooks
  exact (hdb cached hcached hooks).step (h.tracks hooks)

/-- Publishing the key of a settled database is sound. -/
theorem Db.publishReconciliation_cacheSound (hs : Settled P epoch days db) (now : ℤ)
    (writable : Bool) (hdb : CacheSound P db) :
    CacheSound P (db.publishReconciliation P epoch days now writable) := by
  unfold publishReconciliation
  split
  · exact hdb
  · next key hkey =>
    split
    · obtain ⟨-, hversion, hepoch, hdays⟩ := reconciliationInputKey_spec hkey
      intro cached hcached _
      obtain rfl : ⟨key, now⟩ = cached := Option.some.inj hcached
      refine ⟨le_of_eq hversion, fun _ _ => ?_⟩
      rw [hepoch]
      exact hs.days_congr fun d => (hdays d).symm
    · exact hdb

/-- The database after an override, before its row is inserted, and after. -/
theorem applyRetryScheduleOverride_cacheSound (r : OverrideRequest) (hdb : CacheSound P db) :
    CacheSound P (applyRetryScheduleOverride r db).2 := by
  obtain h | ⟨c, row, -, -, -, -, h⟩ := applyRetryScheduleOverride_cases r db
  · rwa [h]
  · have hmoved := (r.moved_writes (A := fun _ => True) (r.recorded c db row) db).cacheSound hdb
    rw [(Db.insertOverride_ok h).2]
    exact hmoved

theorem reconcileCompletedJobs_cacheSound (r : ReconcileRequest) (hdb : CacheSound P db) :
    CacheSound P (reconcileCompletedJobs P r db).2 := by
  obtain h | ⟨epoch, -, h⟩ := reconcileCompletedJobs_cases P r db
  · rwa [h]
  · have hpassed := (Db.fullPass_writes P epoch r.protectedDays r.now db).cacheSound hdb
    rcases h with h | h
    · rwa [h]
    · rw [h]
      exact Db.publishReconciliation_cacheSound (fullPass_settled P _ _ _ _) _ _ hpassed

theorem appendRow_length {ρ κ : Type} [DecidableEq κ] {key : ρ → κ} {r : ρ} {rows rows' : List ρ}
    (h : appendRow key r rows = .ok rows') : rows'.length = rows.length + 1 := by
  rw [appendRow, Outcome.ite_error_eq_ok] at h
  rw [← Except.ok.inj h.2, List.length_append]; rfl

/-- Evidence is only appended: a table that the pass reads grows, or the pass
    reads the same. -/
theorem Evidence.append_tracks {row : EvidenceRow} {e : Evidence}
    (h : db.evidence.append row = .ok e) :
    db.Tracks P epoch days { db with evidence := e } := by
  cases row <;> simp only [append] at h <;> obtain ⟨rows, hrows, rfl⟩ := Outcome.map_eq_ok.1 h
  case revision | annotation | titleTranslation | impactAssessment =>
    refine Versioned.tracks_of_lt ?_
    simp [Db.version, sizes, Prod.lt_iff, appendRow_length hrows]
  all_goals exact ⟨le_rfl, fun _ hs => hs⟩

theorem RecordCall.exec_cacheSound (c : RecordCall) (hdb : CacheSound P db) :
    CacheSound P (c.exec db).2 := by
  cases c with
  | append row =>
    simp only [exec]
    split
    · exact hdb
    · next e he =>
      exact fun cached hcached hooks =>
        (hdb cached hcached hooks).step (Evidence.append_tracks he)
  | startForward now => exact hdb
  | displaceHooks => exact fun _ _ hooks => absurd hooks Bool.false_ne_true
  | installHooks =>
    -- the cache survives only under the triggers and the counter it was made with
    intro cached hcached _
    simp only [exec, Metadata.installHooks] at hcached
    split at hcached
    · next h =>
      have hrev : (installHooks.exec db).2.metadata.jobRevision = db.metadata.jobRevision := by
        simp [exec, Metadata.installHooks, h.2]
      have hversion : (installHooks.exec db).2.version = db.version := by
        rw [Db.version, hrev]; rfl
      obtain ⟨hle, hgood⟩ := hdb cached hcached h.1
      exact ⟨hversion ▸ hle, fun e hcounted => hgood (hversion ▸ e) (hrev ▸ hcounted)⟩
    · cases hcached

/-- **The cached key is sound after every call.** -/
theorem exec_cacheSound (call : Call) (hdb : CacheSound P db) : CacheSound P (exec P db call).2 := by
  cases call with
  | job c =>
    cases c with
    | overrideRetry r => exact applyRetryScheduleOverride_cacheSound r hdb
    | reconcile r => exact reconcileCompletedJobs_cacheSound r hdb
    | _ => exact (JobCall.exec_writes P ⟨by simp, by simp⟩ db).cacheSound hdb
  | capacity c => exact hdb
  | record c => exact c.exec_cacheSound hdb

theorem cacheSound_run (P : Platform) (calls : List Call) :
    CacheSound P (Machine.run (exec P) Db.empty calls) :=
  Machine.run_invariant (I := CacheSound P) (fun _ call _ => exec_cacheSound call)
    (Machine.along_of_forall (C := fun _ _ => True) (fun _ _ => trivial) _ _)
    fun _ h => nomatch h

/-! ## The fast path -/

/-- A key that is current means a settled database. -/
theorem CacheSound.settled (hdb : CacheSound P db) {now : ℤ}
    (h : db.reconciliationIsUnchanged P epoch days now = true) : Settled P epoch days db := by
  unfold Db.reconciliationIsUnchanged at h
  split at h
  · next key cached hkey hcached =>
    simp only [Bool.and_eq_true, decide_eq_true_eq] at h
    obtain ⟨⟨-, rfl⟩, -⟩ := h
    obtain ⟨hooks, hversion, hepoch, hdays⟩ := Db.reconciliationInputKey_spec hkey
    have hcounted : db.metadata.jobRevision.version ≠ ⊤ := by
      have hfst : (cached.key.jobRevision : WithTop ℕ) = db.metadata.jobRevision.version :=
        congrArg Prod.fst hversion
      rw [← hfst]
      exact WithTop.coe_ne_top
    have hsettled := (hdb cached hcached hooks).2 hversion hcounted
    rw [hepoch] at hsettled
    exact hsettled.days_congr hdays
  · cases h

/-- **The fast path agrees with the full pass.** In every state that calls
    reach: when a reconciliation returns at once because its key is the cached
    one, the two updates of the full pass change no row.  And the pass is
    idempotent: run again with the same days it changes nothing. -/
theorem reconcile_cache_agrees (P : Platform) (calls : List Call) :
    (∀ (r : ReconcileRequest) (epoch : ℤ),
      (Machine.run (exec P) Db.empty calls).metadata.forwardEpoch = some epoch →
      r.cacheEnabled = true →
      (Machine.run (exec P) Db.empty calls).reconciliationIsUnchanged P epoch r.protectedDays r.now =
        true →
      reconcileCompletedJobs P r (Machine.run (exec P) Db.empty calls) =
          (.ok 0, Machine.run (exec P) Db.empty calls) ∧
        ∀ now, ((Machine.run (exec P) Db.empty calls).fullPass P epoch r.protectedDays now).1 = 0 ∧
          ((Machine.run (exec P) Db.empty calls).fullPass P epoch r.protectedDays now).2.jobs =
            (Machine.run (exec P) Db.empty calls).jobs) ∧
      ∀ (db : Db) (epoch : ℤ) (days : List String) (now now' : ℤ),
        ((db.fullPass P epoch days now).2.fullPass P epoch days now').1 = 0 ∧
          ((db.fullPass P epoch days now).2.fullPass P epoch days now').2.jobs =
            (db.fullPass P epoch days now).2.jobs := by
  refine ⟨fun r epoch hepoch henabled hunchanged => ⟨?_, fun now => ?_⟩, ?_⟩
  · simp [reconcileCompletedJobs, hepoch, henabled, hunchanged]
  · exact ((cacheSound_run P calls).settled hunchanged).fullPass now
  · exact fun db epoch days now now' => (fullPass_settled P epoch days now db).fullPass now'

end Xauusd.Scheduler
