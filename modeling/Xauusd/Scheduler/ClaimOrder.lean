/-
  The order in which jobs are claimed (`claim_job` in
  `news/scheduler/state.py`).

  * `ClaimRequest.overdue`, `young`, `aged`, `Job.fast`: what the terms of the
    `ORDER BY` clause ask;
  * `mem_rows`: the rows among which one is selected;
  * `select_first`: no row is before the one that is selected;
  * `claimJob_select`: the claim returns the job that is selected;
  * `Db.SingleOverride`, `override_of_mem`: a job with one active override.
-/
import Xauusd.Scheduler.LeaseSafety
import Xauusd.Scheduler.Override

namespace Xauusd.Scheduler

variable {r : ClaimRequest} {tasks : List TaskType} {lanes : List WorkLane} {db : Db} {j k : Job}
  {o o' : Option RetryOverride}

/-! ## The terms -/

/-- An override for idle capacity that has waited for so long that it comes
    first. -/
def ClaimRequest.overdue (r : ClaimRequest) (o : Option RetryOverride) : Bool :=
  o.any (·.mode = .idleCapacity) && o.any fun o => o.requestedAt ≤ r.now - IDLE_CAPACITY_MAX_WAIT

/-- An override for idle capacity that has not. -/
def ClaimRequest.young (r : ClaimRequest) (o : Option RetryOverride) : Bool :=
  o.any (·.mode = .idleCapacity) && !o.any fun o => o.requestedAt ≤ r.now - IDLE_CAPACITY_MAX_WAIT

/-- The job is older than the head start. -/
def ClaimRequest.aged (r : ClaimRequest) (j : Job) : Bool := decide (j.availableAt ≤ r.now - PRIORITY_HEAD_START)

/-- `LIVE`, `ACTIVE_ANNOTATION` and `IMMEDIATE` or `FAST` -/
def Job.fast (j : Job) : Bool := j.taskType = TaskType.activeAnnotation && j.workLane = .live && j.priority.urgent

/-- The last three terms. -/
def ClaimRequest.lastTerms (j : Job) : List ℤ :=
  [ match j.priority with
      | .immediate => 0
      | .fast => 1
      | .normal => 2
      | .background => 3,
    match j.taskType with
      | .activeImpact => 0
      | TaskType.activeAnnotation => 1
      | .titleTranslation => 2,
    j.availableAt ]

theorem rank_eq : r.rank j o =
    (if r.overdue o then 0 else 1) :: (if j.workLane = .live then 0 else 1) :: (if j.fast then 0 else 1) ::
      (if r.young o then 1 else 0) :: (if r.aged j then 0 else 1) :: (if r.aged j then j.availableAt else 0) ::
        ClaimRequest.lastTerms j := rfl

theorem not_young_of_overdue (h : r.overdue o = true) : r.young o = false := by
  simp only [ClaimRequest.overdue, Bool.and_eq_true] at h
  simp [ClaimRequest.young, h.2]

theorem Job.live_of_fast (h : j.fast = true) : j.workLane = .live := by
  simp only [Job.fast, Bool.and_eq_true, decide_eq_true_eq] at h
  exact h.1.2

/-! ## The order -/

theorem cons_le_cons {a b : ℤ} {l m : List ℤ} : a :: l ≤ b :: m ↔ a < b ∨ a = b ∧ l ≤ m := by
  rw [← not_lt, List.cons_lt_cons_iff, ← not_lt (a := m)]
  constructor
  · intro h
    rcases lt_trichotomy a b with hlt | heq | hlt
    · exact .inl hlt
    · exact .inr ⟨heq, fun hml => h (.inr ⟨heq.symm, hml⟩)⟩
    · exact absurd (.inl hlt) h
  · rintro (hlt | ⟨heq, hle⟩) (hlt' | ⟨heq', hml⟩)
    · omega
    · omega
    · omega
    · exact hle hml

theorem before_iff {a b : Job × Option RetryOverride} : r.before a b = true ↔
    r.rank a.1 a.2 < r.rank b.1 b.2 ∨ r.rank a.1 a.2 = r.rank b.1 b.2 ∧ a.1.jobId ≤ b.1.jobId := by
  rw [ClaimRequest.before, decide_eq_true_eq]

theorem before_total (a b : Job × Option RetryOverride) : r.before a b = true ∨ r.before b a = true := by
  rw [before_iff, before_iff]
  rcases lt_trichotomy (r.rank a.1 a.2) (r.rank b.1 b.2) with hlt | heq | hlt
  · exact .inl (.inl hlt)
  · rcases le_total a.1.jobId b.1.jobId with hle | hle
    · exact .inl (.inr ⟨heq, hle⟩)
    · exact .inr (.inr ⟨heq.symm, hle⟩)
  · exact .inr (.inl hlt)

theorem before_trans (a b c : Job × Option RetryOverride) (hab : r.before a b = true) (hbc : r.before b c = true) :
    r.before a c = true := by
  rw [before_iff] at *
  rcases hab with hab | ⟨hab, hab'⟩
  · rcases hbc with hbc | ⟨hbc, -⟩
    · exact .inl (hab.trans hbc)
    · exact .inl (hbc ▸ hab)
  · rcases hbc with hbc | ⟨hbc, hbc'⟩
    · exact .inl (hab ▸ hbc)
    · exact .inr ⟨hab.trans hbc, hab'.trans hbc'⟩

theorem rank_le_of_before {a b : Job × Option RetryOverride} (h : r.before a b = true) :
    r.rank a.1 a.2 ≤ r.rank b.1 b.2 := by
  rcases before_iff.1 h with hlt | ⟨heq, -⟩
  · exact hlt.le
  · exact heq.le

/-! ## The rows -/

/-- The rows among which one is selected. -/
def ClaimRequest.rows (r : ClaimRequest) (tasks : List TaskType) (lanes : List WorkLane) (db : Db) :
    List (Job × Option RetryOverride) :=
  (db.jobs.rows.filter (r.claimable tasks lanes)).flatMap db.withActiveOverride

theorem mem_withActiveOverride : (k, o) ∈ db.withActiveOverride j ↔
    k = j ∧ match o with
      | none => ∀ o ∈ db.overrides, o.jobId = j.jobId → o.active = false
      | some o => o ∈ db.overrides ∧ o.jobId = j.jobId ∧ o.active = true := by
  have hmem (o : RetryOverride) : o ∈ db.overrides.rows.filter (fun o => o.jobId = j.jobId && o.active) ↔
      o ∈ db.overrides ∧ o.jobId = j.jobId ∧ o.active = true := by
    simp [List.mem_filter, Table.mem_rows]
  unfold Db.withActiveOverride
  split
  · next hnil =>
    rw [List.mem_singleton, Prod.mk.injEq]
    refine and_congr_right fun _ => ?_
    cases o with
    | none =>
      refine iff_of_true rfl fun o ho hid => ?_
      by_contra hactive
      have hin := (hmem o).2 ⟨ho, hid, by simpa using hactive⟩
      rw [hnil] at hin
      cases hin
    | some o =>
      refine iff_of_false (by simp) fun ho => ?_
      have hin := (hmem o).2 ho
      rw [hnil] at hin
      cases hin
  · next hne =>
    rw [List.mem_map]
    cases o with
    | none =>
      refine iff_of_false (by simp) ?_
      rintro ⟨-, hnone⟩
      refine hne (List.eq_nil_iff_forall_not_mem.2 fun o ho => ?_)
      have ho := (hmem o).1 ho
      simp [hnone o ho.1 ho.2.1] at ho
    | some o =>
      constructor
      · rintro ⟨o', ho', heq⟩
        cases heq
        exact ⟨rfl, (hmem o).1 ho'⟩
      · rintro ⟨rfl, ho⟩
        exact ⟨o, (hmem o).2 ho, rfl⟩

theorem mem_rows : (j, o) ∈ r.rows tasks lanes db ↔
    j ∈ db.jobs ∧ r.claimable tasks lanes j = true ∧ (j, o) ∈ db.withActiveOverride j := by
  unfold ClaimRequest.rows
  rw [List.mem_flatMap]
  constructor
  · rintro ⟨k, hk, hrow⟩
    obtain rfl := (mem_withActiveOverride.1 hrow).1
    exact ⟨(List.mem_filter.1 hk).1, (List.mem_filter.1 hk).2, hrow⟩
  · rintro ⟨hj, hclaimable, hrow⟩
    exact ⟨j, List.mem_filter.2 ⟨hj, hclaimable⟩, hrow⟩

/-- Every claimable job has a row. -/
theorem exists_row (hj : j ∈ db.jobs) (hclaimable : r.claimable tasks lanes j = true) :
    ∃ o, (j, o) ∈ r.rows tasks lanes db := by
  have hne : db.withActiveOverride j ≠ [] := by
    unfold Db.withActiveOverride
    split
    · simp
    · next h => simpa using h
  obtain ⟨⟨k, o⟩, hrow⟩ := List.exists_mem_of_ne_nil _ hne
  obtain rfl := (mem_withActiveOverride.1 hrow).1
  exact ⟨o, mem_rows.2 ⟨hj, hclaimable, hrow⟩⟩

/-- No row is before the one that is selected. -/
theorem select_first (h : r.select tasks lanes db = some j) :
    ∃ o, (j, o) ∈ r.rows tasks lanes db ∧ ∀ row ∈ r.rows tasks lanes db, r.rank j o ≤ r.rank row.1 row.2 := by
  obtain ⟨⟨k, o⟩, hrow, rfl⟩ := Option.map_eq_some_iff.1 h
  exact ⟨o, Table.mem_of_firstBy hrow,
    fun row hmem => rank_le_of_before (Table.firstBy_le before_total before_trans hrow row hmem)⟩

theorem select_eq_none : r.select tasks lanes db = none ↔ ∀ j ∈ db.jobs, r.claimable tasks lanes j = false := by
  rw [ClaimRequest.select, Option.map_eq_none_iff, Table.firstBy_eq_none_iff]
  constructor
  · intro hnil j hj
    by_contra hclaimable
    obtain ⟨o, hrow⟩ := exists_row hj (by simpa using hclaimable)
    rw [ClaimRequest.rows, hnil] at hrow
    cases hrow
  · intro hnone
    refine List.eq_nil_iff_forall_not_mem.2 ?_
    rintro ⟨k, o⟩ hrow
    obtain ⟨hk, hclaimable, -⟩ := mem_rows.1 hrow
    simp [hnone k hk] at hclaimable

/-- The job that is selected is leased and returned. -/
theorem claimJob_select (hscope : r.scope = .ok (tasks, lanes)) (htasks : tasks ≠ [])
    (h : r.select tasks lanes (db.repairExpiredLeases r.now) = some j) :
    claimJob r db =
      (.ok (some (jobFromRow (r.lease j))), r.leaseJob j.jobId (db.repairExpiredLeases r.now)) := by
  obtain ⟨hmem, hclaimable⟩ := ClaimRequest.select_mem h
  have hwaiting := ClaimRequest.claimable_waiting hclaimable
  have hhits : (db.repairExpiredLeases r.now).jobs.hits (fun k => k.jobId = j.jobId && k.waiting) = 1 := by
    refine (Table.hits_eq_one_iff (k := j.jobId) fun k hk => ?_).2 ⟨j, hmem, by simp [hwaiting]⟩
    simp only [Bool.and_eq_true, decide_eq_true_eq] at hk
    exact hk.1
  have hleased : (r.leaseJob j.jobId (db.repairExpiredLeases r.now)).jobs.find? j.jobId = some (r.lease j) := by
    rw [r.leaseJob_find?, Table.find?_eq_some_iff.2 ⟨hmem, rfl⟩]
    simp [hwaiting]
  unfold claimJob
  rw [hscope]
  cases tasks with
  | nil => exact absurd rfl htasks
  | cons t ts => simp only [h, hhits, hleased, Option.map_some, ne_eq, not_true_eq_false, if_false]

/-- A claim returns the job that was selected, if any. -/
theorem claimJob_some {job : ScheduledJob} {db' : Db} (h : claimJob r db = (.ok (some job), db')) :
    ∃ tasks lanes j, r.scope = .ok (tasks, lanes) ∧ tasks ≠ [] ∧
      r.select tasks lanes (db.repairExpiredLeases r.now) = some j ∧ job = jobFromRow (r.lease j) := by
  cases hscope : r.scope with
  | error e =>
    rw [claimJob, hscope] at h
    cases h
  | ok scope =>
    obtain ⟨tasks, lanes⟩ := scope
    cases htasks : tasks with
    | nil =>
      rw [claimJob, hscope, htasks] at h
      cases h
    | cons t ts =>
      cases hselect : r.select tasks lanes (db.repairExpiredLeases r.now) with
      | none =>
        subst htasks
        simp only [claimJob, hscope, hselect] at h
        cases h
      | some j =>
        rw [claimJob_select hscope (by simp [htasks]) hselect] at h
        cases h
        exact ⟨tasks, lanes, j, by rw [htasks], by simp [htasks], hselect, rfl⟩

/-! ## Overrides -/

/-- No job has two active overrides. -/
def Db.SingleOverride (db : Db) : Prop :=
  ∀ o ∈ db.overrides, ∀ o' ∈ db.overrides, o.active = true → o'.active = true → o.jobId = o'.jobId → o = o'

theorem override_of_mem (hsingle : db.SingleOverride) (ho : (j, o) ∈ db.withActiveOverride j)
    (ho' : (j, o') ∈ db.withActiveOverride j) : o = o' := by
  obtain ⟨-, ho⟩ := mem_withActiveOverride.1 ho
  obtain ⟨-, ho'⟩ := mem_withActiveOverride.1 ho'
  cases o with
  | none =>
    cases o' with
    | none => rfl
    | some o' => simp [ho o' ho'.1 ho'.2.1] at ho'
  | some o =>
    cases o' with
    | none => simp [ho' o ho.1 ho.2.1] at ho
    | some o' => rw [hsingle o ho.1 o' ho'.1 ho.2.2 ho'.2.2 (ho.2.1.trans ho'.2.1.symm)]

/-- The active override of a job, where there is at most one. -/
theorem activeOverride_mem (db : Db) (j : Job) : (j, db.activeOverride j.jobId) ∈ db.withActiveOverride j := by
  refine mem_withActiveOverride.2 ⟨rfl, ?_⟩
  cases ho : db.activeOverride j.jobId with
  | none =>
    intro o hmem hid
    have hnone := List.find?_eq_none.1 ho o hmem
    simpa [hid] using hnone
  | some o =>
    have hp := List.find?_some ho
    simp only [Bool.and_eq_true, decide_eq_true_eq] at hp
    exact ⟨List.mem_of_find?_eq_some ho, hp⟩

end Xauusd.Scheduler
