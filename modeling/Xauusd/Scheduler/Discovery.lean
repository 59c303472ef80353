/-
  The discovery of annotation work (`sync_pending_jobs`).

  A tick reads one page of the historical records below the cursor of the
  backfill, commits the new cursor, and then enqueues what the page selected,
  one transaction each.  The process may stop between any two of them, and
  starts again with a new tick.

  * `Reader`: the records the page reader knows, the newest first;
  * `contractBackfillPage`: one page, with the cursor it commits;
  * `Discovery`, `DiscoveryAction`: the process, among the other calls on its
    database;
  * `backfill_loses_nothing`: unless the process stops while it still owes a
    record of the page, every valuable record of a complete backfill has its
    job;
  * `stopped_backfill_loses`: a stop right after the cursor.
-/
import Mathlib
import Xauusd.Lib.Paging
import Xauusd.Scheduler.Continuity

namespace Xauusd.Scheduler

variable {P : Platform} {db db' : Db} {pv : String}

/-! ## Records in the order of their receipt -/

/-- `(collector_first_seen_time,source,source_item_id,revision_number)` -/
abbrev ReceiptKey := ℤ × String × String × ℤ

def NewsRevision.receiptKey (n : NewsRevision) : ReceiptKey :=
  (n.collectorFirstSeenTime, n.source, n.sourceItemId, n.revisionNumber)

def ReceiptKey.lexed (k : ReceiptKey) : ℤ ×ₗ String ×ₗ String ×ₗ ℤ :=
  toLex (k.1, toLex (k.2.1, toLex (k.2.2.1, k.2.2.2)))

def ReceiptKey.before (k k' : ReceiptKey) : Prop := k.lexed < k'.lexed

instance : DecidableRel ReceiptKey.before := fun k k' => inferInstanceAs (Decidable (k.lexed < k'.lexed))

instance : IsStrictOrder ReceiptKey ReceiptKey.before where
  irrefl _ := lt_irrefl _
  trans _ _ _ := lt_trans

/-- The page reader, on a finite set of historical records. -/
structure Reader where
  records : List NewsRevision
  descending : records.Pairwise fun n n' => n'.receiptKey.before n.receiptKey

/-- `pending_annotation_records(before_cursor=cursor, limit=limit, selection_order="receipt_desc")` -/
def Reader.read (R : Reader) (cursor : Option ReceiptKey) (limit : ℕ) : List NewsRevision :=
  (Paging.below ReceiptKey.before NewsRevision.receiptKey cursor R.records).take limit

/-! ## The page -/

def CONTRACT_BACKFILL_PAGE_SIZE : ℕ := 50

/-- Each record of a page, with its judgement. -/
def Db.judgeAll (db : Db) (activatedAt : ℤ) (promptVersion : String) (scanned : List NewsRevision) :
    Outcome (List (NewsRevision × Bool)) :=
  scanned.mapM fun n => (db.contractBackfillHasCurrentValue n activatedAt promptVersion).map (n, ·)

/-- The state row after a page: the two updates of its transaction. -/
def ContractBackfill.advanced (b : ContractBackfill) (scanned : List NewsRevision) (limit : ℕ)
    (now : ℤ) : ContractBackfill :=
  let b := match scanned.getLast? with
    | none => b
    | some last => { b with
        cursor := some last.receiptKey
        updatedAt := now }
  if scanned.length < limit then { b with state := .complete, updatedAt := now } else b

theorem ContractBackfill.advanced_promptVersion (b : ContractBackfill) (scanned : List NewsRevision)
    (limit : ℕ) (now : ℤ) : (b.advanced scanned limit now).promptVersion = b.promptVersion := by
  unfold advanced
  cases scanned.getLast? <;> dsimp only <;> split <;> rfl

/-- The transaction of a page. -/
def Db.advanceBackfill (db : Db) (promptVersion : String) (scanned : List NewsRevision) (limit : ℕ)
    (now : ℤ) : Db :=
  { db with
    contractBackfills := db.contractBackfills.update (fun b => b.promptVersion = promptVersion)
      (fun b => b.advanced scanned limit now) fun b => b.advanced_promptVersion scanned limit now }

/-- The page that a call of `_contract_backfill_page` reads, when it reads one. -/
def Db.backfillPage (db : Db) (R : Reader) (promptVersion : String) (pageSize : ℤ) :
    Option (List NewsRevision × ℕ) :=
  match db.contractBackfills.find? promptVersion with
  | none => none
  | some b =>
    if b.state = .complete ∨ pageSize ≤ 0 then none
    else
      let limit := min CONTRACT_BACKFILL_PAGE_SIZE pageSize.toNat
      some (R.read b.cursor limit, limit)

/-- `_contract_backfill_page`: the records of the page with their judgements, of
    which the source returns the valuable ones. -/
def contractBackfillPage (R : Reader) (promptVersion : String) (activatedAt now pageSize : ℤ) (db : Db) :
    Outcome (List (NewsRevision × Bool)) × Db :=
  match db.backfillPage R promptVersion pageSize with
  | none => (.ok [], db)
  | some (scanned, limit) =>
    match db.judgeAll activatedAt promptVersion scanned with
    | .error e => (.error e, db)
    | .ok judged => (.ok judged, db.advanceBackfill promptVersion scanned limit now)

/-! ## The tick -/

/-- `(source,source_item_id,revision_number)` -/
abbrev RevisionKey := String × String × ℤ

def NewsRevision.revisionKey (n : NewsRevision) : RevisionKey :=
  (n.source, n.sourceItemId, n.revisionNumber)

/-- What a tick passes to the page and to the enqueueing: its `limit`, the
    activation of the contract, and the live and protected records it found. -/
structure Tick where
  now : ℤ
  limit : ℤ
  activatedAt : ℤ
  live : List RevisionKey
  protectedRecords : List RevisionKey

def Tick.backfillCapacity (t : Tick) : ℤ :=
  if 1 < t.limit then min CONTRACT_BACKFILL_PAGE_SIZE (max 1 (t.limit / 2)) else 0

def Tick.pageSize (t : Tick) : ℤ := max 0 (t.backfillCapacity - t.protectedRecords.length)

/-- The `enqueue_job` call of a record. -/
def Tick.request (t : Tick) (pv : String) (lane : WorkLane) (k : RevisionKey) : EnqueueRequest where
  taskType := "ACTIVE_ANNOTATION"
  source := k.1
  sourceItemId := k.2.1
  revisionNumber := k.2.2
  promptVersion := pv
  priority := if lane = .live then "FAST" else "BACKGROUND"
  workLane := lane.text
  reopenCompleted := true
  now := t.now

/-- The calls that follow a page: `live_by_revision`, then
    `backfill_by_revision`. -/
def Tick.requests (t : Tick) (pv : String) (selected : List NewsRevision) : List EnqueueRequest :=
  let backfill := ((t.protectedRecords ++ selected.map (·.revisionKey)).eraseDups).filter fun k => k ∉ t.live
  t.live.eraseDups.map (t.request pv .live) ++ backfill.map (t.request pv .contractBackfill)

/-! ## The process -/

/-- The discovering process: its database, the calls its tick still has to
    make, and a record of all judgements. -/
structure Discovery where
  db : Db
  queue : List EnqueueRequest
  judged : List (NewsRevision × Bool)

def Discovery.empty : Discovery := ⟨.empty, [], []⟩

inductive DiscoveryAction where
  /-- the page of a new tick -/
  | page (t : Tick)
  /-- the next call of the tick -/
  | enqueue
  /-- the process stops, and starts again -/
  | stop
  /-- any other call on the database -/
  | other (c : Call)

def valuable (judged : List (NewsRevision × Bool)) : List NewsRevision :=
  (judged.filter (·.2)).map (·.1)

def Discovery.page (R : Reader) (pv : String) (t : Tick) (s : Discovery) : Outcome Unit × Discovery :=
  if s.queue ≠ [] then (.ok (), s)
  else match contractBackfillPage R pv t.activatedAt t.now t.pageSize s.db with
  | (.error e, db) => (.error e, { s with db := db })
  | (.ok judged, db) =>
    (.ok (), { db := db, queue := t.requests pv (valuable judged), judged := s.judged ++ judged })

def Discovery.enqueue (P : Platform) (s : Discovery) : Outcome Unit × Discovery :=
  match s.queue with
  | [] => (.ok (), s)
  | r :: rest => match enqueueJob P r s.db with
    | (.error e, db) => (.error e, { s with db := db, queue := [] })
    | (.ok _, db) => (.ok (), { s with db := db, queue := rest })

def DiscoveryAction.exec (P : Platform) (R : Reader) (pv : String) (s : Discovery) :
    DiscoveryAction → Outcome Unit × Discovery
  | page t => s.page R pv t
  | enqueue => s.enqueue P
  | stop => (.ok (), { s with queue := [] })
  | other c => (.ok (), { s with db := (Scheduler.exec P s.db c).2 })

/-! ## What a page does -/

theorem Db.judgeAll_map {activatedAt : ℤ} {scanned : List NewsRevision}
    {judged : List (NewsRevision × Bool)} (h : db.judgeAll activatedAt pv scanned = .ok judged) :
    judged.map (·.1) = scanned := by
  induction scanned generalizing judged with
  | nil => rw [← Except.ok.inj h]; rfl
  | cons n scanned ih =>
    simp only [judgeAll, List.mapM_cons, bind, pure, Except.pure, Outcome.bind_eq_ok,
      Outcome.map_eq_ok, Except.ok.injEq] at h
    obtain ⟨-, ⟨v, -, rfl⟩, rest, hrest, rfl⟩ := h
    rw [List.map_cons, ih hrest]

theorem ContractBackfill.advanced_cursor (b : ContractBackfill) (scanned : List NewsRevision)
    (limit : ℕ) (now : ℤ) : (b.advanced scanned limit now).cursor =
      if scanned = [] then b.cursor else Paging.lastKey NewsRevision.receiptKey scanned := by
  unfold advanced
  rcases List.eq_nil_or_concat' scanned with rfl | ⟨init, last, rfl⟩
  · dsimp only [List.getLast?_nil]
    split <;> rfl
  · have hne : init ++ [last] ≠ [] := by simp
    rw [if_neg hne]
    simp only [List.getLast?_concat, Paging.lastKey]
    split <;> rfl

theorem ContractBackfill.advanced_complete {b : ContractBackfill} {scanned : List NewsRevision}
    {limit : ℕ} {now : ℤ} (hb : b.state ≠ .complete)
    (h : (b.advanced scanned limit now).state = .complete) : scanned.length < limit := by
  by_contra hlong
  have hstate : (b.advanced scanned limit now).state = b.state := by
    unfold advanced
    rw [if_neg hlong]
    cases scanned.getLast? <;> rfl
  exact hb (hstate ▸ h)

/-- A page does nothing, or judges the page it reads and commits its end. -/
theorem contractBackfillPage_cases (R : Reader) (pv : String) (activatedAt now pageSize : ℤ) (db : Db) :
    (contractBackfillPage R pv activatedAt now pageSize db = (.ok [], db)) ∨
      (∃ e, contractBackfillPage R pv activatedAt now pageSize db = (.error e, db)) ∨
      ∃ b limit judged, b ∈ db.contractBackfills ∧ b.promptVersion = pv ∧ b.state ≠ .complete ∧
        judged.map (·.1) = R.read b.cursor limit ∧
        contractBackfillPage R pv activatedAt now pageSize db =
          (.ok judged, db.advanceBackfill pv (R.read b.cursor limit) limit now) := by
  unfold contractBackfillPage Db.backfillPage
  cases hfind : db.contractBackfills.find? pv with
  | none => exact .inl rfl
  | some b =>
    obtain ⟨hb, hpv⟩ := Table.find?_eq_some_iff.1 hfind
    dsimp only
    split
    · next hnone =>
      split at hnone
      · exact .inl rfl
      · cases hnone
    · next scanned limit hsome =>
      split at hsome
      · cases hsome
      · next hopen =>
        obtain ⟨rfl, rfl⟩ := Prod.mk.inj (Option.some.inj hsome)
        rw [not_or] at hopen
        split
        · next e _ => exact .inr (.inl ⟨e, rfl⟩)
        · next judged hjudged =>
          exact .inr (.inr ⟨b, _, judged, hb, hpv, hopen.1, Db.judgeAll_map hjudged, rfl⟩)

/-! ## What an enqueueing does -/

/-- The annotation job of a revision. -/
def Db.HasAnnotationJob (db : Db) (pv : String) (k : RevisionKey) : Prop :=
  ∃ j ∈ db.jobs, j.identity = ( TaskType.activeAnnotation, k.1, k.2.1, k.2.2, "", pv)

theorem Db.Keeps.hasAnnotationJob {k : RevisionKey} (h : db.Keeps db') :
    db.HasAnnotationJob pv k → db'.HasAnnotationJob pv k := by
  rintro ⟨j, hj, hident⟩
  obtain ⟨j', hj', -, hident'⟩ := h.rows j hj
  exact ⟨j', hj', hident'.trans hident⟩

/-- The id of the record's job is a digest, and no other job's. -/
def Db.OwnId (P : Platform) (pv : String) (db : Db) (k : RevisionKey) : Prop :=
  Text.strip (jobIdOf P TaskType.activeAnnotation k.1 k.2.1 k.2.2 "" pv) ≠ "" ∧
    ∀ j ∈ db.jobs, j.jobId = jobIdOf P TaskType.activeAnnotation k.1 k.2.1 k.2.2 "" pv →
      j.identity = ( TaskType.activeAnnotation, k.1, k.2.1, k.2.2, "", pv)

theorem Tick.request_job {t : Tick} {lane : WorkLane} {k : RevisionKey} (h : db.OwnId P pv k) :
    ∃ job, (t.request pv lane k).job P = .ok job ∧
      job.jobId = jobIdOf P TaskType.activeAnnotation k.1 k.2.1 k.2.2 "" pv ∧
      job.identity = ( TaskType.activeAnnotation, k.1, k.2.1, k.2.2, "", pv) := by
  have htask : Text.strip "ACTIVE_ANNOTATION" ≠ "" := by decide
  have hmade (lane : WorkLane) : WorkProvenance.make lane "ACTIVE_ANNOTATION"
      (jobIdOf P TaskType.activeAnnotation k.1 k.2.1 k.2.2 "" pv) = .ok ⟨lane, _, _, htask, h.1⟩ :=
    dif_pos _
  cases lane <;>
    simp [EnqueueRequest.job, request, ofText?, TASKS, TaskType.text, PRIORITIES, Priority.text,
      WORK_LANES, WorkLane.text, hmade, bind, Except.bind, pure, Except.pure, Job.identity]

theorem enqueueJob_hasAnnotationJob {r : EnqueueRequest} {job : Job} {k : RevisionKey}
    (hjob : r.job P = .ok job)
    (hident : job.identity = ( TaskType.activeAnnotation, k.1, k.2.1, k.2.2, "", pv))
    (hown : ∀ j ∈ db.jobs, j.jobId = job.jobId → j.identity = job.identity) :
    (enqueueJob P r db).1 = .ok job.jobId ∧ (enqueueJob P r db).2.HasAnnotationJob pv k := by
  have hinserted : (db.insertJobIgnore job).HasAnnotationJob pv k := by
    obtain ⟨e, j, hj, hclash⟩ | ⟨-, e⟩ := db.jobs.insertIgnore_cases job
      fun j' => j'.identity = job.identity
    · refine ⟨j, ?_, ?_⟩
      · rw [Db.insertJobIgnore_jobs, e]
        exact hj
      · rcases hclash with hid | hclash
        · exact (hown j hj hid).trans hident
        · exact (of_decide_eq_true hclash).trans hident
    · refine ⟨job, ?_, hident⟩
      rw [Db.insertJobIgnore_jobs, ← Table.mem_rows, e]
      simp
  have hupdated : (db.insertJobIgnore job).Keeps ((db.insertJobIgnore job).updateJobs
      (fun j => j.jobId = job.jobId && j.waiting) (·.reclassified job) fun _ => rfl) :=
    Db.updateJobs_keeps fun _ _ _ => rfl
  unfold enqueueJob
  rw [hjob]
  refine ⟨rfl, ?_⟩
  dsimp only
  split
  · refine Db.Keeps.hasAnnotationJob ?_ (hupdated.hasAnnotationJob hinserted)
    exact Db.updateJobs_keeps fun _ _ _ => rfl
  · exact hupdated.hasAnnotationJob hinserted

/-! ## The invariant -/

/-- The tick still has to enqueue the record. -/
def Discovery.Owes (s : Discovery) (n : NewsRevision) : Prop :=
  ∃ r ∈ s.queue, (r.source, r.sourceItemId, r.revisionNumber) = n.revisionKey

/-- The backfill has read `done`, and `rest` lies before it. -/
structure Discovery.Read (R : Reader) (pv : String) (s : Discovery) (done rest : List NewsRevision) :
    Prop where
  records : done ++ rest = R.records
  judged : ∀ n ∈ done, ∃ v, (n, v) ∈ s.judged
  begun : done ≠ [] → ∃ b ∈ s.db.contractBackfills, b.promptVersion = pv
  cursor : ∀ b ∈ s.db.contractBackfills, b.promptVersion = pv →
    b.cursor = Paging.lastKey NewsRevision.receiptKey done
  complete : ∀ b ∈ s.db.contractBackfills, b.promptVersion = pv → b.state = .complete → rest = []

/-- What was read was judged, and what was found valuable has its job or is
    owed. -/
structure Discovery.WF (R : Reader) (pv : String) (s : Discovery) : Prop where
  read : ∃ done rest, s.Read R pv done rest
  requests : ∀ r ∈ s.queue, ∃ (t : Tick) (lane : WorkLane) (k : RevisionKey), r = t.request pv lane k
  owed : ∀ n, (n, true) ∈ s.judged → s.db.HasAnnotationJob pv n.revisionKey ∨ s.Owes n

variable {R : Reader} {s : Discovery}

theorem Discovery.empty_wf : Discovery.empty.WF R pv where
  read := by
    refine ⟨[], R.records, rfl, ?_, ?_, ?_, ?_⟩
    · intro n hn
      cases hn
    · intro h
      exact absurd rfl h
    · intro b hb
      exact absurd hb (Table.not_mem_empty b)
    · intro b hb
      exact absurd hb (Table.not_mem_empty b)
  requests _ hr := nomatch hr
  owed _ hn := nomatch hn

theorem Discovery.Read.keeps {done rest : List NewsRevision} (h : s.Read R pv done rest)
    (hk : s.db.Keeps db') (queue : List EnqueueRequest) :
    Discovery.Read R pv ⟨db', queue, s.judged⟩ done rest := by
  -- a backfill that is new has read nothing
  have hnew : ∀ b ∈ db'.contractBackfills, b.promptVersion = pv →
      b ∈ s.db.contractBackfills ∨ done = [] ∧ b.cursor = none ∧ b.state = .active := by
    intro b hb hpv
    rcases hk.started b hb with hold | ⟨hcursor, hactive⟩
    · exact .inl hold
    · by_cases hdone : done = []
      · exact .inr ⟨hdone, hcursor, hactive⟩
      · obtain ⟨b', hb', hpv'⟩ := h.begun hdone
        rw [db'.contractBackfills.eq_of_key_eq hb (hk.backfills b' hb') (hpv.trans hpv'.symm)]
        exact .inl hb'
  refine ⟨h.records, h.judged, ?_, ?_, ?_⟩
  · intro hdone
    obtain ⟨b, hb, hpv⟩ := h.begun hdone
    exact ⟨b, hk.backfills b hb, hpv⟩
  · intro b hb hpv
    rcases hnew b hb hpv with hold | ⟨rfl, hcursor, -⟩
    · exact h.cursor b hold hpv
    · exact hcursor
  · intro b hb hpv hcomplete
    rcases hnew b hb hpv with hold | ⟨-, -, hactive⟩
    · exact h.complete b hold hpv hcomplete
    · rw [hactive] at hcomplete
      cases hcomplete

theorem Discovery.WF.other (h : s.WF R pv) (hk : s.db.Keeps db') :
    ({ s with db := db' } : Discovery).WF R pv where
  read := by
    obtain ⟨done, rest, hread⟩ := h.read
    exact ⟨done, rest, hread.keeps hk s.queue⟩
  requests := h.requests
  owed n hn := by
    rcases h.owed n hn with hjob | howed
    · exact .inl (hk.hasAnnotationJob hjob)
    · exact .inr howed

theorem mem_valuable {judged : List (NewsRevision × Bool)} {n : NewsRevision} :
    n ∈ valuable judged ↔ (n, true) ∈ judged := by
  simp [valuable]

/-- Every record selected is among the calls of the tick. -/
theorem Tick.mem_requests {t : Tick} {selected : List NewsRevision} {n : NewsRevision}
    (h : n ∈ selected) : ∃ r ∈ t.requests pv selected,
      (r.source, r.sourceItemId, r.revisionNumber) = n.revisionKey := by
  by_cases hlive : n.revisionKey ∈ t.live
  · refine ⟨t.request pv .live n.revisionKey, List.mem_append_left _ ?_, rfl⟩
    exact List.mem_map_of_mem (List.mem_eraseDups.2 hlive)
  · refine ⟨t.request pv .contractBackfill n.revisionKey, List.mem_append_right _ ?_, rfl⟩
    refine List.mem_map_of_mem (List.mem_filter.2 ⟨?_, decide_eq_true hlive⟩)
    exact List.mem_eraseDups.2 (List.mem_append_right _ (List.mem_map_of_mem h))

theorem Tick.requests_shape {t : Tick} {selected : List NewsRevision} {r : EnqueueRequest}
    (h : r ∈ t.requests pv selected) : ∃ (t : Tick) (lane : WorkLane) (k : RevisionKey),
      r = t.request pv lane k := by
  rcases List.mem_append.1 h with h | h
  · obtain ⟨k, -, rfl⟩ := List.mem_map.1 h
    exact ⟨t, .live, k, rfl⟩
  · obtain ⟨k, -, rfl⟩ := List.mem_map.1 h
    exact ⟨t, .contractBackfill, k, rfl⟩

/-- **A page** moves its records from the rest to what was read. -/
theorem Discovery.Read.advance {done rest : List NewsRevision} {b : ContractBackfill} {limit : ℕ}
    {judged : List (NewsRevision × Bool)} (h : s.Read R pv done rest)
    (hb : b ∈ s.db.contractBackfills) (hpv : b.promptVersion = pv) (hopen : b.state ≠ .complete)
    (hmap : judged.map (·.1) = rest.take limit) (now : ℤ) (queue : List EnqueueRequest) :
    Discovery.Read R pv
      ⟨s.db.advanceBackfill pv (rest.take limit) limit now, queue, s.judged ++ judged⟩
      (done ++ rest.take limit) (rest.drop limit) := by
  have hrow : ∀ b' ∈ (s.db.advanceBackfill pv (rest.take limit) limit now).contractBackfills,
      b'.promptVersion = pv → b' = b.advanced (rest.take limit) limit now := by
    intro b' hb' hpv'
    obtain ⟨b₀, h₀, rfl⟩ :=
      (Table.mem_update fun b => b.advanced_promptVersion (rest.take limit) limit now).1 hb'
    by_cases hkey : b₀.promptVersion = pv
    · rw [if_pos (decide_eq_true hkey)]
      rw [s.db.contractBackfills.eq_of_key_eq h₀ hb (hkey.trans hpv.symm)]
    · rw [if_neg (by simpa using hkey)] at hpv'
      exact absurd hpv' hkey
  refine ⟨?_, ?_, ?_, ?_, ?_⟩
  · rw [Paging.take_append_drop, h.records]
  · intro n hn
    rcases List.mem_append.1 hn with hn | hn
    · obtain ⟨v, hv⟩ := h.judged n hn
      exact ⟨v, List.mem_append_left _ hv⟩
    · rw [← hmap] at hn
      obtain ⟨⟨n, v⟩, hv, rfl⟩ := List.mem_map.1 hn
      exact ⟨v, List.mem_append_right _ hv⟩
  · intro _
    refine ⟨_, (Table.mem_update fun b => b.advanced_promptVersion _ limit now).2 ⟨b, hb, rfl⟩, ?_⟩
    rw [if_pos (decide_eq_true hpv), ContractBackfill.advanced_promptVersion, hpv]
  · intro b' hb' hpv'
    rw [hrow b' hb' hpv', ContractBackfill.advanced_cursor]
    split
    · next hempty => rw [hempty, List.append_nil, h.cursor b hb hpv]
    · next hne => rw [Paging.lastKey_append _ hne]
  · intro b' hb' hpv' hcomplete
    rw [hrow b' hb' hpv'] at hcomplete
    exact Paging.drop_of_short (ContractBackfill.advanced_complete hopen hcomplete)

theorem Discovery.WF.page (h : s.WF R pv) (t : Tick) : (s.page R pv t).2.WF R pv := by
  unfold Discovery.page
  split
  · exact h
  · next hqueue =>
    rw [not_not] at hqueue
    have hpaid : ∀ n, (n, true) ∈ s.judged → s.db.HasAnnotationJob pv n.revisionKey := by
      intro n hn
      rcases h.owed n hn with hjob | ⟨r, hr, -⟩
      · exact hjob
      · rw [hqueue] at hr
        cases hr
    obtain ⟨done, rest, hread⟩ := h.read
    obtain hpage | ⟨e, hpage⟩ | ⟨b, limit, judged, hb, hpv, hopen, hmap, hpage⟩ :=
      contractBackfillPage_cases R pv t.activatedAt t.now t.pageSize s.db
    · rw [hpage]
      refine ⟨⟨done, rest, ?_⟩, fun r hr => Tick.requests_shape hr, fun n hn => ?_⟩
      · dsimp only
        rw [List.append_nil]
        exact hread.keeps (.refl _) _
      · exact .inl (hpaid n (by simpa using hn))
    · rw [hpage]
      exact h
    · have hscanned : R.read b.cursor limit = rest.take limit := by
        rw [Reader.read, hread.cursor b hb hpv, ← hread.records, Paging.below_append]
        rw [hread.records]
        exact R.descending
      rw [hscanned] at hmap hpage
      rw [hpage]
      refine ⟨⟨done ++ rest.take limit, rest.drop limit, hread.advance hb hpv hopen hmap t.now _⟩,
        fun r hr => Tick.requests_shape hr, fun n hn => ?_⟩
      rcases List.mem_append.1 hn with hn | hn
      · exact .inl (hpaid n hn)
      · exact .inr (Tick.mem_requests (mem_valuable.2 hn))

/-- An enqueueing under an id of its own pays what it owes. -/
theorem Discovery.WF.enqueue (h : s.WF R pv)
    (hown : ∀ r, s.queue.head? = some r → s.db.OwnId P pv (r.source, r.sourceItemId, r.revisionNumber)) :
    (s.enqueue P).2.WF R pv := by
  unfold Discovery.enqueue
  cases hqueue : s.queue with
  | nil => exact h
  | cons r rest =>
    obtain ⟨t, lane, k, rfl⟩ := h.requests r (by simp [hqueue])
    have hk : s.db.OwnId P pv k := hown (t.request pv lane k) (by rw [hqueue]; rfl)
    obtain ⟨job, hjob, hid, hident⟩ := @Tick.request_job P s.db pv t lane k hk
    obtain ⟨hok, hhas⟩ := enqueueJob_hasAnnotationJob hjob hident fun j hj e =>
      (hk.2 j hj (e.trans hid)).trans hident.symm
    have hkeeps := (enqueueJob_continues P (t.request pv lane k) s.db).toKeeps
    have hsplit : enqueueJob P (t.request pv lane k) s.db =
        (.ok job.jobId, (enqueueJob P (t.request pv lane k) s.db).2) := Prod.ext hok rfl
    obtain ⟨done, rest', hread⟩ := h.read
    dsimp only
    rw [hsplit]
    refine ⟨⟨done, rest', hread.keeps hkeeps _⟩, fun r hr => ?_, fun n hn => ?_⟩
    · exact h.requests r (by rw [hqueue]; exact List.mem_cons_of_mem _ hr)
    · rcases h.owed n hn with hjob | ⟨r, hr, hkey⟩
      · exact .inl (hkeeps.hasAnnotationJob hjob)
      · rw [hqueue] at hr
        rcases List.mem_cons.1 hr with rfl | hr
        · exact .inl (hkey ▸ hhas)
        · exact .inr ⟨r, hr, hkey⟩

/-! ## Runs -/

/-- The process stops only when it owes no valuable record, and every record is
    enqueued under a job id of its own. -/
def DiscoveryAction.Pays (P : Platform) (pv : String) (s : Discovery) : DiscoveryAction → Prop
  | stop => ∀ n, (n, true) ∈ s.judged → ¬ s.Owes n
  | enqueue => ∀ r, s.queue.head? = some r →
      s.db.OwnId P pv (r.source, r.sourceItemId, r.revisionNumber)
  | page _ | other _ => True

theorem DiscoveryAction.exec_wf {a : DiscoveryAction} (ha : a.Pays P pv s) (h : s.WF R pv) :
    (a.exec P R pv s).2.WF R pv := by
  cases a with
  | page t => exact h.page t
  | enqueue => exact h.enqueue ha
  | stop =>
    obtain ⟨done, rest, hread⟩ := h.read
    refine ⟨⟨done, rest, hread.keeps (.refl _) _⟩, fun r hr => (nomatch hr), fun n hn => ?_⟩
    rcases h.owed n hn with hjob | howed
    · exact .inl hjob
    · exact absurd howed (ha n hn)
  | other c => exact h.other (exec_keeps P c s.db)

/-- A complete backfill judged every record, and between two ticks every record
    it found valuable has its job. -/
def Discovery.LosesNothing (R : Reader) (pv : String) (s : Discovery) : Prop :=
  ∀ b ∈ s.db.contractBackfills, b.promptVersion = pv → b.state = .complete →
    (∀ n ∈ R.records, ∃ v, (n, v) ∈ s.judged) ∧
      (s.queue = [] → ∀ n, (n, true) ∈ s.judged → s.db.HasAnnotationJob pv n.revisionKey)

/-- **The backfill loses nothing** along actions that pay what they owe. -/
theorem backfill_loses_nothing (P : Platform) (R : Reader) (pv : String)
    (actions : List DiscoveryAction)
    (hactions : Machine.Along (fun s a => DiscoveryAction.exec P R pv s a)
      (fun s a => DiscoveryAction.Pays P pv s a) Discovery.empty actions) :
    Discovery.LosesNothing R pv
      (Machine.run (fun s a => DiscoveryAction.exec P R pv s a) Discovery.empty actions) := by
  have hwf := Machine.run_invariant (I := fun s => s.WF R pv)
    (fun _ _ ha h => DiscoveryAction.exec_wf ha h) hactions Discovery.empty_wf
  intro b hb hpv hcomplete
  obtain ⟨done, rest, hread⟩ := hwf.read
  refine ⟨fun n hn => ?_, fun hqueue n hn => ?_⟩
  · rw [← hread.records, hread.complete b hb hpv hcomplete, List.append_nil] at hn
    exact hread.judged n hn
  · rcases hwf.owed n hn with hjob | ⟨r, hr, -⟩
    · exact hjob
    · rw [hqueue] at hr
      cases hr

/-! ## A stop after the cursor -/

/-- One record, received and published before the contract was activated. -/
def oldRecord : NewsRevision where
  source := "reuters"
  sourceItemId := "item"
  revisionNumber := 1
  sourcePublishedTime := some IsoTime.hour
  collectorFirstSeenTime := IsoTime.hour
  headline := "Gold"
  body := none
  contentHash := "hash"
  clusterId := "cluster"

def oneRecord : Reader := ⟨[oldRecord], List.pairwise_singleton _ _⟩

def firstTick : DiscoveryAction := .page ⟨2 * IsoTime.hour, 10, 2 * IsoTime.hour, [], []⟩

/-- A page is read after the contract is activated. -/
def pageRead : List DiscoveryAction :=
  [.other (.record (.startForward 0)), .other (.job (.installLanes "v1" (2 * IsoTime.hour))), firstTick]

theorem backfill_loses_nothing_enqueued : Discovery.LosesNothing oneRecord "v1"
    (Machine.run (fun s a => DiscoveryAction.exec Platform.winter oneRecord "v1" s a) Discovery.empty
      (pageRead ++ [.enqueue])) := by
  refine backfill_loses_nothing Platform.winter oneRecord "v1" (pageRead ++ [.enqueue])
    ((Machine.along_append _ _ _).2 ⟨⟨trivial, trivial, trivial, trivial⟩, ?_, trivial⟩)
  have hstate : ((Machine.run (fun s a => DiscoveryAction.exec Platform.winter oneRecord "v1" s a)
      Discovery.empty pageRead).queue.all fun r =>
        (r.source, r.sourceItemId, r.revisionNumber) = ("reuters", "item", 1)) = true ∧
      (Machine.run (fun s a => DiscoveryAction.exec Platform.winter oneRecord "v1" s a)
        Discovery.empty pageRead).db.jobs.rows = [] := by decide
  intro r hr
  have hkey := List.all_eq_true.1 hstate.1 r (List.mem_of_mem_head? hr)
  rw [of_decide_eq_true hkey]
  refine ⟨by decide, fun j hj => ?_⟩
  rw [show j ∈ _ ↔ j ∈ [] from by rw [← hstate.2]; rfl] at hj
  cases hj

theorem stopped_backfill_loses : ¬ Discovery.LosesNothing oneRecord "v1"
    (Machine.run (fun s a => DiscoveryAction.exec Platform.winter oneRecord "v1" s a) Discovery.empty
      (pageRead ++ [.stop, firstTick])) := by
  intro h
  have hstate : (Machine.run (fun s a => DiscoveryAction.exec Platform.winter oneRecord "v1" s a)
        Discovery.empty (pageRead ++ [.stop, firstTick])).db.contractBackfills.rows =
          [⟨"v1", 2 * IsoTime.hour, some oldRecord.receiptKey, .complete, 2 * IsoTime.hour⟩] ∧
      (Machine.run (fun s a => DiscoveryAction.exec Platform.winter oneRecord "v1" s a)
        Discovery.empty (pageRead ++ [.stop, firstTick])).queue.length = 0 ∧
      (Machine.run (fun s a => DiscoveryAction.exec Platform.winter oneRecord "v1" s a)
        Discovery.empty (pageRead ++ [.stop, firstTick])).judged = [(oldRecord, true)] ∧
      (Machine.run (fun s a => DiscoveryAction.exec Platform.winter oneRecord "v1" s a)
        Discovery.empty (pageRead ++ [.stop, firstTick])).db.jobs.rows = [] := by decide
  obtain ⟨hbackfills, hqueue, hjudged, hjobs⟩ := hstate
  obtain ⟨-, hrest⟩ := h _ (Table.mem_rows.1 (hbackfills ▸ List.mem_singleton_self _)) rfl rfl
  obtain ⟨j, hj, -⟩ := hrest (List.length_eq_zero_iff.1 hqueue) oldRecord (by rw [hjudged]; simp)
  rw [← Table.mem_rows, hjobs] at hj
  cases hj

end Xauusd.Scheduler
