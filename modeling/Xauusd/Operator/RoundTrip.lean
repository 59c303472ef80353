/-
  The round trip of an operator's request.

  The expected availability of a request travels from the local list through
  the mirror and back.  On the way the Worker reads it with `Date.parse` and
  writes it with `toISOString`, whose texts end in `Z`; the scheduler writes
  `+00:00`, and compares texts.

  * `Cloud.Rewritten`: every time in the Worker's database is a text of
    `toISOString`; every call keeps it (`exec_rewritten`);
  * `applyRetryOverride_refused`: such a request is never applied;
  * `round_trip_never_takes_effect`: the composed path.
-/
import Xauusd.Lib.Machine
import Xauusd.Operator.Bridge
import Xauusd.Operator.MirrorSync

namespace Xauusd.Operator

open Scheduler (Db Job OverrideRequest applyRetryScheduleOverride listRetryScheduleJobs
  effectiveAvailableAt)

variable {W : Web} {R : Runtimes} {c : Cloud} {m : Mirror}

/-! ## Times in the Worker's database -/

/-- A text of `toISOString`. -/
def ByJavaScript (text : String) : Prop := ∃ t, text = IsoTime.isoMillis t

def Mirror.Rewritten (m : Mirror) : Prop := ∀ r ∈ m.jobs, ByJavaScript r.item.availableAt

/-- The availability texts of the database are texts of `toISOString`. -/
structure Cloud.Rewritten (c : Cloud) : Prop where
  mirror : c.mirror.Rewritten
  requests : ∀ r ∈ c.requests, ByJavaScript r.expectedAvailableAt

theorem isoTime_rewritten {value : Option String} {field text : String}
    (h : isoTime W value field = .ok text) : ByJavaScript text := by
  unfold isoTime at h
  dsimp only at h
  split at h
  · next epoch _ =>
    split at h
    · cases h
    · exact ⟨epoch, (Except.ok.inj h).symm⟩
  · cases h

theorem normalizeRetryItem_rewritten {raw : RawRetryItem} {item : RetryItem}
    (h : normalizeRetryItem W raw = .ok item) : ByJavaScript item.availableAt := by
  simp only [normalizeRetryItem, bind, pure, Except.pure, throw, throwThe, MonadExceptOf.throw] at h
  split at h
  · split at h
    · cases h
    · simp only [Answer.bind_eq_ok] at h
      obtain ⟨overrideMode, -, h⟩ := h
      split at h
      · cases h
      · simp only [Answer.bind_eq_ok] at h
        obtain ⟨_, -, _, -, _, -, _, -, _, htime, _, -, _, -, _, -, _, -, _, -, h⟩ := h
        obtain rfl := Except.ok.inj h
        exact isoTime_rewritten htime
  · cases h

theorem normalizeRetryItems_rewritten {items : List RawRetryItem} {incoming : List RetryItem}
    (h : normalizeRetryItems W items = .ok incoming) :
    ∀ item ∈ incoming, ByJavaScript item.availableAt := by
  simp only [normalizeRetryItems, bind, pure, Except.pure, throw, throwThe,
    MonadExceptOf.throw] at h
  split at h
  · cases h
  · simp only [Answer.bind_eq_ok] at h
    obtain ⟨normalized, hmap, h⟩ := h
    split at h
    · cases h
    · obtain rfl := Except.ok.inj h
      intro item hitem
      obtain ⟨raw, -, hraw⟩ := Answer.mem_of_mapM hmap item ((List.mem_insertionSort _).1 hitem)
      exact normalizeRetryItem_rewritten hraw

/-! ## The calls -/

theorem Mirror.upsertChanged_rewritten {incoming : List RetryItem} (hm : m.Rewritten)
    (hitems : ∀ item ∈ incoming, ByJavaScript item.availableAt) (now : ℤ) (generation : String) :
    (m.upsertChanged incoming now generation).Rewritten := by
  have hfold (items : List RetryItem) (hsub : ∀ item ∈ items, ByJavaScript item.availableAt)
      (jobs : Table MirrorJob.jobId) (hjobs : ∀ r ∈ jobs, ByJavaScript r.item.availableAt) :
      ∀ r ∈ items.foldl (fun jobs item => jobs.upsert ⟨item, now, generation⟩
        (MirrorJob.replacedBy ⟨item, now, generation⟩) (MirrorJob.replacedBy_jobId _)) jobs,
        ByJavaScript r.item.availableAt := by
    induction items generalizing jobs with
    | nil => exact hjobs
    | cons item items ih =>
      have hitem := hsub item List.mem_cons_self
      exact ih (fun i hi => hsub i (List.mem_cons_of_mem _ hi)) _
        (Table.forall_upsert hjobs hitem fun _ _ _ _ => hitem)
  exact hfold _ (fun item hitem => hitems item (List.mem_of_mem_filter (List.mem_of_mem_take hitem)))
    m.jobs hm

theorem syncOperatorRetryJobs_rewritten (items : List RawRetryItem) (now : ℤ) (generation : String)
    (hm : m.Rewritten) : (syncOperatorRetryJobs W items now generation m).2.Rewritten := by
  unfold syncOperatorRetryJobs
  split
  · exact hm
  · next incoming hnormal =>
    split
    · exact hm
    · have hwritten := Mirror.upsertChanged_rewritten hm (normalizeRetryItems_rewritten hnormal) now
        generation
      intro r hr
      refine hwritten r (Table.mem_delete (p := fun r => r.jobId ∈
        (m.upsertChanged incoming now generation).obsolete incoming) |>.1 ?_).1
      unfold Mirror.batch at hr
      dsimp only at hr
      split at hr
      · exact hr
      · exact hr

theorem createRequest_rewritten (s : Submission) (jobId : String) (hc : c.Rewritten) :
    (createRequest W s jobId c).2.Rewritten := by
  unfold createRequest
  split
  · exact hc
  · next job hjob =>
    dsimp only
    split
    · split <;> exact hc
    · split
      · exact hc
      · exact ⟨hc.mirror, Table.forall_insertIgnore hc.requests
          (hc.mirror job (Table.find?_eq_some_iff.1 hjob).1)⟩

theorem createRequests_rewritten (s : Submission) (jobIds : List String) (hc : c.Rewritten) :
    (createRequests W s jobIds c).2.Rewritten := by
  induction jobIds generalizing c with
  | nil => exact hc
  | cons jobId jobIds ih =>
    have hfirst := createRequest_rewritten (W := W) s jobId hc
    unfold createRequests
    split
    · next h => rwa [h] at hfirst
    · next h =>
      rw [h] at hfirst
      exact ih hfirst

/-- **Every call leaves texts of `toISOString`.** -/
theorem exec_rewritten (call : CloudCall) (hc : c.Rewritten) : (call.exec W c).2.Rewritten := by
  cases call with
  | sync items now generation =>
    exact ⟨syncOperatorRetryJobs_rewritten items now generation hc.mirror, hc.requests⟩
  | submit s =>
    simp only [CloudCall.exec, createOperatorRetryRequests]
    split
    · exact hc
    · split
      · exact hc
      · exact createRequests_rewritten s s.ids hc
  | claim workerId now =>
    simp only [CloudCall.exec, claimOperatorRetryRequest]
    split
    · exact ⟨hc.mirror, hc.requests⟩
    · next r _ =>
      exact ⟨hc.mirror, Table.forall_update (f := (·.leased workerId c.drawn now)) (fun _ => rfl)
        hc.requests fun _ _ _ h => h⟩
  | finish requestId token status now =>
    simp only [CloudCall.exec, finishOperatorRetryRequest]
    split
    · exact hc
    · next result _ =>
      exact ⟨hc.mirror, Table.forall_update (f := (·.finished result now)) (fun _ => rfl)
        hc.requests fun _ _ _ h => h⟩

theorem run_rewritten (calls : List CloudCall) (hc : c.Rewritten) :
    (Machine.run (fun c call => CloudCall.exec W c call) c calls).Rewritten :=
  Machine.run_invariant (I := Cloud.Rewritten) (C := fun _ _ => True)
    (fun _ call _ h => exec_rewritten call h) (Machine.along_of_forall (fun _ _ => trivial) _ _) hc

theorem Cloud.empty_rewritten : Cloud.empty.Rewritten :=
  ⟨fun r hr => absurd hr (Table.not_mem_empty r), fun r hr => absurd hr (Table.not_mem_empty r)⟩

/-- A claim returns a request of the table, with its expectations. -/
theorem claim_rewritten {workerId : String} {now : ℤ} {command : RetryRequest} (hc : c.Rewritten)
    (h : (claimOperatorRetryRequest workerId now c).1 = some command) :
    ByJavaScript command.expectedAvailableAt := by
  unfold claimOperatorRetryRequest at h
  split at h
  · contradiction
  · next r hr =>
    obtain rfl := Option.some.inj h
    exact hc.requests r (List.mem_of_mem_filter (Table.mem_of_firstBy hr))

/-! ## Applying -/

theorem OverrideResult.ofRaised_ne_applied (e : Scheduler.Raised)
    (current : Scheduler.RetryJobSnapshot) : OverrideResult.ofRaised e ≠ .ok (.applied current) := by
  cases e <;> simp [ofRaised]

/-- The guard of the scheduler accepts no text of `toISOString`. -/
theorem applyRetryScheduleOverride_refused {r : OverrideRequest} {db db' : Db}
    {snapshot : Scheduler.RetryJobSnapshot} (hjs : ByJavaScript r.expectedAvailableAt)
    (hnew : db.overrides.find? (Text.strip r.requestId) = none) :
    applyRetryScheduleOverride r db ≠ (.ok snapshot, db') := by
  intro h
  unfold applyRetryScheduleOverride at h
  split at h
  · simp at h
  · next c hc =>
    split at h
    · simp at h
    · next happly =>
      rw [← OverrideRequest.check_requestId hc] at hnew
      rcases OverrideRequest.apply_cases happly with ⟨-, o, job, hrecorded, -⟩ |
        ⟨-, row, -, hexpects, -⟩
      · simp [Db.recordedOverride, hnew] at hrecorded
      · obtain ⟨t, ht⟩ := hjs
        exact IsoTime.iso_ne_isoMillis row.availableAt t (hexpects.2.2.trans ht)

/-- A request with such an expectation, new to the scheduler, is not applied. -/
theorem applyRetryOverride_refused {R : Runtimes} {r : RetryRequest} {now : ℤ}
    {overrideId : String} {db db' : Db} {current : Scheduler.RetryJobSnapshot}
    (hjs : ByJavaScript r.expectedAvailableAt)
    (hnew : db.overrides.find? (Text.strip r.requestId) = none) :
    applyRetryOverride R r now overrideId db ≠ (.ok (.applied current), db') := by
  intro h
  unfold applyRetryOverride at h
  split at h
  · simp at h
  · split at h
    · exact OverrideResult.ofRaised_ne_applied _ _ (Prod.mk.inj h).1
    · next custom _ =>
      split at h
      · next hok =>
        exact applyRetryScheduleOverride_refused (r := r.arguments custom now overrideId) hjs hnew hok
      · exact OverrideResult.ofRaised_ne_applied _ _ (Prod.mk.inj h).1

/-! ## The composed path -/

/-- One way around: the list of `listed` is sent to the mirror, a request on one
    of its jobs is submitted and claimed, and the claimed row is applied to
    `scheduler`.  Other calls may come before and in between. -/
structure RoundTrip where
  history : List CloudCall
  listed : Db
  syncedAt : ℤ
  generation : String
  afterSync : List CloudCall
  submission : Submission
  jobId : String
  afterSubmit : List CloudCall
  workerId : String
  claimedAt : ℤ
  scheduler : Db
  appliedAt : ℤ
  overrideId : String

namespace RoundTrip

variable (W : Web) (R : Runtimes) (t : RoundTrip)

def cloud (calls : List CloudCall) (c : Cloud) : Cloud :=
  Machine.run (fun c call => CloudCall.exec W c call) c calls

/-- The local list arrives. -/
def synced : Answer CloudReply × Cloud :=
  (CloudCall.sync ((listRetryScheduleJobs 200 t.listed).map rawItem) t.syncedAt t.generation).exec W
    (cloud W t.history .empty)

/-- The operator's request is recorded. -/
def submitted : Answer CloudReply × Cloud :=
  (CloudCall.submit t.submission).exec W (cloud W t.afterSync (t.synced W).2)

/-- A worker claims a request. -/
def claimed : Answer CloudReply × Cloud :=
  (CloudCall.claim t.workerId t.claimedAt).exec W (cloud W t.afterSubmit (t.submitted W).2)

/-- The request goes around and the job stays as it was listed. -/
structure Composed (command : RetryRequest) : Prop where
  waiting : ∃ job, t.listed.jobs.find? t.jobId = some job ∧ job.waiting = true
  listed : ∃ s ∈ listRetryScheduleJobs 200 t.listed, s.jobId = t.jobId
  complete : ∃ reply, (t.synced R.toWeb).1 = .ok (.synced reply) ∧ reply.complete = true
  reason : ∃ raw, parseOperatorRetryReason raw = .ok t.submission.reason
  time : ∃ raw, parseOperatorRetryCustomTime R.toWeb t.submission.mode raw t.submission.now =
    .ok t.submission.requestedAvailableAt
  created : ∃ results row refusal, (t.submitted R.toWeb).1 = .ok (.submitted results) ∧
    .recorded row false refusal ∈ results ∧ row.jobId = t.jobId ∧ row.requestId = command.requestId
  claimed : (t.claimed R.toWeb).1 = .ok (.item (some command))
  unwritten : t.scheduler.jobs.find? t.jobId = t.listed.jobs.find? t.jobId
  /-- the request is new to the scheduler as well -/
  unrecorded : t.scheduler.overrides.find? (Text.strip command.requestId) = none

/-- The request is applied, and its job has the time that the mode prescribes. -/
def TakesEffect (command : RetryRequest) : Prop :=
  ∃ current after before job custom,
    applyRetryOverride R command t.appliedAt t.overrideId t.scheduler =
      (.ok (.applied current), after) ∧
    t.scheduler.jobs.find? t.jobId = some before ∧ after.jobs.find? t.jobId = some job ∧
    customTime R command.requestedAvailableAt = .ok custom ∧
    job.availableAt = effectiveAvailableAt command.mode t.appliedAt
      (((t.scheduler.activeOverride t.jobId).map (·.originalAvailableAt)).getD before.availableAt)
      custom

end RoundTrip

theorem RoundTrip.cloud_rewritten {calls : List CloudCall} (hc : c.Rewritten) :
    (RoundTrip.cloud W calls c).Rewritten := run_rewritten calls hc

/-- The claimed request carries a text of `toISOString`. -/
theorem RoundTrip.claimed_rewritten {t : RoundTrip} {command : RetryRequest}
    (h : (t.claimed W).1 = .ok (.item (some command))) :
    ByJavaScript command.expectedAvailableAt := by
  have hsynced : (t.synced W).2.Rewritten := exec_rewritten _ (cloud_rewritten Cloud.empty_rewritten)
  have hsubmitted : (t.submitted W).2.Rewritten := exec_rewritten _ (cloud_rewritten hsynced)
  have hcloud : (RoundTrip.cloud W t.afterSubmit (t.submitted W).2).Rewritten :=
    cloud_rewritten hsubmitted
  simp only [claimed, CloudCall.exec, Except.ok.injEq, CloudReply.item.injEq] at h
  exact claim_rewritten hcloud h

theorem RoundTrip.not_takesEffect {R : Runtimes} {t : RoundTrip} {command : RetryRequest}
    (h : t.Composed R command) : ¬ t.TakesEffect R command := by
  rintro ⟨current, after, -, -, -, happlied, -⟩
  exact applyRetryOverride_refused (claimed_rewritten h.claimed) h.unrecorded happlied

/-! ## A job that waits after an error -/

def sampleRuntimes : Runtimes where
  toWeb := sampleWeb
  platform := .winter
  fromIsoformat _ := none

/-- A job that waits after an error. -/
def sampleJob : Job where
  jobId := sampleId 0
  taskType := .activeImpact
  source := "reuters"
  sourceItemId := "item"
  revisionNumber := 1
  annotationId := "note"
  promptVersion := "v1"
  priority := .normal
  state := .backingOff
  availableAt := 0
  leaseOwner := none
  leaseExpiresAt := none
  attemptCount := 3
  lastError := some "PROVIDER_ERROR"
  createdAt := 0
  updatedAt := 0
  completedAt := none
  workLane := .live
  laneClassified := true
  provenanceResolved := true
  provenanceVersion := none
  provenanceOriginTask := none
  provenanceOriginRef := none

def sampleDb : Db := { Db.empty with jobs := Table.empty.insertIgnore sampleJob }

/-- "Now, please", on that job. -/
def sampleSubmission : Submission where
  operatorId := "cloudflare-access:operator"
  idempotencyKey := "0123456789abcdef"
  jobIds := [sampleId 0]
  mode := .immediate
  reason := "now"
  requestedAvailableAt := none
  now := 0

def sampleTrip : RoundTrip where
  history := []
  listed := sampleDb
  syncedAt := 0
  generation := "generation"
  afterSync := []
  submission := sampleSubmission
  jobId := sampleId 0
  afterSubmit := []
  workerId := "worker"
  claimedAt := 0
  scheduler := sampleDb
  appliedAt := 0
  overrideId := "override"

/-- The job as the mirror stores it. -/
def sampleMirrored : RetryItem :=
  { sampleRow 0 with
    title := "item"
    lastError := some "PROVIDER_ERROR" }

/-- The request as it is claimed. -/
def sampleCommand : RetryRequest :=
  (sampleSubmission.request sampleWeb (sampleId 0) sampleMirrored).leased "worker" 0 0

/-- What the three requests to the Worker are answered. -/
theorem sampleTrip_answers :
    (sampleTrip.synced sampleWeb).1 = .ok (.synced ⟨1, 1, 1, 0, false, true, some 0⟩) ∧
      (sampleTrip.submitted sampleWeb).1 = .ok (.submitted [.recorded
        (sampleSubmission.request sampleWeb (sampleId 0) sampleMirrored) false none]) ∧
      (sampleTrip.claimed sampleWeb).1 = .ok (.item (some sampleCommand)) := by decide +kernel

theorem sampleTrip_composed : sampleTrip.Composed sampleRuntimes sampleCommand where
  waiting := ⟨sampleJob, rfl, rfl⟩
  listed := ⟨_, List.mem_singleton.2 rfl, rfl⟩
  complete := ⟨_, sampleTrip_answers.1, rfl⟩
  reason := ⟨some "now", by decide +kernel⟩
  time := ⟨none, rfl⟩
  created := ⟨_, _, none, sampleTrip_answers.2.1, List.mem_singleton.2 rfl, rfl, rfl⟩
  claimed := sampleTrip_answers.2.2
  unwritten := rfl
  unrecorded := rfl

/-- The operator's "now" is refused although nothing changed. -/
theorem sampleTrip_no_effect :
    ¬ ∀ (t : RoundTrip) (command : RetryRequest),
      t.Composed sampleRuntimes command → t.TakesEffect sampleRuntimes command :=
  fun h => RoundTrip.not_takesEffect sampleTrip_composed (h _ _ sampleTrip_composed)

/-- **No request ever takes effect** on its way from the mirror. -/
theorem round_trip_never_takes_effect (R : Runtimes) (t : RoundTrip) (command : RetryRequest)
    (h : t.Composed R command) : ¬ t.TakesEffect R command := RoundTrip.not_takesEffect h

theorem round_trip_never_takes_effect_sample :
    sampleTrip.Composed sampleRuntimes sampleCommand ∧
      ¬ sampleTrip.TakesEffect sampleRuntimes sampleCommand :=
  ⟨sampleTrip_composed, round_trip_never_takes_effect _ _ _ sampleTrip_composed⟩

end Xauusd.Operator
