/-
  The retry mirror (`web/app/api/_shared/operator-retry.ts`): the copy of the
  local retry list that the Worker keeps for the operator.

  * `normalizeRetryItem` is one item as the Worker stores it, its times passed
    through `Date.parse` and `toISOString`;
  * `syncOperatorRetryJobs` moves the table towards a list, at most 32 rows at a
    time, and answers whether it got there.

  An instant of the Worker's clock is in microseconds, as those of the
  scheduler; the texts that cross between the two are texts.
-/
import Xauusd.Scheduler.Override

namespace Xauusd.Operator

open Scheduler (RetryMode RETRY_OVERRIDE_MODES RetryJobSnapshot ofText?)

/-! ## Platform -/

/-- `OperatorRetryInputError(code, message)`, or a constraint of the database. -/
inductive WebError where
  | input (code message : String)
  | constraint
  deriving DecidableEq, Repr

abbrev Answer (α : Type) := Except WebError α

theorem Answer.bind_eq_ok {α β : Type} {x : Answer α} {f : α → Answer β} {b : β} :
    x.bind f = .ok b ↔ ∃ a, x = .ok a ∧ f a = .ok b := by
  cases x <;> simp [Except.bind]

theorem Answer.mem_of_mapM {α β : Type} {f : α → Answer β} {l : List α} {bs : List β}
    (h : l.mapM f = .ok bs) : ∀ b ∈ bs, ∃ a ∈ l, f a = .ok b := by
  induction l generalizing bs with
  | nil =>
    obtain rfl := Except.ok.inj h
    simp
  | cons a l ih =>
    simp only [List.mapM_cons, bind, Answer.bind_eq_ok] at h
    obtain ⟨b₀, hb₀, bs₀, hbs₀, h⟩ := h
    obtain rfl := Except.ok.inj h
    intro b hb
    rcases List.mem_cons.1 hb with rfl | hb
    · exact ⟨a, List.mem_cons_self, hb₀⟩
    · obtain ⟨a', ha', h'⟩ := ih hbs₀ b hb
      exact ⟨a', List.mem_cons_of_mem _ ha', h'⟩

theorem Answer.mapM_eq_ok {α β : Type} {f : α → Answer β} {g : α → β} {l : List α}
    (h : ∀ a ∈ l, f a = .ok (g a)) : l.mapM f = .ok (l.map g) := by
  induction l with
  | nil => rfl
  | cons a l ih =>
    rw [List.mapM_cons, h a List.mem_cons_self, ih fun b hb => h b (List.mem_cons_of_mem _ hb)]
    rfl

/-- The normalized item of the mirror, as its JSON object. -/
structure RetryItem where
  jobId : String
  taskType : String
  title : String
  state : String
  priority : String
  availableAt : String
  attemptCount : ℕ
  lastError : Option String
  lastFailureAt : Option String
  leaseExpiresAt : Option String
  overrideMode : Option String
  overrideRequestedAt : Option String
  originalAvailableAt : String
  deriving DecidableEq, Repr

/-- Functions of the Worker's runtime. -/
structure Web where
  /-- `Date.parse`, the instant of a text, in whole milliseconds; none for `NaN` -/
  dateParse : String → Option ℤ
  /-- `digest(value)` -/
  digest : String → String
  /-- `digest(JSON.stringify(items))` -/
  payloadDigest : List RetryItem → String

def OPERATOR_RETRY_SYNC_MUTATIONS_PER_INVOCATION : ℕ := 32

/-! ## Normalization -/

/-- An item of a `SYNC_JOBS` payload; a member that is missing or null is none,
    and so is an `attempt_count` that is not a safe integer. -/
structure RawRetryItem where
  jobId : Option String
  taskType : Option String
  title : Option String
  state : Option String
  priority : Option String
  availableAt : Option String
  attemptCount : Option ℤ
  lastError : Option String
  lastFailureAt : Option String
  leaseExpiresAt : Option String
  overrideMode : Option String
  overrideRequestedAt : Option String
  originalAvailableAt : Option String
  deriving DecidableEq, Repr

/-- `isoTime(value, field)` -/
def isoTime (W : Web) (value : Option String) (field : String) : Answer String :=
  let text := Text.jsTrim (value.getD "")
  match W.dateParse text with
  | some epoch =>
    if text = "" then .error (.input "INVALID_TIME" (field ++ " 时间无效"))
    else .ok (IsoTime.isoMillis epoch)
  | none => .error (.input "INVALID_TIME" (field ++ " 时间无效"))

def boundedText (value : Option String) (field : String) (limit : ℕ) : Answer String :=
  let text := Text.jsTrim (value.getD "")
  if text = "" ∨ limit < Text.utf16Length text then
    .error (.input "INVALID_SYNC" (field ++ " is invalid"))
  else .ok text

def nullableText (value : Option String) (field : String) (limit : ℕ) : Answer (Option String) :=
  match value.filter (· ≠ "") with
  | none => .ok none
  | some text => (boundedText (some text) field limit).map some

def nullableTime (W : Web) (value : Option String) (field : String) : Answer (Option String) :=
  match value.filter (· ≠ "") with
  | none => .ok none
  | some text => (isoTime W (some text) field).map some

/-- One item of the payload, as it is stored. -/
def normalizeRetryItem (W : Web) (item : RawRetryItem) : Answer RetryItem := do
  let jobId := Text.lower (Text.jsTrim (item.jobId.getD ""))
  let some attemptCount := item.attemptCount
    | throw (.input "INVALID_SYNC" "retry mirror job identity is invalid")
  if !Text.isSha256Hex jobId ∨ attemptCount < 0 then
    throw (.input "INVALID_SYNC" "retry mirror job identity is invalid")
  let overrideMode ← nullableText item.overrideMode "override_mode" 32
  if overrideMode.any fun mode => (ofText? RetryMode.text RETRY_OVERRIDE_MODES mode).isNone then
    throw (.input "INVALID_SYNC" "override_mode is invalid")
  return {
    jobId := jobId
    taskType := ← boundedText item.taskType "task_type" 100
    title := ← boundedText item.title "title" 500
    state := ← boundedText item.state "state" 32
    priority := ← boundedText item.priority "priority" 32
    availableAt := ← isoTime W item.availableAt "available_at"
    attemptCount := attemptCount.toNat
    lastError := ← nullableText item.lastError "last_error" 4000
    lastFailureAt := ← nullableTime W item.lastFailureAt "last_failure_at"
    leaseExpiresAt := ← nullableTime W item.leaseExpiresAt "lease_expires_at"
    overrideMode := overrideMode
    overrideRequestedAt := ← nullableTime W item.overrideRequestedAt "override_requested_at"
    originalAvailableAt := ← isoTime W item.originalAvailableAt "original_available_at" }

/-- The payload of a call: its items normalized and sorted, no two of one job. -/
def normalizeRetryItems (W : Web) (items : List RawRetryItem) : Answer (List RetryItem) := do
  if 500 < items.length then throw (.input "INVALID_SYNC" "retry mirror is too large")
  let normalized ← items.mapM (normalizeRetryItem W)
  if ¬ (normalized.map (·.jobId)).Nodup then
    throw (.input "INVALID_SYNC" "retry mirror contains duplicate jobs")
  return normalized.insertionSort fun a b => a.jobId ≤ b.jobId

/-- A snapshot of the local list, as the bridge posts it. -/
def rawItem (s : RetryJobSnapshot) : RawRetryItem where
  jobId := some s.jobId
  taskType := some s.taskType.text
  title := some s.title
  state := some s.state.text
  priority := some s.priority.text
  availableAt := some s.availableAt
  attemptCount := some s.attemptCount
  lastError := s.lastError
  lastFailureAt := s.lastFailureAt
  leaseExpiresAt := s.leaseExpiresAt
  overrideMode := s.overrideMode.map RetryMode.text
  overrideRequestedAt := s.overrideRequestedAt
  originalAvailableAt := some s.originalAvailableAt

/-! ## The table -/

/-- A row of `operator_retry_jobs`. -/
structure MirrorJob where
  item : RetryItem
  syncedAt : ℤ
  syncGeneration : String
  deriving DecidableEq, Repr

def MirrorJob.jobId (r : MirrorJob) : String := r.item.jobId

/-- The row of `operator_retry_sync_state`. -/
structure SyncState where
  payloadDigest : String
  itemCount : ℕ
  syncedAt : ℤ
  deriving DecidableEq, Repr

structure Mirror where
  jobs : Table MirrorJob.jobId
  syncState : Option SyncState

def Mirror.empty : Mirror := ⟨.empty, none⟩

/-- The table holds the item. -/
def Mirror.holds (m : Mirror) (item : RetryItem) : Bool :=
  (m.jobs.find? item.jobId).map (·.item) = some item

/-- The items of the payload whose row is missing or differs. -/
def Mirror.changed (m : Mirror) (incoming : List RetryItem) : List RetryItem :=
  incoming.filter fun item => !m.holds item

/-- The rows whose job the payload lacks. -/
def Mirror.extra (m : Mirror) (incoming : List RetryItem) : List MirrorJob :=
  m.jobs.rows.filter fun r => r.jobId ∉ incoming.map (·.jobId)

/-- The row `new` in place of `r`. -/
def MirrorJob.replacedBy (new r : MirrorJob) : MirrorJob :=
  { new with item := { new.item with jobId := r.item.jobId } }

theorem MirrorJob.replacedBy_jobId (new r : MirrorJob) : (new.replacedBy r).jobId = r.jobId := rfl

/-- The first statement: at most 32 changed items are written. -/
def Mirror.upsertChanged (m : Mirror) (incoming : List RetryItem) (syncedAt : ℤ)
    (generation : String) : Mirror :=
  { m with
    jobs := ((m.changed incoming).take OPERATOR_RETRY_SYNC_MUTATIONS_PER_INVOCATION).foldl
      (fun jobs item => jobs.upsert ⟨item, syncedAt, generation⟩
        (MirrorJob.replacedBy ⟨item, syncedAt, generation⟩) (MirrorJob.replacedBy_jobId _)) m.jobs }

/-- The jobs that the second statement deletes: when no item is pending, at most
    32 extra ones. -/
def Mirror.obsolete (m : Mirror) (incoming : List RetryItem) : List String :=
  if m.changed incoming = [] then
    (((m.extra incoming).map (·.jobId)).insertionSort (· ≤ ·)).take
      OPERATOR_RETRY_SYNC_MUTATIONS_PER_INVOCATION
  else []

def Mirror.deleteObsolete (m : Mirror) (incoming : List RetryItem) : Mirror :=
  { m with jobs := m.jobs.delete fun r => r.jobId ∈ m.obsolete incoming }

/-- The condition of the third statement. -/
def Mirror.settled (m : Mirror) (incoming : List RetryItem) : Bool :=
  incoming.all m.holds && m.jobs.rows.length = incoming.length

structure SyncReply where
  count : ℕ
  accepted : ℕ
  written : ℕ
  deleted : ℕ
  unchanged : Bool
  complete : Bool
  syncedAt : Option ℤ
  deriving DecidableEq, Repr

/-- The shortcut: the list is the one completed last. -/
def Mirror.remembers (W : Web) (m : Mirror) (incoming : List RetryItem) : Bool :=
  m.syncState.any fun s => s.payloadDigest = W.payloadDigest incoming && s.itemCount = incoming.length

/-- One batch. -/
def Mirror.batch (W : Web) (m : Mirror) (incoming : List RetryItem) (now : ℤ) (generation : String) :
    SyncReply × Mirror :=
  let written := m.upsertChanged incoming now generation
  let deleted := written.deleteObsolete incoming
  let complete := deleted.settled incoming
  ( { count := incoming.length
      accepted := incoming.length
      written := ((m.changed incoming).take OPERATOR_RETRY_SYNC_MUTATIONS_PER_INVOCATION).length
      deleted := (written.obsolete incoming).length
      unchanged := false
      complete := complete
      syncedAt := if complete then some now else none },
    if complete then
      { deleted with syncState := some ⟨W.payloadDigest incoming, incoming.length, now⟩ }
    else deleted )

/-- `syncOperatorRetryJobs`; `generation` is its `randomUUID`. -/
def syncOperatorRetryJobs (W : Web) (items : List RawRetryItem) (now : ℤ) (generation : String)
    (m : Mirror) : Answer SyncReply × Mirror :=
  match normalizeRetryItems W items with
  | .error e => (.error e, m)
  | .ok incoming =>
    if m.remembers W incoming then
      (.ok { count := incoming.length
             accepted := incoming.length
             written := 0
             deleted := 0
             unchanged := true
             complete := true
             syncedAt := m.syncState.map (·.syncedAt) }, m)
    else
      let (reply, m') := m.batch W incoming now generation
      (.ok reply, m')

end Xauusd.Operator
