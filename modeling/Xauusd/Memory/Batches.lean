/-
  The batches of the requests on memory, statement by statement
  (`assistant-memory.ts`, `0010_assistant_memory_compaction.sql`).

  A batch returns the store after it, none when a trigger or a constraint aborts
  it.  A guard that fails leaves its statement without rows, and the batch goes
  on.

  * `Schedule`, `Completion`, `Release`: what a batch is sent with;
  * `Store.insertJob`, `Store.insertSummary`, `Store.insertPin`,
    `Store.advance`: the statements that triggers watch;
  * `Store.scheduleCompaction`, `Store.claimJob`, `Store.completeJob`,
    `Store.releaseJob`: the batches;
  * `Batch`, `exec`.
-/
import Xauusd.Memory.Store

namespace Xauusd.Memory

/-! ## Updates -/

def Conversation.request (jobId : String) (requestVersion : ℕ) (c : Conversation) : Conversation :=
  { c with pendingCompactionJobId := some jobId, compactionRequestVersion := requestVersion }

def Conversation.clear (c : Conversation) : Conversation := { c with pendingCompactionJobId := none }

def Conversation.summarize (version : ℕ) (c : Conversation) : Conversation :=
  { c with summaryVersion := version, pendingCompactionJobId := none }

theorem Conversation.request_id (jobId : String) (requestVersion : ℕ) (c : Conversation) :
    (c.request jobId requestVersion).id = c.id := rfl

theorem Conversation.clear_id (c : Conversation) : c.clear.id = c.id := rfl

theorem Conversation.summarize_id (version : ℕ) (c : Conversation) : (c.summarize version).id = c.id := rfl

/-- A job leaves its lease. -/
def Job.become (phase : Phase) (availableAt : Option ℤ) (failureCode : Option String) (j : Job) : Job :=
  { j with phase := phase, availableAt := availableAt.getD j.availableAt, failureCode := failureCode }

def Job.claimed (lease : Lease) (j : Job) : Job :=
  { j with phase := .processing lease, attemptCount := j.attemptCount + 1, failureCode := none }

theorem Job.become_key (phase : Phase) (availableAt : Option ℤ) (failureCode : Option String) (j : Job) :
    (j.become phase availableAt failureCode).key = j.key := rfl

theorem Job.claimed_key (lease : Lease) (j : Job) : (j.claimed lease).key = j.key := rfl

namespace Store

def updateConversations (s : Store) (p : Conversation → Bool) (f : Conversation → Conversation)
    (hf : ∀ c, (f c).id = c.id) : Store :=
  { s with conversations := s.conversations.update p f hf }

def updateJobs (s : Store) (p : Job → Bool) (f : Job → Job) (hf : ∀ j, (f j).key = j.key) : Store :=
  { s with jobs := s.jobs.update p f hf }

end Store

/-! ## Scheduling -/

structure Schedule where
  jobId : String
  conversationId : String
  summaryVersion : ℕ
  priorRequestVersion : ℕ
  sourceMessageIds : List String
  pinnedSnapshot : List SnapshotPin
  contextProfileId : String
  capacityState : CapacityState
  estimatedContextTokens : ℕ
  now : ℤ

namespace Schedule

def requestVersion (b : Schedule) : ℕ := b.priorRequestVersion + 1

def job (b : Schedule) : Job where
  id := b.jobId
  conversationId := b.conversationId
  inputVersion := b.requestVersion
  priorSummaryVersion := b.summaryVersion
  outputSummaryVersion := b.summaryVersion + 1
  sourceMessageIds := b.sourceMessageIds
  pinnedSnapshot := b.pinnedSnapshot
  contextProfileId := b.contextProfileId
  capacityState := b.capacityState
  estimatedContextTokens := b.estimatedContextTokens
  maxAttempts := compactionMaxAttempts
  promptVersion := ASSISTANT_COMPACTION_PROMPT_VERSION
  createdAt := b.now
  phase := .pending
  availableAt := b.now
  attemptCount := 0
  failureCode := none

/-- The conversation is as it was read, and has no job. -/
def opens (b : Schedule) (c : Conversation) : Bool :=
  c.id = b.conversationId && c.summaryVersion = b.summaryVersion &&
    c.compactionRequestVersion = b.priorRequestVersion && c.pendingCompactionJobId = none

/-- The conversation has requested the job. -/
def requested (b : Schedule) (c : Conversation) : Bool :=
  c.id = b.conversationId && c.summaryVersion = b.summaryVersion && c.compactionRequestVersion = b.requestVersion &&
    c.pendingCompactionJobId = some b.jobId

end Schedule

namespace Store

/-- The active jobs, and those of an owner. -/
def activeJobs (s : Store) : ℕ := s.jobs.rows.countP (·.phase.active)

def activeJobsOf (s : Store) (ownerId : String) : ℕ :=
  s.jobs.rows.countP fun j => j.phase.active &&
    s.conversations.rows.any fun c => c.id = j.conversationId && c.ownerId = ownerId

/-- `INSERT INTO assistant_compaction_jobs`: the sources are messages of the
    conversation, and its input versions are unique. -/
def insertJob (s : Store) (j : Job) : Option Store :=
  if j.sourceMessageIds ≠ [] ∧ 0 < j.estimatedContextTokens ∧
      (∀ id ∈ j.sourceMessageIds, ∃ m ∈ s.messages.rows, m.id = id ∧ m.conversationId = j.conversationId) ∧
      ∀ j' ∈ s.jobs.rows, ¬ (j'.conversationId = j.conversationId ∧ j'.inputVersion = j.inputVersion) then
    (s.jobs.insertAll [j]).map fun jobs => { s with jobs := jobs }
  else none

/-- The batch of `scheduleAssistantCompaction`. -/
def scheduleCompaction (s : Store) (b : Schedule) : Option Store := do
  let s₁ := s.updateConversations b.opens (Conversation.request b.jobId b.requestVersion)
    (Conversation.request_id b.jobId b.requestVersion)
  let admitted := s₁.conversations.rows.any fun c => b.requested c &&
    decide (s₁.activeJobs < activeCompactionsGlobal) && decide (s₁.activeJobsOf c.ownerId < activeCompactionsPerOwner)
  let s₂ ← if admitted then s₁.insertJob b.job else some s₁
  return if s₂.jobs.rows.any fun j => j.id = b.jobId then s₂
    else s₂.updateConversations (fun c => c.id = b.conversationId && c.pendingCompactionJobId = some b.jobId)
      Conversation.clear Conversation.clear_id

end Store

/-! ## Claiming -/

/-- `status='PROCESSING' AND lease_expires_at<=?` -/
def Job.lapsed (now : ℤ) (j : Job) : Bool :=
  match j.phase with
  | .processing l => decide (l.expiresAt ≤ now)
  | _ => false

/-- Its attempts are used up. -/
def Job.spent (j : Job) : Bool := decide (j.maxAttempts ≤ j.attemptCount)

/-- `ORDER BY created_at,id` -/
def Job.notAfter (j j' : Job) : Bool := decide (toLex (j.createdAt, j.id) ≤ toLex (j'.createdAt, j'.id))

namespace Store

/-- The first three statements of `claimAssistantCompactionJob`: lapsed leases
    fail, or are given back. -/
def recoverJobs (s : Store) (now : ℤ) : Store :=
  ((s.updateConversations
      (fun c => c.pendingCompactionJobId.any fun id => s.jobs.rows.any fun j => j.id = id && j.lapsed now && j.spent)
      Conversation.clear Conversation.clear_id).updateJobs (fun j => j.lapsed now && j.spent)
      (Job.become (.failed now) none (some "LEASE_EXPIRED"))
      (Job.become_key (.failed now) none (some "LEASE_EXPIRED"))).updateJobs (fun j => j.lapsed now && !j.spent)
      (Job.become .pending (some now) (some "LEASE_EXPIRED")) (Job.become_key .pending (some now) (some "LEASE_EXPIRED"))

/-- The batch of `claimAssistantCompactionJob`. -/
def claimJob (s : Store) (workerId leaseToken : String) (now : ℤ) : Store :=
  let recovered := s.recoverJobs now
  let lease : Lease := ⟨workerId, leaseToken, now + compactionLease⟩
  match Table.firstBy Job.notAfter
      (recovered.jobs.rows.filter fun j => j.phase = .pending && decide (j.availableAt ≤ now)) with
  | none => recovered
  | some j =>
    { recovered.updateJobs (fun j' => j'.id = j.id) (Job.claimed lease) (Job.claimed_key lease) with
      claims := (leaseToken, j.claimed lease) :: recovered.claims }

end Store

/-! ## Completing -/

structure Completion where
  id : String
  leaseToken : String
  conversationId : String
  priorSummaryVersion : ℕ
  outputSummaryVersion : ℕ
  modelVersion : String
  summaryId : String
  priorSummaryId : Option String
  coveredThroughCreatedAt : ℤ
  content : String
  anchors : SummaryAnchors
  estimatedTokens : ℕ
  contextProfileId : String
  promptVersion : String
  /-- the new entries, each with the id it draws -/
  pins : List (String × PinInput)
  now : ℤ

namespace Completion

/-- The job after the first statement: `status='COMPLETED' AND completed_at=? AND
    model_version=?` -/
def done (b : Completion) (j : Job) : Bool := j.id = b.id && j.phase = .completed b.modelVersion b.now

def summary (b : Completion) (j : Job) : Summary where
  id := b.summaryId
  conversationId := j.conversationId
  version := j.outputSummaryVersion
  priorSummaryId := b.priorSummaryId
  sourceJobId := j.id
  firstSourceMessageId := j.sourceMessageIds.headD ""
  coveredThroughMessageId := j.sourceMessageIds.getLastD ""
  coveredThroughCreatedAt := b.coveredThroughCreatedAt
  sourceMessageCount := j.sourceMessageIds.length
  content := b.content
  anchors := b.anchors
  estimatedTokens := b.estimatedTokens
  contextProfileId := b.contextProfileId
  promptVersion := b.promptVersion
  modelVersion := b.modelVersion
  createdAt := b.now

/-- The rows of the new entries. -/
def entries (b : Completion) (j : Job) : List PinnedEntry :=
  b.pins.mapIdx fun index pin =>
    { toPinInput := pin.2, id := pin.1, conversationId := j.conversationId
      idempotencyKey := "compaction:" ++ b.id ++ ":" ++ toString index, createdBy := .compaction
      sourceJobId := some j.id, createdAt := b.now }

end Completion

namespace Store

/-- `INSERT INTO assistant_summaries`: the summary is the next one of its
    conversation, of the completed job that this is waiting for. -/
def insertSummary (s : Store) (x : Summary) : Option Store :=
  if 0 < x.version ∧ 0 < x.sourceMessageCount ∧ 0 < x.estimatedTokens ∧ Text.trimBlanks x.content ≠ "" ∧
      (∀ x' ∈ s.summaries.rows, x'.sourceJobId ≠ x.sourceJobId ∧
        ¬ (x'.conversationId = x.conversationId ∧ x'.version = x.version)) ∧
      ∃ j ∈ s.jobs.rows, ∃ c ∈ s.conversations.rows, j.id = x.sourceJobId ∧ j.conversationId = x.conversationId ∧
        c.id = j.conversationId ∧ j.phase.isCompleted = true ∧
        j.priorSummaryVersion = c.summaryVersion ∧ j.outputSummaryVersion = x.version ∧
        c.pendingCompactionJobId = some j.id ∧ x.version = c.summaryVersion + 1 then
    (s.summaries.insertAll [x]).map fun summaries => { s with summaries := summaries }
  else none

/-- `assistant_pinned_entries_require_origins`, and the CHECKs of the table -/
def validPin (s : Store) (p : PinnedEntry) : Bool :=
  decide (Text.trimBlanks p.content ≠ "") && decide (p.originMessageIds ≠ []) &&
    (p.originMessageIds.all fun id => s.messages.rows.any fun m => m.id = id && m.conversationId = p.conversationId) &&
    (p.createdBy ≠ .compaction || s.jobs.rows.any fun j => some j.id = p.sourceJobId &&
      j.conversationId = p.conversationId && j.phase.isCompleted)

/-- Some row of the conversation has the key. -/
def pinTaken (s : Store) (p : PinnedEntry) : Bool :=
  s.pins.rows.any fun p' => p'.conversationId = p.conversationId && p'.idempotencyKey = p.idempotencyKey

/-- `INSERT INTO assistant_pinned_entries` -/
def insertPin (s : Store) (p : PinnedEntry) : Option Store :=
  if s.validPin p = true ∧ s.pinTaken p = false then
    (s.pins.insertAll [p]).map fun pins => { s with pins := pins }
  else none

def insertPins (s : Store) : List PinnedEntry → Option Store
  | [] => some s
  | p :: ps => (s.insertPin p).bind fun s => s.insertPins ps

/-- `UPDATE assistant_conversations SET summary_version=?`: the next version, and
    its summary is of the job that the conversation waits for. -/
def advance (s : Store) (b : Completion) : Option Store :=
  let selected : Conversation → Bool := fun c => c.id = b.conversationId && c.summaryVersion = b.priorSummaryVersion &&
    c.pendingCompactionJobId = some b.id
  if ∀ c ∈ s.conversations.rows, selected c = true → b.outputSummaryVersion = c.summaryVersion ∨
      b.outputSummaryVersion = c.summaryVersion + 1 ∧ ∃ x ∈ s.summaries.rows, x.conversationId = c.id ∧
        x.version = b.outputSummaryVersion ∧ some x.sourceJobId = c.pendingCompactionJobId then
    some (s.updateConversations selected (Conversation.summarize b.outputSummaryVersion)
      (Conversation.summarize_id b.outputSummaryVersion))
  else none

/-- The batch of `completeAssistantCompactionJob`. -/
def completeJob (s : Store) (b : Completion) : Option Store := do
  let s₁ := s.updateJobs (fun j => j.id = b.id && j.heldBy b.leaseToken b.now)
    (Job.become (.completed b.modelVersion b.now) none none) (Job.become_key (.completed b.modelVersion b.now) none none)
  let s₃ ← match s₁.jobs.rows.find? b.done with
    | none => some s₁
    | some j => (s₁.insertSummary (b.summary j)).bind fun s₂ => s₂.insertPins (b.entries j)
  s₃.advance b

end Store

/-! ## Failing and deferring -/

structure Release where
  id : String
  leaseToken : String
  terminal : Bool
  availableAt : ℤ
  failureCode : String
  now : ℤ

/-- The batch of `failAssistantCompactionJob` and of
    `deferAssistantCompactionJob`. -/
def Store.releaseJob (s : Store) (b : Release) : Store :=
  let phase : Phase := if b.terminal then .failed b.now else .pending
  (s.updateJobs (fun j => j.id = b.id && j.heldBy b.leaseToken b.now)
    (Job.become phase (some b.availableAt) (some b.failureCode))
    (Job.become_key phase (some b.availableAt) (some b.failureCode))).updateConversations
      (fun c => c.pendingCompactionJobId = some b.id && b.terminal) Conversation.clear Conversation.clear_id

/-! ## The batches -/

/-- `INSERT … ON CONFLICT(conversation_id,idempotency_key) DO NOTHING` -/
def Store.createPin (s : Store) (p : PinnedEntry) : Option Store :=
  if !s.validPin p then none
  else if s.pinTaken p then some s
  else (s.pins.insertAll [p]).map fun pins => { s with pins := pins }

inductive Batch where
  /-- a conversation begins -/
  | converse (id ownerId : String)
  /-- a user or the assistant says something -/
  | say (m : Message)
  | pin (p : PinnedEntry)
  | schedule (b : Schedule)
  | claim (workerId leaseToken : String) (now : ℤ)
  | complete (b : Completion)
  | release (b : Release)

def exec : Batch → Store → Option Store
  | .converse id ownerId, s =>
    (s.conversations.insertAll [⟨id, ownerId, 0, none, 0⟩]).map fun conversations => { s with conversations := conversations }
  | .say m, s =>
    if s.conversations.rows.any fun c => c.id = m.conversationId then
      (s.messages.insertAll [m]).map fun messages => { s with messages := messages }
    else none
  | .pin p, s => s.createPin p
  | .schedule b, s => s.scheduleCompaction b
  | .claim workerId leaseToken now, s => some (s.claimJob workerId leaseToken now)
  | .complete b, s => s.completeJob b
  | .release b, s => some (s.releaseJob b)

end Xauusd.Memory
