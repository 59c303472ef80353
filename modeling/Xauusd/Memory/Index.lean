/-
  The index of past messages, its tables and its batches
  (`app/api/_shared/assistant-memory-index.ts`,
  `0015_assistant_historical_memory.sql`, `0018_assistant_hybrid_memory.sql`,
  `0019_assistant_memory_generation_cutover.sql`).

  * `IndexJob`, `MemoryEntry`, `MemoryTerm`, `MemoryVector`: the rows;
  * `IndexStore.schedule`: the trigger that opens a job for every message;
  * `IndexStore.claimIndexJob`, `IndexStore.completeIndexJob`,
    `IndexStore.failIndexJob`: the batches, statement by statement;
  * `IndexBatch`, `execIndex`.

  The messages and the conversations are those of the memory's store, whose
  batches land here too.  A term is a list of code points.
-/
import Xauusd.Lib.Sha256
import Xauusd.Memory.Batches
import Xauusd.Memory.Tokens

namespace Xauusd.Memory

def ASSISTANT_MEMORY_INDEX_VERSION : String := "assistant-memory-hybrid-v3"

/-! `ASSISTANT_MEMORY_INDEX_LIMITS` -/

def indexLease : ℤ := 2 * IsoTime.minute
def indexMaxAttempts : ℕ := 3
def maxIndexTerms : ℕ := 64
def maxQueryTerms : ℕ := 16
def maxCandidates : ℕ := 24
def maxItems : ℕ := 8

/-- `value.normalize("NFKC")` -/
structure Normal where
  nfkc : List Char → List Char

/-- `tokenizeAssistantMemory` -/
def tokenizeAssistantMemory (N : Normal) (content : String) (maximumTerms : ℕ) : List (List Char) :=
  Tokens.scan maximumTerms (N.nfkc content.toList) []

/-! ## Tables -/

/-- The columns of a job that `assistant_memory_index_job_inputs_immutable`
    protects. -/
structure IndexInputs where
  id : String
  ownerId : String
  conversationId : String
  sourceMessageId : String
  sourceCreatedAt : ℤ
  indexVersion : String
  maxAttempts : ℕ
  createdAt : ℤ
  deriving DecidableEq, Repr

/-- The status of a job with the columns that belong to it. -/
inductive IndexPhase where
  | pending
  | processing (lease : Lease)
  | completed (sourceContentSha256 : String) (termCount : ℕ) (completedAt : ℤ)
  | failed (completedAt : ℤ)
  deriving DecidableEq, Repr

/-- A row of `assistant_memory_index_jobs`. -/
structure IndexJob extends IndexInputs where
  phase : IndexPhase
  availableAt : ℤ
  attemptCount : ℕ
  failureCode : Option String
  deriving DecidableEq, Repr

def IndexJob.key (j : IndexJob) : String := j.id

/-- A row of `assistant_memory_entries`. -/
structure MemoryEntry where
  id : String
  sourceJobId : String
  ownerId : String
  conversationId : String
  sourceMessageId : String
  sourceRole : Role
  sourceCreatedAt : ℤ
  sourceContentSha256 : String
  indexVersion : String
  termCount : ℕ
  indexedAt : ℤ
  deriving DecidableEq, Repr

/-- A row of `assistant_memory_terms`. -/
structure MemoryTerm where
  entryId : String
  ownerId : String
  term : List Char
  sourceCreatedAt : ℤ
  deriving DecidableEq, Repr

def MemoryTerm.key (t : MemoryTerm) : String × List Char := (t.entryId, t.term)

/-- A row of `assistant_memory_vectors_v1`; the columns of the embedding are the
    constants that its check requires. -/
structure MemoryVector where
  entryId : String
  ownerId : String
  vectorId : String
  vectorMutationId : String
  indexedAt : ℤ
  deriving DecidableEq, Repr

/-- The store; `claims` are the rows that the claims returned, by their tokens. -/
structure IndexStore where
  memory : Store
  jobs : Table IndexJob.key
  entries : Table MemoryEntry.id
  terms : Table MemoryTerm.key
  vectors : Table MemoryVector.entryId
  claims : List (String × IndexJob)

namespace IndexJob

/-- `index_version=?` -/
def current (j : IndexJob) : Bool := j.indexVersion = ASSISTANT_MEMORY_INDEX_VERSION

/-- `status='PROCESSING' AND lease_token=? AND lease_expires_at>?` -/
def heldBy (token : String) (now : ℤ) (j : IndexJob) : Bool :=
  match j.phase with
  | .processing l => l.token = token && decide (now < l.expiresAt)
  | _ => false

/-- `status='PROCESSING' AND lease_expires_at<=?` -/
def lapsed (now : ℤ) (j : IndexJob) : Bool :=
  match j.phase with
  | .processing l => decide (l.expiresAt ≤ now)
  | _ => false

/-- `attempt_count>=max_attempts` -/
def spent (j : IndexJob) : Bool := decide (j.maxAttempts ≤ j.attemptCount)

/-- `ORDER BY created_at,id` -/
def notAfter (j j' : IndexJob) : Bool := decide (toLex (j.createdAt, j.id) ≤ toLex (j'.createdAt, j'.id))

/-- A job changes its status. -/
def become (phase : IndexPhase) (availableAt : Option ℤ) (failureCode : Option String) (j : IndexJob) : IndexJob :=
  { j with phase := phase, availableAt := availableAt.getD j.availableAt, failureCode := failureCode }

def claimed (lease : Lease) (j : IndexJob) : IndexJob :=
  { j with phase := .processing lease, attemptCount := j.attemptCount + 1, failureCode := none }

theorem become_key (phase : IndexPhase) (availableAt : Option ℤ) (failureCode : Option String) (j : IndexJob) :
    (j.become phase availableAt failureCode).key = j.key := rfl

theorem claimed_key (lease : Lease) (j : IndexJob) : (j.claimed lease).key = j.key := rfl

end IndexJob

namespace IndexStore

def empty : IndexStore := ⟨.empty, .empty, .empty, .empty, .empty, []⟩

def updateJobs (s : IndexStore) (p : IndexJob → Bool) (f : IndexJob → IndexJob) (hf : ∀ j, (f j).key = j.key) :
    IndexStore :=
  { s with jobs := s.jobs.update p f hf }

end IndexStore

/-! ## Scheduling -/

/-- The columns of the job of a message. -/
def IndexInputs.ofMessage (c : Conversation) (m : Message) : IndexInputs where
  id := "memory-index:assistant-memory-hybrid-v3:" ++ m.id
  ownerId := c.ownerId
  conversationId := m.conversationId
  sourceMessageId := m.id
  sourceCreatedAt := m.createdAt
  indexVersion := ASSISTANT_MEMORY_INDEX_VERSION
  maxAttempts := indexMaxAttempts
  createdAt := m.createdAt

def IndexJob.ofMessage (c : Conversation) (m : Message) : IndexJob where
  toIndexInputs := .ofMessage c m
  phase := .pending
  availableAt := m.createdAt
  attemptCount := 0
  failureCode := none

/-- `assistant_messages_schedule_memory_index`: `INSERT OR IGNORE` for a new
    message -/
def IndexStore.schedule (s : IndexStore) (m : Message) : IndexStore :=
  match s.memory.conversations.find? m.conversationId with
  | none => s
  | some c =>
    { s with
      jobs := s.jobs.insertIgnore (.ofMessage c m) fun j =>
        j.sourceMessageId = m.id && j.indexVersion = ASSISTANT_MEMORY_INDEX_VERSION }

/-! ## Claiming -/

namespace IndexStore

/-- The first two statements of `claimAssistantMemoryIndexJob`: lapsed leases
    fail, or are given back. -/
def recoverIndexJobs (s : IndexStore) (now : ℤ) : IndexStore :=
  (s.updateJobs (fun j => j.lapsed now && j.spent && j.current)
      (IndexJob.become (.failed now) none (some "LEASE_EXPIRED"))
      (IndexJob.become_key (.failed now) none (some "LEASE_EXPIRED"))).updateJobs
    (fun j => j.lapsed now && !j.spent && j.current) (IndexJob.become .pending (some now) (some "LEASE_EXPIRED"))
    (IndexJob.become_key .pending (some now) (some "LEASE_EXPIRED"))

/-- The batch of `claimAssistantMemoryIndexJob`; an attempt over
    `max_attempts` is against the `CHECK`. -/
def claimIndexJob (s : IndexStore) (workerId leaseToken : String) (now : ℤ) : Option IndexStore :=
  let recovered := s.recoverIndexJobs now
  let lease : Lease := ⟨workerId, leaseToken, now + indexLease⟩
  match Table.firstBy IndexJob.notAfter
      (recovered.jobs.rows.filter fun j => j.phase = .pending && j.current && decide (j.availableAt ≤ now)) with
  | none => some recovered
  | some j =>
    if j.attemptCount + 1 ≤ j.maxAttempts then
      some { recovered.updateJobs (fun j' => j'.id = j.id) (IndexJob.claimed lease) (IndexJob.claimed_key lease) with
        claims := (leaseToken, j.claimed lease) :: recovered.claims }
    else none

end IndexStore

/-! ## Completing -/

structure IndexCompletion where
  id : String
  leaseToken : String
  entryId : String
  sourceRole : Role
  sourceContentSha256 : String
  indexVersion : String
  terms : List (List Char)
  ownerId : String
  vectorId : String
  vectorMutationId : String
  now : ℤ

namespace IndexCompletion

/-- `id=? AND status='PROCESSING' AND lease_token=? AND lease_expires_at>?` -/
def holds (b : IndexCompletion) (j : IndexJob) : Bool := j.id = b.id && j.heldBy b.leaseToken b.now

def entry (b : IndexCompletion) (j : IndexJob) : MemoryEntry where
  id := b.entryId
  sourceJobId := j.id
  ownerId := j.ownerId
  conversationId := j.conversationId
  sourceMessageId := j.sourceMessageId
  sourceRole := b.sourceRole
  sourceCreatedAt := j.sourceCreatedAt
  sourceContentSha256 := b.sourceContentSha256
  indexVersion := b.indexVersion
  termCount := b.terms.length
  indexedAt := b.now

def vector (b : IndexCompletion) : MemoryVector where
  entryId := b.entryId
  ownerId := b.ownerId
  vectorId := b.vectorId
  vectorMutationId := b.vectorMutationId
  indexedAt := b.now

/-- The phase that the last statement sets. -/
def ended (b : IndexCompletion) : IndexPhase := .completed b.sourceContentSha256 b.terms.length b.now

theorem become_key (b : IndexCompletion) (j : IndexJob) : (j.become b.ended none none).key = j.key := rfl

end IndexCompletion

namespace IndexStore

/-- `assistant_memory_entry_requires_active_job` lets the entry pass. -/
def entrySourced (s : IndexStore) (e : MemoryEntry) : Bool :=
  s.jobs.rows.any fun j => s.memory.messages.rows.any fun m =>
    m.id = j.sourceMessageId && j.id = e.sourceJobId && (match j.phase with | .processing _ => true | _ => false) &&
      j.ownerId = e.ownerId && j.conversationId = e.conversationId && j.sourceMessageId = e.sourceMessageId &&
      j.sourceCreatedAt = e.sourceCreatedAt && j.indexVersion = e.indexVersion && m.role = e.sourceRole &&
      m.conversationId = e.conversationId

/-- `INSERT INTO assistant_memory_entries` -/
def insertEntry (s : IndexStore) (e : MemoryEntry) : Option IndexStore :=
  if s.entrySourced e = true ∧ Text.isSha256Hex e.sourceContentSha256 = true ∧ e.termCount ≤ maxIndexTerms ∧
      ∀ e' ∈ s.entries.rows, e'.sourceJobId ≠ e.sourceJobId ∧
        ¬ (e'.sourceMessageId = e.sourceMessageId ∧ e'.indexVersion = e.indexVersion) then
    (s.entries.insertAll [e]).map fun entries => { s with entries := entries }
  else none

/-- The entry of a completion, `FROM` the job that it holds. -/
def insertEntryOf (s : IndexStore) (b : IndexCompletion) : Option IndexStore :=
  match s.jobs.rows.find? b.holds with
  | none => some s
  | some j => s.insertEntry (b.entry j)

/-- `INSERT INTO assistant_memory_terms`, `FROM` the entry with the id -/
def insertTerm (entryId : String) (s : IndexStore) (term : List Char) : Option IndexStore :=
  match s.entries.find? entryId with
  | none => some s
  | some e =>
    if 1 ≤ term.length ∧ term.length ≤ 64 then
      (s.terms.insertAll [⟨e.id, e.ownerId, term, e.sourceCreatedAt⟩]).map fun terms => { s with terms := terms }
    else none

def insertTerms (entryId : String) (s : IndexStore) : List (List Char) → Option IndexStore
  | [] => some s
  | term :: terms => (s.insertTerm entryId term).bind fun s => s.insertTerms entryId terms

/-- `INSERT INTO assistant_memory_vectors_v1`: the entry is there, and the id of
    the vector is not. -/
def insertVector (s : IndexStore) (v : MemoryVector) : Option IndexStore :=
  if (s.entries.rows.any fun e => e.id = v.entryId && e.ownerId = v.ownerId) = true ∧
      ∀ v' ∈ s.vectors.rows, v'.vectorId ≠ v.vectorId then
    (s.vectors.insertAll [v]).map fun vectors => { s with vectors := vectors }
  else none

/-- `assistant_memory_index_completion_requires_entry` and
    `assistant_memory_hybrid_completion_requires_vector` let a job be
    completed. -/
def completable (s : IndexStore) (b : IndexCompletion) (j : IndexJob) : Bool :=
  (s.entries.rows.any fun e => e.sourceJobId = j.id && e.ownerId = j.ownerId && e.conversationId = j.conversationId &&
      e.sourceMessageId = j.sourceMessageId && e.sourceCreatedAt = j.sourceCreatedAt &&
      e.indexVersion = j.indexVersion && e.sourceContentSha256 = b.sourceContentSha256 &&
      e.termCount = b.terms.length) &&
    decide (b.terms.length = s.terms.rows.countP fun t =>
      s.entries.rows.any fun e => e.id = t.entryId && e.sourceJobId = j.id) &&
    (j.indexVersion ∉ ["assistant-memory-hybrid-v2", "assistant-memory-hybrid-v3"] ||
      s.entries.rows.any fun e => e.sourceJobId = j.id &&
        s.vectors.rows.any fun v => v.entryId = e.id && v.ownerId = j.ownerId)

/-- The last statement of a completion. -/
def endIndexJob (s : IndexStore) (b : IndexCompletion) : Option IndexStore :=
  if ∀ j ∈ s.jobs.rows, b.holds j = true → s.completable b j = true then
    some (s.updateJobs b.holds (IndexJob.become b.ended none none) b.become_key)
  else none

/-- The batch of `completeAssistantMemoryIndexJob`. -/
def completeIndexJob (s : IndexStore) (b : IndexCompletion) : Option IndexStore :=
  (s.insertEntryOf b).bind fun s => (s.insertTerms b.entryId b.terms).bind fun s =>
    (s.insertVector b.vector).bind fun s => s.endIndexJob b

end IndexStore

/-! ## Failing -/

structure IndexFailure where
  id : String
  leaseToken : String
  terminal : Bool
  availableAt : ℤ
  failureCode : String
  now : ℤ

namespace IndexFailure

def holds (b : IndexFailure) (j : IndexJob) : Bool := j.id = b.id && j.heldBy b.leaseToken b.now

def ended (b : IndexFailure) : IndexPhase := if b.terminal then .failed b.now else .pending

theorem become_key (b : IndexFailure) (j : IndexJob) :
    (j.become b.ended (some b.availableAt) (some b.failureCode)).key = j.key := rfl

end IndexFailure

/-- The statement of `failAssistantMemoryIndexJob`; none where it returns no
    row. -/
def IndexStore.failIndexJob (s : IndexStore) (b : IndexFailure) : Option IndexStore :=
  if s.jobs.hits b.holds = 0 then none
  else some (s.updateJobs b.holds (IndexJob.become b.ended (some b.availableAt) (some b.failureCode)) b.become_key)

/-! ## The batches -/

inductive IndexBatch where
  /-- what a request on memory sends; its new messages fire the trigger -/
  | memory (b : Batch)
  | claim (workerId leaseToken : String) (now : ℤ)
  | complete (b : IndexCompletion)
  | fail (b : IndexFailure)

def execIndex : IndexBatch → IndexStore → Option IndexStore
  | .memory b, s => (exec b s.memory).map fun memory =>
    (memory.messages.rows.drop s.memory.messages.rows.length).foldl IndexStore.schedule { s with memory := memory }
  | .claim workerId leaseToken now, s => s.claimIndexJob workerId leaseToken now
  | .complete b, s => s.completeIndexJob b
  | .fail b, s => s.failIndexJob b

end Xauusd.Memory
