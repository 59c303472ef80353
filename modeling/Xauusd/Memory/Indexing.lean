/-
  The requests on the index of past messages, as programs of reads and batches
  (`assistant-memory-index.ts`).

  * `claimAssistantMemoryIndexJob`, `completeAssistantMemoryIndexJob`,
    `failAssistantMemoryIndexJob`;
  * `IndexRequest.program`, `indexStep`: the requests interleaved, and among
    them whatever the requests on memory send.

  What Vectorize answers to an upsert is an argument of the completion.
-/
import Xauusd.Memory.Index
import Xauusd.Memory.Requests

namespace Xauusd.Memory

open Program

inductive IndexError where
  | invalidMemoryIndexResult
  | memorySourceMissing
  | invalidFailureCode
  /-- `"Vectorize did not return a mutation receipt"` -/
  | noMutationReceipt
  | aborted
  deriving DecidableEq, Repr

inductive IndexReply where
  | null
  | claimed (job : IndexJob) (message : Message)
  | completed (jobId sourceMessageId sourceContentSha256 vectorId : String) (termCount : ℕ)
  | failed (jobId : String) (terminal : Bool)
  | refused (error : IndexError)
  | recorded
  deriving DecidableEq

abbrev IndexHandler := Program IndexStore IndexBatch IndexReply

namespace IndexStore

/-- The job with the id, when the lease is the caller's. -/
def heldJob (s : IndexStore) (id leaseToken : String) (now : ℤ) : Option IndexJob :=
  (s.jobs.find? id).filter (·.heldBy leaseToken now)

/-- `id=? AND conversation_id=? AND created_at=?` -/
def source (s : IndexStore) (j : IndexJob) : Option Message :=
  s.memory.messages.rows.find? fun m => m.id = j.sourceMessageId && m.conversationId = j.conversationId &&
    m.createdAt = j.sourceCreatedAt

/-- The same, of a conversation of the owner. -/
def ownedSource (s : IndexStore) (j : IndexJob) : Option Message :=
  (s.source j).filter fun m => s.memory.conversations.rows.any fun c => c.id = m.conversationId && c.ownerId = j.ownerId

end IndexStore

/-! ## Failing -/

/-- `Math.min(60, 10 * (2 ** Math.max(0, attempts - 1)))` seconds -/
def indexDelay (attempts : ℕ) : ℤ := min 60 (10 * 2 ^ (attempts - 1)) * IsoTime.second

def failAssistantMemoryIndexJob (id leaseToken failureCode : String) (now : ℤ) (next : IndexReply → IndexHandler) :
    IndexHandler :=
  if !isFailureCode failureCode then next (.refused .invalidFailureCode)
  else read fun s =>
    match s.heldJob id leaseToken now with
    | none => next .null
    | some job =>
      commit (.fail
          { id := id, leaseToken := leaseToken, terminal := job.spent
            availableAt := if job.spent then now else now + indexDelay job.attemptCount
            failureCode := failureCode, now := now }) fun ok =>
        next (if ok then .failed id job.spent else .null)

/-! ## Claiming -/

def claimAssistantMemoryIndexJob (workerId leaseToken : String) (now : ℤ) : IndexHandler :=
  commit (.claim workerId leaseToken now) fun ok => if !ok then done (.refused .aborted) else
    read fun s =>
      match s.claims.lookup leaseToken with
      | none => done .null
      | some job => read fun s =>
        match s.ownedSource job with
        | none => failAssistantMemoryIndexJob job.id leaseToken "MEMORY_SOURCE_MISSING" now fun _ => done .null
        | some message => done (.claimed job message)

/-! ## Completing -/

structure IndexCall where
  id : String
  leaseToken : String
  sourceMessageId : String
  indexVersion : String
  /-- none where it is not an array of texts -/
  terms : Option (List (List Char))
  sourceContentSha256 : String
  /-- `normalizeAssistantMemoryEmbedding` takes the embedding -/
  embeddingValid : Bool
  /-- of the receipt of the upsert -/
  mutationId : String
  now : ℤ

/-- `normalizedCompletion` -/
def IndexCall.normalized (N : Normal) (c : IndexCall) (content : String) :
    Except IndexError (List (List Char) × String) :=
  if c.indexVersion ≠ ASSISTANT_MEMORY_INDEX_VERSION ∨ ¬ c.terms.any (fun terms => decide (terms.length ≤ maxIndexTerms)) then
    .error .invalidMemoryIndexResult
  else if c.terms ≠ some (tokenizeAssistantMemory N content maxIndexTerms) then .error .invalidMemoryIndexResult
  else if c.sourceContentSha256 ≠ sha256 content then .error .invalidMemoryIndexResult
  else .ok (tokenizeAssistantMemory N content maxIndexTerms, sha256 content)

def entryIdOf (j : IndexJob) : String := "memory-entry:" ++ j.indexVersion ++ ":" ++ j.sourceMessageId

def vectorIdOf (entryId : String) : String := sha256 ("assistant-memory-vector-v1:" ++ entryId)

def completeAssistantMemoryIndexJob (N : Normal) (c : IndexCall) : IndexHandler :=
  read fun s =>
    match s.heldJob c.id c.leaseToken c.now with
    | none => done .null
    | some job =>
      if c.sourceMessageId ≠ job.sourceMessageId ∨ c.indexVersion ≠ job.indexVersion ∨
          job.indexVersion ≠ ASSISTANT_MEMORY_INDEX_VERSION then
        done (.refused .invalidMemoryIndexResult)
      else read fun s =>
        match s.source job with
        | none => done (.refused .memorySourceMissing)
        | some message =>
          match c.normalized N message.content with
          | .error e => done (.refused e)
          | .ok (terms, digest) =>
            if !c.embeddingValid then done (.refused .invalidMemoryIndexResult)
            else if c.mutationId = "" then done (.refused .noMutationReceipt)
            else
              commit (.complete
                  { id := c.id, leaseToken := c.leaseToken, entryId := entryIdOf job, sourceRole := message.role
                    sourceContentSha256 := digest, indexVersion := job.indexVersion, terms := terms
                    ownerId := job.ownerId, vectorId := vectorIdOf (entryIdOf job), vectorMutationId := c.mutationId
                    now := c.now }) fun ok =>
                if !ok then done (.refused .aborted)
                else read fun s =>
                  -- the rows that the batch returned
                  if (s.entries.rows.any fun e => e.id = entryIdOf job && e.sourceJobId = c.id) &&
                      (s.jobs.find? c.id).any fun j => j.phase = .completed digest terms.length c.now then
                    done (.completed c.id job.sourceMessageId digest (vectorIdOf (entryIdOf job)) terms.length)
                  else done .null

/-! ## The machine -/

inductive IndexRequest where
  | memory (b : Batch)
  | claim (workerId leaseToken : String) (now : ℤ)
  | complete (c : IndexCall)
  | fail (id leaseToken failureCode : String) (now : ℤ)

def IndexRequest.program (N : Normal) : IndexRequest → IndexHandler
  | .memory b => commit (.memory b) fun _ => done .recorded
  | .claim workerId leaseToken now => claimAssistantMemoryIndexJob workerId leaseToken now
  | .complete c => completeAssistantMemoryIndexJob N c
  | .fail id leaseToken failureCode now => failAssistantMemoryIndexJob id leaseToken failureCode now done

abbrev IndexWorld := Logged IndexStore IndexBatch

abbrev IndexFlight := Flight IndexStore IndexBatch IndexReply

abbrev IndexAction := FlightAction IndexRequest

def indexStep (N : Normal) : IndexFlight → IndexAction → Unit × IndexFlight :=
  Flight.step execIndex (IndexRequest.program N)

def IndexFlight.initial : IndexFlight := ⟨⟨.empty, []⟩, []⟩

end Xauusd.Memory
