/-
  The tables of the conversations' memory, and their queries.

  * `Store.log`: the messages of a conversation, in the order of
    `created_at,id`;
  * `Store.listPinnedEntries`, `Store.currentSummary`: what several requests
    read;
  * `Store.afterCover`: the messages that a summary does not cover;
  * `log_of_ordered`, `filter_before_prefix`: messages that are created in their
    order are read in it, and those before a message are the first ones.
-/
import Xauusd.Memory.Types

namespace Xauusd.Memory

open JsonText

inductive Role where
  | user
  | assistant
  deriving DecidableEq, Repr

def Role.text : Role → String
  | user => "USER"
  | assistant => "ASSISTANT"

/-- A row of `assistant_messages`; `provenance` is `provenance_json`, parsed. -/
structure Message where
  id : String
  conversationId : String
  role : Role
  content : String
  createdAt : ℤ
  provenance : Json
  deriving DecidableEq, Repr

namespace Message

/-- The place of a message: `created_at,id` -/
def place (m : Message) : ℤ ×ₗ String := toLex (m.createdAt, m.id)

/-- `ORDER BY created_at,id` -/
def notAfter (m m' : Message) : Bool := decide (m.place ≤ m'.place)

end Message

/-- A row of `assistant_conversations`, as far as memory goes. -/
structure Conversation where
  id : String
  ownerId : String
  summaryVersion : ℕ
  pendingCompactionJobId : Option String
  compactionRequestVersion : ℕ
  deriving DecidableEq, Repr

/-- A row of `assistant_summaries`. -/
structure Summary where
  id : String
  conversationId : String
  version : ℕ
  priorSummaryId : Option String
  sourceJobId : String
  firstSourceMessageId : String
  coveredThroughMessageId : String
  coveredThroughCreatedAt : ℤ
  sourceMessageCount : ℕ
  content : String
  anchors : SummaryAnchors
  estimatedTokens : ℕ
  contextProfileId : String
  promptVersion : String
  modelVersion : String
  createdAt : ℤ
  deriving DecidableEq, Repr

/-- The last message that a summary covers. -/
def Summary.cover (x : Summary) : ℤ ×ₗ String := toLex (x.coveredThroughCreatedAt, x.coveredThroughMessageId)

/-- The columns of a job that `assistant_compaction_job_inputs_immutable`
    protects; `source_message_count` and the first and last message are those of
    the list. -/
structure Frozen where
  id : String
  conversationId : String
  inputVersion : ℕ
  priorSummaryVersion : ℕ
  outputSummaryVersion : ℕ
  sourceMessageIds : List String
  pinnedSnapshot : List SnapshotPin
  contextProfileId : String
  capacityState : CapacityState
  estimatedContextTokens : ℕ
  maxAttempts : ℕ
  promptVersion : String
  createdAt : ℤ
  deriving DecidableEq, Repr

structure Lease where
  owner : String
  token : String
  expiresAt : ℤ
  deriving DecidableEq, Repr

/-- The status of a job with the columns that belong to it. -/
inductive Phase where
  | pending
  | processing (lease : Lease)
  | completed (modelVersion : String) (completedAt : ℤ)
  | failed (completedAt : ℤ)
  deriving DecidableEq, Repr

/-- `status IN ('PENDING','PROCESSING')` -/
def Phase.active : Phase → Bool
  | pending | processing _ => true
  | completed _ _ | failed _ => false

/-- `status='COMPLETED'` -/
def Phase.isCompleted : Phase → Bool
  | completed _ _ => true
  | _ => false

/-- A row of `assistant_compaction_jobs`. -/
structure Job extends Frozen where
  phase : Phase
  availableAt : ℤ
  attemptCount : ℕ
  failureCode : Option String
  deriving DecidableEq, Repr

def Job.key (j : Job) : String := j.id

/-- `status='PROCESSING' AND lease_token=? AND lease_expires_at>?` -/
def Job.heldBy (token : String) (now : ℤ) (j : Job) : Bool :=
  match j.phase with
  | .processing l => l.token = token && decide (now < l.expiresAt)
  | _ => false

/-- The text of a message in a context, and in the input of a compaction. -/
def Message.json (m : Message) : List Char :=
  object [("id", quote m.id), ("role", quote m.role.text), ("content", quote m.content),
    ("created_at", instant m.createdAt)]

/-- `summaryPayload` -/
def Summary.json (x : Summary) : List Char :=
  object [("id", quote x.id), ("version", number x.version), ("content", quote x.content),
    ("anchors", x.anchors.json), ("covered_through_message_id", quote x.coveredThroughMessageId)]

/-- The store; `claims` are the rows that the claims returned, by their tokens. -/
structure Store where
  conversations : Table Conversation.id
  messages : Table Message.id
  summaries : Table Summary.id
  pins : Table PinnedEntry.key
  jobs : Table Job.key
  claims : List (String × Job)

namespace Store

def empty : Store := ⟨.empty, .empty, .empty, .empty, .empty, []⟩

/-! ## Queries -/

/-- `conversation_id=? ORDER BY created_at,id` -/
def log (s : Store) (conversationId : String) : List Message :=
  (s.messages.rows.filter fun m => m.conversationId = conversationId).insertionSort fun m m' => m.notAfter m' = true

/-- `created_at,id` -/
def pinOrder (p p' : PinnedEntry) : Bool := decide (toLex (p.createdAt, p.id) ≤ toLex (p'.createdAt, p'.id))

/-- The entries of a conversation that do not come of a message after the
    cutoff. -/
def pinsUpTo (s : Store) (conversationId : String) (cutoff : Option Message) : List PinnedEntry :=
  (s.pins.rows.filter fun p => p.conversationId = conversationId &&
    !(cutoff.any fun m => p.originMessageIds.any fun origin =>
      s.messages.rows.any fun m' => m'.id = origin && !m'.notAfter m)).insertionSort fun p p' => pinOrder p p' = true

/-- `listPinnedEntries` -/
def listPinnedEntries (s : Store) (conversationId : String) (cutoff : Option Message) :
    Except MemoryError (List PinnedEntry) :=
  let rows := (s.pinsUpTo conversationId cutoff).take (maxPinnedEntries + 1)
  if maxPinnedEntries < rows.length then .error .pinnedStateExceedsBudget else .ok rows

/-- `conversation_id=? AND version=?` -/
def summaryAt (s : Store) (conversationId : String) (version : ℕ) : Option Summary :=
  s.summaries.rows.find? fun x => x.conversationId = conversationId && x.version = version

/-- `currentSummary` -/
def currentSummary (s : Store) (conversationId : String) (version : ℕ) : Except MemoryError (Option Summary) :=
  if version = 0 then .ok none
  else match s.summaryAt conversationId version with
  | none => .error .summaryStateInvalid
  | some x => .ok (some x)

/-- `orderingAfter`, on a log -/
def afterCover (summary : Option Summary) (log : List Message) : List Message :=
  log.filter fun m => summary.all fun x => decide (x.cover < m.place)

/-- `role='USER' ORDER BY created_at DESC,id DESC LIMIT 1 OFFSET limit-1`, on a
    log -/
def recentBoundary (limit : ℕ) (log : List Message) : Option Message :=
  (log.filter fun m => m.role = .user).reverse[limit - 1]?

end Store

/-! ## Logs -/

/-- Every message of a conversation comes after those created before it. -/
def Ordered (rows : List Message) : Prop :=
  rows.Pairwise fun m m' => m.conversationId = m'.conversationId → m.place < m'.place

theorem Ordered.filter {rows : List Message} (h : Ordered rows) (conversationId : String) :
    (rows.filter fun m => m.conversationId = conversationId).Pairwise fun m m' => m.place < m'.place := by
  refine (List.Pairwise.filter _ h).imp_of_mem ?_
  intro m m' hm hm' hlt
  have hsame : m.conversationId = conversationId := by simpa using (List.mem_filter.1 hm).2
  have hsame' : m'.conversationId = conversationId := by simpa using (List.mem_filter.1 hm').2
  exact hlt (hsame.trans hsame'.symm)

/-- Messages created in their order are read in it. -/
theorem log_of_ordered {s : Store} (h : Ordered s.messages.rows) (conversationId : String) :
    s.log conversationId = s.messages.rows.filter fun m => m.conversationId = conversationId := by
  refine List.Pairwise.insertionSort_eq ((h.filter conversationId).imp fun hlt => ?_)
  simp [Message.notAfter, hlt.le]

/-- Of an ordered log, the messages before a place come first. -/
theorem filter_before_prefix {log : List Message} (h : log.Pairwise fun m m' => m.place < m'.place)
    (place : ℤ ×ₗ String) : log.filter (fun m => decide (m.place < place)) <+: log := by
  induction log with
  | nil => exact List.prefix_rfl
  | cons m log ih =>
    rw [List.pairwise_cons] at h
    by_cases hm : m.place < place
    · rw [List.filter_cons_of_pos (by simpa using hm), List.prefix_cons_inj]
      exact ih h.2
    · have hnone : log.filter (fun m => decide (m.place < place)) = [] := by
        rw [List.filter_eq_nil_iff]
        intro m' hm'
        simpa using (not_lt.1 hm).trans (h.1 m' hm').le
      rw [List.filter_cons_of_neg (by simpa using hm), hnone]
      exact List.nil_prefix

end Xauusd.Memory
