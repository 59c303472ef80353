/-
  The titles of conversations: rows, statements and batches
  (`assistant-conversations.ts`, `0009_assistant_conversations.sql`).

  A conversation names its pending title job; a worker claims jobs and completes,
  fails or defers them, and the owner renames.  A batch returns the store after
  it, none when a trigger or a constraint aborts it.

  * `TitleRequest`: the columns of a job that `assistant_title_job_inputs_immutable`
    protects;
  * `Phase`: the status of a job, with the columns that belong to it;
  * `Store.insertJob`: `INSERT INTO assistant_title_jobs … ON CONFLICT DO NOTHING`;
  * `Store.rename`, `Store.regenerate`, `Store.automatic`, `Store.claim`,
    `Store.complete`, `Store.release`: the batches;
  * `Batch`, `exec`.

  `returned` is a ghost: the rows that `RETURNING *` gave, each under the id that
  its batch drew.  Instants are in microseconds.
-/
import Xauusd.Lib.IsoTime
import Xauusd.Lib.Table

namespace Xauusd.Titles

def ASSISTANT_TITLE_PROMPT_VERSION : String := "assistant-title-v1"

/-! `ASSISTANT_CONVERSATION_LIMITS` -/

def titleJobLease : ℤ := 3 * IsoTime.minute
def titleJobMaxAttempts : ℕ := 3

/-! ## Rows -/

inductive TitleSource where
  | provisional
  | ai
  | user
  deriving DecidableEq, Repr

/-- A row of `assistant_conversations`, as far as titles go. -/
structure Conversation where
  id : String
  ownerId : String
  title : String
  titleSource : TitleSource
  titleRevision : ℕ
  titleRequestVersion : ℕ
  pendingTitleJobId : Option String
  deriving DecidableEq, Repr

inductive Role where
  | user
  | assistant
  deriving DecidableEq, Repr

/-- A row of `assistant_messages`. -/
structure Message where
  id : String
  conversationId : String
  role : Role
  content : String
  createdAt : ℤ
  deriving DecidableEq, Repr

/-- `ORDER BY created_at,id` -/
def Message.notAfter (m m' : Message) : Bool := decide (toLex (m.createdAt, m.id) ≤ toLex (m'.createdAt, m'.id))

inductive RequestedBy where
  | automatic
  | user
  deriving DecidableEq, Repr

/-- The columns of a job that no update changes. -/
structure TitleRequest where
  id : String
  conversationId : String
  idempotencyKey : String
  requestedBy : RequestedBy
  inputVersion : ℕ
  expectedTitleRevision : ℕ
  firstUserMessageId : String
  assistantMessageId : String
  maxAttempts : ℕ
  promptVersion : String
  createdAt : ℤ
  deriving DecidableEq, Repr

structure Lease where
  owner : String
  token : String
  expiresAt : ℤ
  deriving DecidableEq, Repr

inductive Phase where
  | pending
  | processing (lease : Lease)
  | completed (generatedTitle modelVersion : String) (completedAt : ℤ)
  | failed (completedAt : ℤ)
  | cancelled (completedAt : ℤ)
  deriving DecidableEq, Repr

/-- `status IN ('PENDING','PROCESSING')` -/
def Phase.active : Phase → Bool
  | pending | processing _ => true
  | completed _ _ _ | failed _ | cancelled _ => false

section
variable (lease : Lease) (generatedTitle modelVersion : String) (completedAt : ℤ)

@[simp] theorem Phase.active_pending : pending.active = true := rfl

@[simp] theorem Phase.active_processing : (processing lease).active = true := rfl

@[simp] theorem Phase.active_completed : (completed generatedTitle modelVersion completedAt).active = false := rfl

@[simp] theorem Phase.active_failed : (failed completedAt).active = false := rfl

@[simp] theorem Phase.active_cancelled : (cancelled completedAt).active = false := rfl

end

/-- A row of `assistant_title_jobs`. -/
structure TitleJob extends TitleRequest where
  phase : Phase
  availableAt : ℤ
  attemptCount : ℕ
  failureCode : Option String
  deriving DecidableEq, Repr

namespace TitleJob

def key (j : TitleJob) : String := j.id

/-- `status='PROCESSING' AND lease_token=? AND lease_expires_at>?` -/
def heldBy (leaseToken : String) (now : ℤ) (j : TitleJob) : Bool :=
  match j.phase with
  | .processing l => l.token = leaseToken && decide (now < l.expiresAt)
  | _ => false

/-- `status='PROCESSING' AND lease_expires_at<=?` -/
def lapsed (now : ℤ) (j : TitleJob) : Bool :=
  match j.phase with
  | .processing l => decide (l.expiresAt ≤ now)
  | _ => false

/-- `attempt_count>=max_attempts` -/
def spent (j : TitleJob) : Bool := decide (j.maxAttempts ≤ j.attemptCount)

/-- `ORDER BY created_at,id` -/
def notAfter (j j' : TitleJob) : Bool := decide (toLex (j.createdAt, j.id) ≤ toLex (j'.createdAt, j'.id))

/-! What the statements set. -/

def become (phase : Phase) (availableAt : Option ℤ) (failureCode : Option String) (j : TitleJob) : TitleJob :=
  { j with phase := phase, availableAt := availableAt.getD j.availableAt, failureCode := failureCode }

def claimed (lease : Lease) (j : TitleJob) : TitleJob :=
  { j with phase := .processing lease, attemptCount := j.attemptCount + 1, failureCode := none }

theorem become_key (phase : Phase) (availableAt : Option ℤ) (failureCode : Option String) (j : TitleJob) :
    (j.become phase availableAt failureCode).key = j.key := rfl

theorem claimed_key (lease : Lease) (j : TitleJob) : (j.claimed lease).key = j.key := rfl

end TitleJob

namespace Conversation

/-- The conversation waits for a new job. -/
def request (jobId : String) (c : Conversation) : Conversation :=
  { c with titleRequestVersion := c.titleRequestVersion + 1, pendingTitleJobId := some jobId }

def clear (c : Conversation) : Conversation := { c with pendingTitleJobId := none }

def retitle (title : String) (source : TitleSource) (c : Conversation) : Conversation :=
  { c with title := title, titleSource := source, titleRevision := c.titleRevision + 1, pendingTitleJobId := none }

theorem request_id (jobId : String) (c : Conversation) : (c.request jobId).id = c.id := rfl

theorem clear_id (c : Conversation) : c.clear.id = c.id := rfl

theorem retitle_id (title : String) (source : TitleSource) (c : Conversation) : (c.retitle title source).id = c.id := rfl

end Conversation

structure Store where
  conversations : Table Conversation.id
  messages : Table Message.id
  jobs : Table TitleJob.key
  returned : List (String × TitleJob)

def Store.empty : Store := ⟨.empty, .empty, .empty, []⟩

namespace Store

def updateConversations (s : Store) (p : Conversation → Bool) (f : Conversation → Conversation)
    (hf : ∀ c, (f c).id = c.id) : Store :=
  { s with conversations := s.conversations.update p f hf }

def updateJobs (s : Store) (p : TitleJob → Bool) (f : TitleJob → TitleJob) (hf : ∀ j, (f j).key = j.key) : Store :=
  { s with jobs := s.jobs.update p f hf }

/-! ## Renaming -/

/-- The batch of `renameOwnerAssistantConversation`. -/
def rename (s : Store) (ownerId conversationId title : String) (now : ℤ) : Store :=
  (s.updateJobs
      (fun j => j.phase.active && s.conversations.rows.any fun c =>
        c.ownerId = ownerId && c.id = conversationId && c.pendingTitleJobId = some j.id)
      (TitleJob.become (.cancelled now) none (some "USER_RENAMED"))
      (TitleJob.become_key (.cancelled now) none (some "USER_RENAMED"))).updateConversations
    (fun c => c.ownerId = ownerId && c.id = conversationId) (Conversation.retitle title .user)
    (Conversation.retitle_id title .user)

/-! ## Requesting -/

/-- `assistant_title_jobs_require_frozen_messages` -/
def frozen (s : Store) (j : TitleJob) : Bool :=
  (s.messages.rows.any fun m => m.id = j.firstUserMessageId && m.conversationId = j.conversationId && m.role = .user) &&
    s.messages.rows.any fun m => m.id = j.assistantMessageId && m.conversationId = j.conversationId && m.role = .assistant

/-- `UNIQUE (conversation_id,input_version)`, `UNIQUE (conversation_id,idempotency_key)` -/
def clash (j j' : TitleJob) : Bool :=
  j'.conversationId = j.conversationId && (j'.inputVersion = j.inputVersion || j'.idempotencyKey = j.idempotencyKey)

/-- `INSERT INTO assistant_title_jobs … ON CONFLICT DO NOTHING RETURNING *` -/
def insertJob (s : Store) (j : TitleJob) : Option Store :=
  if s.frozen j then
    some { s with
      jobs := s.jobs.insertIgnore j (clash j)
      returned := if s.jobs.rows.any fun j' => j'.key = j.key || clash j j' then s.returned
        else (j.id, j) :: s.returned }
  else none

/-- `ORDER BY created_at,id LIMIT 1` of the messages with a role. -/
def firstMessage (s : Store) (conversationId : String) (role : Role) : Option Message :=
  Table.firstBy Message.notAfter (s.messages.rows.filter fun m => m.conversationId = conversationId && m.role = role)

/-- `ORDER BY created_at DESC,id DESC LIMIT 1` -/
def lastMessage (s : Store) (conversationId : String) (role : Role) : Option Message :=
  Table.firstBy (fun m m' => m'.notAfter m)
    (s.messages.rows.filter fun m => m.conversationId = conversationId && m.role = role)

end Store

/-- What the batch of `requestAssistantTitleRegeneration` is sent with. -/
structure Regeneration where
  jobId : String
  ownerId : String
  conversationId : String
  idempotencyKey : String
  firstUserMessageId : String
  assistantMessageId : String
  now : ℤ
  deriving DecidableEq, Repr

/-- The row that is selected from a conversation. -/
def Regeneration.job (b : Regeneration) (c : Conversation) : TitleJob where
  id := b.jobId
  conversationId := c.id
  idempotencyKey := b.idempotencyKey
  requestedBy := .user
  inputVersion := c.titleRequestVersion
  expectedTitleRevision := c.titleRevision
  firstUserMessageId := b.firstUserMessageId
  assistantMessageId := b.assistantMessageId
  maxAttempts := titleJobMaxAttempts
  promptVersion := ASSISTANT_TITLE_PROMPT_VERSION
  createdAt := b.now
  phase := .pending
  availableAt := b.now
  attemptCount := 0
  failureCode := none

/-- What the batch of `automaticAssistantTitleStatements` is sent with. -/
structure Automatic where
  jobId : String
  conversationId : String
  assistantMessageId : String
  now : ℤ
  deriving DecidableEq, Repr

def Automatic.job (b : Automatic) (c : Conversation) (firstUserMessageId : String) : TitleJob where
  id := b.jobId
  conversationId := c.id
  idempotencyKey := "automatic:" ++ b.assistantMessageId
  requestedBy := .automatic
  inputVersion := c.titleRequestVersion
  expectedTitleRevision := c.titleRevision
  firstUserMessageId := firstUserMessageId
  assistantMessageId := b.assistantMessageId
  maxAttempts := titleJobMaxAttempts
  promptVersion := ASSISTANT_TITLE_PROMPT_VERSION
  createdAt := b.now
  phase := .pending
  availableAt := b.now
  attemptCount := 0
  failureCode := none

namespace Store

/-- The batch of `requestAssistantTitleRegeneration`. -/
def regenerate (s : Store) (b : Regeneration) : Option Store :=
  let s' := s.updateConversations
    (fun c => c.ownerId = b.ownerId && c.id = b.conversationId && c.pendingTitleJobId = none)
    (Conversation.request b.jobId) (Conversation.request_id b.jobId)
  match s'.conversations.rows.find? fun c =>
      c.ownerId = b.ownerId && c.id = b.conversationId && c.pendingTitleJobId = some b.jobId with
  | none => some s'
  | some c => s'.insertJob (b.job c)

/-- The batch of `scheduleAutomaticAssistantTitle`; without a message of the user,
    the insertion aborts. -/
def automatic (s : Store) (b : Automatic) : Option Store :=
  let s' := s.updateConversations
    (fun c => c.id = b.conversationId && c.titleSource = .provisional && c.titleRequestVersion = 0 &&
      c.pendingTitleJobId = none && s.messages.rows.any fun m =>
        m.id = b.assistantMessageId && m.conversationId = c.id && m.role = .assistant)
    (Conversation.request b.jobId) (Conversation.request_id b.jobId)
  match s'.conversations.rows.find? fun c => c.pendingTitleJobId = some b.jobId with
  | none => some s'
  | some c =>
    match s'.firstMessage c.id .user with
    | none => none
    | some m => s'.insertJob (b.job c m.id)

/-! ## Claiming -/

/-- The first two statements of `claimAssistantTitleJob`: lapsed leases of spent
    jobs. -/
def failLapsed (s : Store) (now : ℤ) : Store :=
  (s.updateConversations
    (fun c => c.pendingTitleJobId.any fun id => s.jobs.rows.any fun j => j.id = id && j.lapsed now && j.spent)
    Conversation.clear Conversation.clear_id).updateJobs (fun j => j.lapsed now && j.spent)
      (TitleJob.become (.failed now) none (some "LEASE_EXPIRED"))
      (TitleJob.become_key (.failed now) none (some "LEASE_EXPIRED"))

/-- The third one: the other lapsed leases. -/
def giveBack (s : Store) (now : ℤ) : Store :=
  s.updateJobs (fun j => j.lapsed now && !j.spent) (TitleJob.become .pending (some now) (some "LEASE_EXPIRED"))
    (TitleJob.become_key .pending (some now) (some "LEASE_EXPIRED"))

/-- The job that the last statement selects. -/
def nextJob (s : Store) (now : ℤ) : Option TitleJob :=
  Table.firstBy TitleJob.notAfter (s.jobs.rows.filter fun j => j.phase = .pending && decide (j.availableAt ≤ now))

/-- The batch of `claimAssistantTitleJob`. -/
def claim (s : Store) (workerId leaseToken : String) (now : ℤ) : Store :=
  let swept := (s.failLapsed now).giveBack now
  let lease : Lease := ⟨workerId, leaseToken, now + titleJobLease⟩
  match swept.nextJob now with
  | none => swept
  | some j =>
    { swept.updateJobs (fun j' => j'.id = j.id) (TitleJob.claimed lease) (TitleJob.claimed_key lease) with
      returned := (leaseToken, j.claimed lease) :: swept.returned }

end Store

/-! ## Completing -/

/-- What the batch of `completeAssistantTitleJob` is sent with; `conversationId`
    and `expectedTitleRevision` are those of the job that was read. -/
structure Completion where
  id : String
  leaseToken : String
  title : String
  modelVersion : String
  conversationId : String
  expectedTitleRevision : ℕ
  now : ℤ
  deriving DecidableEq, Repr

/-- What the batch of `failAssistantTitleJob` and of `deferAssistantTitleJob` is
    sent with. -/
structure Release where
  id : String
  leaseToken : String
  terminal : Bool
  availableAt : ℤ
  failureCode : String
  now : ℤ
  deriving DecidableEq, Repr

namespace Store

/-- The batch of `completeAssistantTitleJob`. -/
def complete (s : Store) (b : Completion) : Store :=
  (s.updateJobs (fun j => j.id = b.id && j.heldBy b.leaseToken b.now)
      (TitleJob.become (.completed b.title b.modelVersion b.now) none none)
      (TitleJob.become_key (.completed b.title b.modelVersion b.now) none none)).updateConversations
    (fun c => c.id = b.conversationId && c.pendingTitleJobId = some b.id && c.titleRevision = b.expectedTitleRevision)
    (Conversation.retitle b.title .ai) (Conversation.retitle_id b.title .ai)

/-- The batch of `failAssistantTitleJob` and of `deferAssistantTitleJob`. -/
def release (s : Store) (b : Release) : Store :=
  let phase : Phase := if b.terminal then .failed b.now else .pending
  (s.updateJobs (fun j => j.id = b.id && j.heldBy b.leaseToken b.now)
      (TitleJob.become phase (some b.availableAt) (some b.failureCode))
      (TitleJob.become_key phase (some b.availableAt) (some b.failureCode))).updateConversations
    (fun c => c.pendingTitleJobId = some b.id && b.terminal) Conversation.clear Conversation.clear_id

end Store

/-! ## The batches -/

inductive Batch where
  /-- a conversation begins -/
  | converse (id ownerId title : String)
  /-- the user or the assistant says something -/
  | say (m : Message)
  | rename (ownerId conversationId title : String) (now : ℤ)
  | regenerate (b : Regeneration)
  | automatic (b : Automatic)
  | claim (workerId leaseToken : String) (now : ℤ)
  | complete (b : Completion)
  | release (b : Release)
  deriving DecidableEq, Repr

def exec : Batch → Store → Option Store
  | .converse id ownerId title, s =>
    (s.conversations.insertAll [⟨id, ownerId, title, .provisional, 0, 0, none⟩]).map fun conversations =>
      { s with conversations := conversations }
  | .say m, s =>
    if s.conversations.rows.any fun c => c.id = m.conversationId then
      (s.messages.insertAll [m]).map fun messages => { s with messages := messages }
    else none
  | .rename ownerId conversationId title now, s => some (s.rename ownerId conversationId title now)
  | .regenerate b, s => s.regenerate b
  | .automatic b, s => s.automatic b
  | .claim workerId leaseToken now, s => some (s.claim workerId leaseToken now)
  | .complete b, s => some (s.complete b)
  | .release b, s => some (s.release b)

/-- The random id that a batch draws. -/
def Batch.drawn? : Batch → Option String
  | .regenerate b => some b.jobId
  | .automatic b => some b.jobId
  | .claim _ leaseToken _ => some leaseToken
  | _ => none

end Xauusd.Titles
