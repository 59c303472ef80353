/-
  The news questions (`app/api/_shared/news-questions.ts`).

  A question of an owner is admitted by one batch that inserts its conversation,
  its message and itself, or nothing; a worker claims questions and completes,
  fails or defers them.

  * `Locale` is what is taken of the platform's texts;
  * `Store.create` is the batch of `createNewsQuestion`, `Store.existing` the
    query by which its outcome is made out afterwards;
  * `step` is one batch of one request.  Between the batch and the query of a
    question, the batches of other requests may land.

  Instants are in microseconds; a JavaScript clock has milliseconds.
-/
import Xauusd.Lib.IsoTime
import Xauusd.Lib.Machine
import Xauusd.Lib.Sha256
import Xauusd.Lib.Table

namespace Xauusd.Questions

/-- The texts of the platform, and of the modules called. -/
structure Locale where
  /-- `value.normalize("NFKC").trim().replace(/\s+/g, " ")` -/
  normalizedQuestion : String → String
  /-- `value.toLocaleLowerCase("zh-CN")` -/
  lower : String → String
  /-- the keywords that `deriveRetrievalQuery` takes from a lower-case question -/
  keywords : String → String
  /-- `provisionalAssistantTitle` -/
  provisionalAssistantTitle : String → String

def NEWS_QA_PROMPT_VERSION : String := "news-qa-v3"

/-! `NEWS_QUESTION_LIMITS` -/

def activePerOwner : ℕ := 2
def activeGlobal : ℕ := 10
def admittedPerOwnerPerMinute : ℕ := 5
def maxAttempts : ℕ := 3
def questionTtl : ℤ := 30 * IsoTime.minute
def leaseTtl : ℤ := 3 * IsoTime.minute

/-! ## Rows -/

inductive Status where
  | pending
  | processing
  | answered
  | failed
  | rejected
  | expired
  deriving DecidableEq, Repr

def Status.active : Status → Bool
  | pending | processing => true
  | _ => false

/-- A row of `assistant_conversations`. -/
structure Conversation where
  id : String
  ownerId : String
  initialIdempotencyKey : String
  title : String
  createdAt : ℤ
  lastActivityAt : ℤ
  deriving DecidableEq, Repr

inductive Role where
  | user
  | assistant
  deriving DecidableEq, Repr

/-- A row of `assistant_messages` of the source kind `NEWS_QA`. -/
structure Message where
  id : String
  conversationId : String
  role : Role
  content : String
  createdAt : ℤ
  sourceId : String
  deriving DecidableEq, Repr

/-- The columns of a question that no request changes. -/
structure Asked where
  id : String
  ownerId : String
  idempotencyKey : String
  questionHash : String
  question : String
  retrievalQuery : String
  askedAt : ℤ
  expiresAt : ℤ
  maxAttempts : ℕ
  promptVersion : String
  conversationId : String
  userMessageId : String
  deriving DecidableEq, Repr

structure Lease where
  owner : String
  token : String
  expiresAt : ℤ
  deriving DecidableEq, Repr

structure Answer where
  status : String
  text : String
  evidence : List String
  answeredAt : ℤ
  modelVersion : Option String
  deriving DecidableEq, Repr

/-- A row of `news_questions`. -/
structure Question extends Asked where
  status : Status
  availableAt : ℤ
  lease : Option Lease
  attemptCount : ℕ
  failureCode : Option String
  answer : Option Answer
  assistantMessageId : Option String
  deriving DecidableEq, Repr

def Question.key (q : Question) : String := q.id

structure Store where
  conversations : Table Conversation.id
  messages : Table Message.id
  questions : Table Question.key

def Store.empty : Store := ⟨.empty, .empty, .empty⟩

/-! ## Asking -/

/-- A call of `createNewsQuestion`, with the ids it draws. -/
structure AskCall where
  ownerId : String
  idempotencyKey : String
  question : String
  now : ℤ
  questionId : String
  conversationId : String
  userMessageId : String
  deriving DecidableEq, Repr

variable (L : Locale)

/-- What a question is compared by. -/
def Locale.text (question : String) : String := L.lower (L.normalizedQuestion question)

/-- `deriveRetrievalQuery` -/
def deriveRetrievalQuery (question : String) : String := L.keywords (L.text question)

/-- `askedAt.slice(0, 10)` -/
def utcDay (now : ℤ) : String := String.ofList ((IsoTime.isoMillis now).toList.take 10)

/-- `questionHash`: the UTC day and the question -/
def AskCall.questionHash (c : AskCall) : String :=
  sha256 (utcDay c.now ++ "\n" ++ L.text c.question)

def AskCall.conversation (c : AskCall) : Conversation where
  id := c.conversationId
  ownerId := c.ownerId
  initialIdempotencyKey := c.idempotencyKey
  title := L.provisionalAssistantTitle c.question
  createdAt := c.now
  lastActivityAt := c.now

def AskCall.message (c : AskCall) : Message where
  id := c.userMessageId
  conversationId := c.conversationId
  role := .user
  content := c.question
  createdAt := c.now
  sourceId := c.questionId

def AskCall.asked (c : AskCall) : Asked where
  id := c.questionId
  ownerId := c.ownerId
  idempotencyKey := c.idempotencyKey
  questionHash := c.questionHash L
  question := c.question
  retrievalQuery := deriveRetrievalQuery L c.question
  askedAt := c.now
  expiresAt := c.now + questionTtl
  maxAttempts := maxAttempts
  promptVersion := NEWS_QA_PROMPT_VERSION
  conversationId := c.conversationId
  userMessageId := c.userMessageId

def AskCall.row (c : AskCall) : Question where
  toAsked := c.asked L
  status := .pending
  availableAt := c.now
  lease := none
  attemptCount := 0
  failureCode := none
  answer := none
  assistantMessageId := none

/-- `owner_id=? AND status IN ('PENDING','PROCESSING')`, and without the owner. -/
def Store.activeOf (s : Store) (ownerId : String) : ℕ :=
  s.questions.rows.countP fun q => q.ownerId = ownerId && q.status.active

def Store.active (s : Store) : ℕ := s.questions.rows.countP (·.status.active)

/-- `owner_id=? AND asked_at>=?` -/
def Store.recentOf (s : Store) (ownerId : String) (since : ℤ) : ℕ :=
  s.questions.rows.countP fun q => q.ownerId = ownerId && decide (since ≤ q.askedAt)

/-- The three limits are kept. -/
def Store.hasRoom (s : Store) (ownerId : String) (now : ℤ) : Bool :=
  decide (s.activeOf ownerId < activePerOwner) && decide (s.active < activeGlobal) &&
    decide (s.recentOf ownerId (now - IsoTime.minute) < admittedPerOwnerPerMinute)

/-- `owner_id=? AND (idempotency_key=? OR question_hash=?)` -/
def Asked.matchesCall (c : AskCall) (q : Asked) : Bool :=
  q.ownerId = c.ownerId && (q.idempotencyKey = c.idempotencyKey || q.questionHash = c.questionHash L)

/-- The `WHERE` clause of the conversation's insertion. -/
def Store.admits (s : Store) (c : AskCall) : Bool :=
  s.hasRoom c.ownerId c.now && !(s.questions.rows.any fun q => q.matchesCall L c) &&
    !(s.conversations.rows.any fun v =>
      v.ownerId = c.ownerId && v.initialIdempotencyKey = c.idempotencyKey)

/-- `news_questions_require_conversation_insert` aborts an insertion without its
    conversation and its message. -/
def Store.hasThread (s : Store) (q : Asked) : Bool :=
  (s.conversations.rows.any fun v => v.id = q.conversationId && v.ownerId = q.ownerId) &&
    s.messages.rows.any fun m => m.id = q.userMessageId && m.conversationId = q.conversationId && m.role = .user

/-- The batch of `createNewsQuestion`, and the row that its last statement
    returns; `none` when it aborts.  The message and the question are inserted
    under the conversation with the new id. -/
def Store.create (s : Store) (c : AskCall) : Option (Option Question × Store) :=
  let conversations := if s.admits L c then
      s.conversations.insertIgnore (c.conversation L) fun v =>
        v.ownerId = c.ownerId && v.initialIdempotencyKey = c.idempotencyKey
    else s.conversations
  match (conversations.find? c.conversationId).filter fun v => v.ownerId = c.ownerId with
  | none => some (none, { s with conversations := conversations })
  | some _ =>
    let messages := s.messages.insertIgnore c.message fun m => m.sourceId = c.questionId && m.role = .user
    if ({ s with conversations := conversations, messages := messages } : Store).hasThread (c.asked L) then
      let clash : Question → Bool := fun q => q.matchesCall L c
      let inserted := !(s.questions.rows.any fun q => q.key = c.questionId || clash q)
      some (if inserted then some (c.row L) else none,
        ⟨conversations, messages, s.questions.insertIgnore (c.row L) clash⟩)
    else none

/-- What `publicNewsQuestion` shows of a question and its conversation's title. -/
structure PublicQuestion where
  id : String
  conversationId : String
  userMessageId : String
  assistantMessageId : Option String
  conversationTitle : Option String
  question : String
  status : Status
  askedAt : ℤ
  answer : Option Answer
  promptVersion : String
  attemptCount : ℕ
  failureCode : Option String
  deriving DecidableEq, Repr

def publicNewsQuestion (q : Question) (conversationTitle : Option String) : PublicQuestion where
  id := q.id
  conversationId := q.conversationId
  userMessageId := q.userMessageId
  assistantMessageId := q.assistantMessageId
  conversationTitle := conversationTitle
  question := q.question
  status := q.status
  askedAt := q.askedAt
  answer := q.answer
  promptVersion := q.promptVersion
  attemptCount := q.attemptCount
  failureCode := q.failureCode

inductive AskOutcome where
  | created (item : PublicQuestion)
  | existing (item : PublicQuestion)
  | conflict
  | capacity
  /-- `NO_RETRIEVAL_QUERY` -/
  | noRetrievalQuery
  /-- the batch aborted -/
  | aborted
  deriving DecidableEq, Repr

/-- The question with the key first, else the one with the hash. -/
def Store.existing (s : Store) (c : AskCall) : Option Question :=
  (s.questions.rows.find? fun q => q.ownerId = c.ownerId && q.idempotencyKey = c.idempotencyKey).or
    (s.questions.rows.find? fun q => q.ownerId = c.ownerId && q.questionHash = c.questionHash L)

/-- What is made out after a batch that inserted no question. -/
def Store.madeOut (s : Store) (c : AskCall) : AskOutcome :=
  match s.existing L c with
  | none => .capacity
  | some q =>
    if q.idempotencyKey = c.idempotencyKey ∧ q.questionHash ≠ c.questionHash L then .conflict
    else .existing (publicNewsQuestion q ((s.conversations.find? q.conversationId).map (·.title)))

/-- `createNewsQuestion`: the store after its batch, and its outcome, given the
    store that its query reads. -/
def createNewsQuestion (c : AskCall) (s : Store) : Store × (Store → AskOutcome) :=
  if deriveRetrievalQuery L c.question = "" then (s, fun _ => .noRetrievalQuery)
  else
    match s.create L c with
    | none => (s, fun _ => .aborted)
    | some (some row, s') =>
      (s', fun _ => .created (publicNewsQuestion row (some (L.provisionalAssistantTitle c.question))))
    | some (none, s') => (s', fun s'' => s''.madeOut L c)

/-! ## Working -/

def Question.released (status : Status) (failureCode : String) (availableAt : ℤ) (q : Question) : Question :=
  { q with status := status, failureCode := some failureCode, availableAt := availableAt, lease := none }

theorem Question.released_key (status : Status) (failureCode : String) (availableAt : ℤ) (q : Question) :
    (q.released status failureCode availableAt).key = q.key := rfl

/-- `status='PROCESSING' AND lease_expires_at<=? AND expires_at>?` -/
def Question.leaseLapsed (now : ℤ) (q : Question) : Bool :=
  q.status = .processing && (q.lease.any fun l => decide (l.expiresAt ≤ now)) && decide (now < q.expiresAt)

def Question.claimed (lease : Lease) (q : Question) : Question :=
  { q with status := .processing, lease := some lease, attemptCount := q.attemptCount + 1, failureCode := none }

theorem Question.claimed_key (lease : Lease) (q : Question) : (q.claimed lease).key = q.key := rfl

def Store.updateQuestions (s : Store) (p : Question → Bool) (f : Question → Question)
    (hf : ∀ q, (f q).key = q.key) : Store :=
  { s with questions := s.questions.update p f hf }

/-- The sweeps of `claimNewsQuestion`: questions expire, lapsed leases fail or
    are given back. -/
def Store.sweep (s : Store) (now : ℤ) : Store :=
  (((s.updateQuestions (fun q => q.status = .pending && decide (q.expiresAt ≤ now))
      (Question.released .expired "QUESTION_EXPIRED" now) (Question.released_key _ _ _)).updateQuestions
      (fun q => q.status = .processing && decide (q.expiresAt ≤ now))
      (Question.released .expired "QUESTION_EXPIRED" now) (Question.released_key _ _ _)).updateQuestions
      (fun q => q.leaseLapsed now && decide (q.maxAttempts ≤ q.attemptCount))
      (Question.released .failed "LEASE_EXPIRED" now) (Question.released_key _ _ _)).updateQuestions
      (fun q => q.leaseLapsed now && decide (q.attemptCount < q.maxAttempts))
      (Question.released .pending "LEASE_EXPIRED" now) (Question.released_key _ _ _)

/-- `ORDER BY asked_at,id` -/
def Question.before (q q' : Question) : Bool :=
  decide (q.askedAt < q'.askedAt ∨ q.askedAt = q'.askedAt ∧ q.id ≤ q'.id)

/-- The batch of `claimNewsQuestion`. -/
def Store.claim (s : Store) (workerId leaseToken : String) (now : ℤ) : Store :=
  let swept := s.sweep now
  match Table.firstBy Question.before (swept.questions.rows.filter fun q => q.status = .pending &&
    decide (q.availableAt ≤ now) && decide (now < q.expiresAt) && decide (q.attemptCount < q.maxAttempts)) with
  | none => swept
  | some q => swept.updateQuestions (·.id = q.id) (Question.claimed ⟨workerId, leaseToken, now + leaseTtl⟩)
      (Question.claimed_key _)

/-- `id=? AND status='PROCESSING' AND lease_token=? AND lease_expires_at>?` -/
def Question.heldBy (id leaseToken : String) (now : ℤ) (q : Question) : Bool :=
  q.id = id && q.status = .processing && q.lease.any fun l => l.token = leaseToken && decide (now < l.expiresAt)

def Question.answeredWith (a : Answer) (assistantMessageId : String) (q : Question) : Question :=
  { q with
    status := .answered, answer := some a, assistantMessageId := some assistantMessageId
    failureCode := none, lease := none }

theorem Question.answeredWith_key (a : Answer) (assistantMessageId : String) (q : Question) :
    (q.answeredWith a assistantMessageId).key = q.key := rfl

def Conversation.active (now : ℤ) (v : Conversation) : Conversation := { v with lastActivityAt := now }

theorem Conversation.active_id (now : ℤ) (v : Conversation) : (v.active now).id = v.id := rfl

/-- The batch of `completeNewsQuestion`; an answer without its message aborts. -/
def Store.complete (s : Store) (id leaseToken assistantMessageId : String) (a : Answer) (now : ℤ) : Option Store :=
  match s.questions.rows.find? (·.heldBy id leaseToken now) with
  | none => some s
  | some q =>
    let messages := s.messages.insertIgnore ⟨assistantMessageId, q.conversationId, .assistant, a.text, now, id⟩
      fun m => m.sourceId = id && m.role = .assistant
    if messages.rows.any fun m =>
        m.id = assistantMessageId && m.conversationId = q.conversationId && m.role = .assistant then
      some ({ s with
        messages := messages
        conversations := s.conversations.update (·.id = q.conversationId) (Conversation.active now)
          (Conversation.active_id now) }.updateQuestions (·.heldBy id leaseToken now)
          (Question.answeredWith a assistantMessageId) (Question.answeredWith_key _ _))
    else none

/-- The statement of `failNewsQuestion` and of `deferNewsQuestion`. -/
def Store.release (s : Store) (id leaseToken : String) (status : Status) (failureCode : String)
    (availableAt : ℤ) : Store :=
  s.updateQuestions (fun q => q.id = id && q.status = .processing && q.lease.any fun l => l.token = leaseToken)
    (Question.released status failureCode availableAt) (Question.released_key _ _ _)

/-! ## The machine -/

/-- The batches of the requests. -/
inductive Batch where
  | create (c : AskCall)
  | claim (workerId leaseToken : String) (now : ℤ)
  | complete (id leaseToken assistantMessageId : String) (a : Answer) (now : ℤ)
  | release (id leaseToken : String) (status : Status) (failureCode : String) (availableAt : ℤ)

def step (s : Store) : Batch → Unit × Store
  | .create c => ((), (createNewsQuestion L c s).1)
  | .claim workerId leaseToken now => ((), s.claim workerId leaseToken now)
  | .complete id leaseToken assistantMessageId a now =>
    ((), (s.complete id leaseToken assistantMessageId a now).getD s)
  | .release id leaseToken status failureCode availableAt =>
    ((), s.release id leaseToken status failureCode availableAt)

end Xauusd.Questions
