/-
  The requests on titles, as programs of reads and one batch each
  (`assistant-conversations.ts`).

  * `renameOwnerAssistantConversation`, `requestAssistantTitleRegeneration`,
    `scheduleAutomaticAssistantTitle`, `claimAssistantTitleJob`,
    `completeAssistantTitleJob`, `failAssistantTitleJob`,
    `deferAssistantTitleJob`;
  * `Request.program`, `step`: the requests interleaved.

  The ids that a request draws are its arguments.
-/
import Xauusd.Lib.Program
import Xauusd.Lib.Text
import Xauusd.Titles.Store

namespace Xauusd.Titles

open Program

/-- `TitleRegenerationOutcome`; of the row of a job the code sends the id and the
    status. -/
inductive TitleRegenerationOutcome where
  | created (job : TitleJob)
  | existing (job : TitleJob)
  | notFound
  | noAssistantMessage
  | alreadyPending
  deriving DecidableEq, Repr

/-- The item of a claim. -/
structure ClaimedJob where
  job : TitleJob
  firstUserMessage : String
  latestAssistantMessage : String

inductive Reply where
  | null
  | recorded
  | regenerated (conversationId : String) (outcome : TitleRegenerationOutcome)
  | claimed (item : ClaimedJob)
  /-- `INVALID_TITLE_PROVENANCE`, `INVALID_TITLE`, `INVALID_FAILURE_CODE` -/
  | refused
  /-- the batch aborted -/
  | aborted

abbrev Handler := Program Store Batch Reply

/-- `owner_id=? AND id=?` -/
def Store.owned (s : Store) (ownerId conversationId : String) : Option Conversation :=
  s.conversations.rows.find? fun c => c.ownerId = ownerId && c.id = conversationId

/-! ## Regeneration -/

structure RegenerateCall where
  ownerId : String
  conversationId : String
  idempotencyKey : String
  now : ℤ
  jobId : String

/-- `c.owner_id=? AND c.id=? AND j.idempotency_key=?` -/
def Store.jobUnderKey (s : Store) (c : RegenerateCall) : Option TitleJob :=
  s.jobs.rows.find? fun j => j.conversationId = c.conversationId && j.idempotencyKey = c.idempotencyKey &&
    (s.owned c.ownerId c.conversationId).isSome

def requestAssistantTitleRegeneration (c : RegenerateCall) : Handler :=
  read fun s =>
    match s.jobUnderKey c with
    | some job => done (.regenerated c.conversationId (.existing job))
    | none => read fun s =>
      match s.owned c.ownerId c.conversationId with
      | none => done (.regenerated c.conversationId .notFound)
      | some conversation => read fun s =>
        match s.firstMessage c.conversationId .user, s.lastMessage c.conversationId .assistant with
        | some firstUserMessage, some assistantMessage =>
          if conversation.pendingTitleJobId.isSome then done (.regenerated c.conversationId .alreadyPending)
          else
            commit (.regenerate ⟨c.jobId, c.ownerId, c.conversationId, c.idempotencyKey, firstUserMessage.id,
                assistantMessage.id, c.now⟩) fun ok =>
              if !ok then done .aborted
              else read fun s =>
                match s.returned.lookup c.jobId with
                | some job => done (.regenerated c.conversationId (.created job))
                | none => read fun s =>
                  match s.jobUnderKey c with
                  | some replay => done (.regenerated c.conversationId (.existing replay))
                  | none => done (.regenerated c.conversationId .alreadyPending)
        | _, _ => done (.regenerated c.conversationId .noAssistantMessage)

/-! ## Failing and deferring -/

/-- The job with the id, when the lease is the caller's. -/
def Store.heldJob (s : Store) (id leaseToken : String) (now : ℤ) : Option TitleJob :=
  (s.jobs.find? id).filter (·.heldBy leaseToken now)

/-- `/^[A-Z0-9_]{3,64}$/` -/
def isFailureCode (code : String) : Bool :=
  code.toList.all (fun c => c.isUpper || c.isDigit || c = '_') && decide (3 ≤ code.toList.length) &&
    decide (code.toList.length ≤ 64)

/-- What `failAssistantTitleJob` and `deferAssistantTitleJob` do with the job;
    `delay` is the wait after so many attempts. -/
def releaseTitleJob (id leaseToken failureCode : String) (delay : ℕ → ℤ) (now : ℤ) : Handler :=
  read fun s =>
    match s.heldJob id leaseToken now with
    | none => done .null
    | some job =>
      commit (.release
          { id := id, leaseToken := leaseToken, terminal := job.spent
            availableAt := if job.spent then now else now + delay job.attemptCount
            failureCode := failureCode, now := now }) fun ok =>
        if ok then done .recorded else done .aborted

/-- `failureCode` is trimmed and in upper case. -/
def failAssistantTitleJob (id leaseToken failureCode : String) (now : ℤ) : Handler :=
  if !isFailureCode failureCode then done .refused
  else releaseTitleJob id leaseToken failureCode
    (fun attempts => min 120 (30 * 2 ^ (attempts - 1)) * IsoTime.second) now

def deferAssistantTitleJob (id leaseToken : String) (now : ℤ) : Handler :=
  releaseTitleJob id leaseToken "NO_MODEL_CAPACITY" (fun _ => 60 * IsoTime.second) now

/-! ## Claiming -/

/-- `conversation_id=? AND id=? AND role=?`, the first characters of its content. -/
def Store.excerpt (s : Store) (conversationId id : String) (role : Role) (length : ℕ) : Option String :=
  (s.messages.rows.find? fun m => m.conversationId = conversationId && m.id = id && m.role = role).map fun m =>
    String.ofList (m.content.toList.take length)

def claimAssistantTitleJob (workerId leaseToken : String) (now : ℤ) : Handler :=
  commit (.claim workerId leaseToken now) fun ok =>
    if !ok then done .aborted
    else read fun s =>
      match s.returned.lookup leaseToken with
      | none => done .null
      | some job => read fun s =>
        match s.excerpt job.conversationId job.firstUserMessageId .user 1000,
            s.excerpt job.conversationId job.assistantMessageId .assistant 2000 with
        | some firstUserMessage, some latestAssistantMessage =>
          done (.claimed ⟨job, firstUserMessage, latestAssistantMessage⟩)
        | _, _ => failAssistantTitleJob job.id leaseToken "TITLE_CONTEXT_MISSING" now

/-! ## Completing -/

structure CompleteCall where
  id : String
  leaseToken : String
  /-- what `parseGeneratedAssistantTitle` makes of the title -/
  title : Option String
  modelVersion : String
  promptVersion : String
  /-- `parseAssistantRoutingProvenance` takes the routing -/
  routingValid : Bool
  now : ℤ

/-- A version is not empty, and has 120 units at most. -/
def isVersion (text : String) : Bool := decide (text ≠ "") && decide (Text.utf16Length text ≤ 120)

def completeAssistantTitleJob (c : CompleteCall) : Handler :=
  match c.title with
  | none => done .refused
  | some title =>
    if !(isVersion c.modelVersion && isVersion c.promptVersion && c.routingValid) then done .refused
    else read fun s =>
      match s.heldJob c.id c.leaseToken c.now with
      | none => done .null
      | some job =>
        if c.promptVersion ≠ job.promptVersion then done .refused
        else
          commit (.complete ⟨c.id, c.leaseToken, title, c.modelVersion, job.conversationId,
              job.expectedTitleRevision, c.now⟩) fun ok =>
            if ok then done .recorded else done .aborted

/-! ## The machine -/

inductive Request where
  | converse (id ownerId title : String)
  | say (m : Message)
  | rename (ownerId conversationId title : String) (now : ℤ)
  | regenerate (c : RegenerateCall)
  | automatic (b : Automatic)
  | claim (workerId leaseToken : String) (now : ℤ)
  | complete (c : CompleteCall)
  | fail (id leaseToken failureCode : String) (now : ℤ)
  | defer (id leaseToken : String) (now : ℤ)

def Request.program : Request → Handler
  | .converse id ownerId title => commit (.converse id ownerId title) fun _ => done .recorded
  | .say m => commit (.say m) fun _ => done .recorded
  | .rename ownerId conversationId title now =>
    commit (.rename ownerId conversationId title now) fun _ => done .recorded
  | .regenerate c => requestAssistantTitleRegeneration c
  | .automatic b => commit (.automatic b) fun _ => done .recorded
  | .claim workerId leaseToken now => claimAssistantTitleJob workerId leaseToken now
  | .complete c => completeAssistantTitleJob c
  | .fail id leaseToken failureCode now => failAssistantTitleJob id leaseToken failureCode now
  | .defer id leaseToken now => deferAssistantTitleJob id leaseToken now

abbrev World := Logged Store Batch

abbrev TitleFlight := Flight Store Batch Reply

abbrev TitleAction := FlightAction Request

def step : TitleFlight → TitleAction → Unit × TitleFlight := Flight.step exec Request.program

def TitleFlight.initial : TitleFlight := ⟨⟨.empty, []⟩, []⟩

end Xauusd.Titles
