/-
  The requests on memory, as programs of reads and batches
  (`assistant-memory.ts`).

  * `createAssistantPinnedEntry`, `scheduleAssistantCompaction`,
    `claimAssistantCompactionJob`, `completeAssistantCompactionJob`,
    `failAssistantCompactionJob`, `deferAssistantCompactionJob`;
  * `selectSources`: the messages that a job is about;
  * `Request.program`, `step`: the requests interleaved.

  The profile is the one of all requests; the ids that a request draws are its
  arguments.
-/
import Xauusd.Lib.Program
import Xauusd.Memory.Batches

namespace Xauusd.Memory

open Program JsonText

/-- `CompactionScheduleOutcome` -/
inductive ScheduleOutcome where
  | created (job : Job)
  | existing (job : Job)
  | notNeeded
  | notFound
  | deferredCapacity
  | blockedPinnedState
  | blockedSourceTooLarge
  /-- what the caller makes of an error -/
  | scheduleDeferred (error : MemoryError)
  deriving DecidableEq, Repr

/-- The item of a claim. -/
structure ClaimedJob where
  job : Job
  priorSummary : Option Summary
  sourceMessages : List Message

inductive Reply where
  | null
  | pinned (entry : PinnedEntry)
  | scheduled (outcome : ScheduleOutcome)
  | claimed (item : ClaimedJob)
  | completed (jobId : String) (summaryVersion : ℕ) (next : ScheduleOutcome)
  | released (jobId : String)
  | refused (error : MemoryError)
  | recorded

abbrev Handler := Program Store Batch Reply

/-- A read that may fail. -/
def query {α : Type} (f : Store → Except MemoryError α) (refuse : MemoryError → Handler) (next : α → Handler) : Handler :=
  read fun s =>
    match f s with
    | .error e => refuse e
    | .ok a => next a

/-! ## Pins -/

structure PinCall where
  ownerId : String
  conversationId : String
  idempotencyKey : String
  entry : RawPin
  id : String
  now : ℤ

def PinCall.row (c : PinCall) (entry : PinInput) : PinnedEntry where
  toPinInput := entry
  id := c.id
  conversationId := c.conversationId
  idempotencyKey := c.idempotencyKey
  createdBy := .system
  sourceJobId := none
  createdAt := c.now

def Store.pinUnderKey (s : Store) (conversationId idempotencyKey : String) : Option PinnedEntry :=
  s.pins.rows.find? fun p => p.conversationId = conversationId && p.idempotencyKey = idempotencyKey

/-- `conservativeAssistantTokenEstimate([...existingPins, entry])` -/
def pinEstimate (existing : List PinnedEntry) (entries : List PinInput) : ℕ :=
  tokenEstimate (array (existing.map PinnedEntry.json ++ entries.map PinInput.json))

def createAssistantPinnedEntry (L : Locale) (c : PinCall) : Handler :=
  read fun s =>
    if !(s.conversations.rows.any fun r => r.ownerId = c.ownerId && r.id = c.conversationId) then done .null
    else read fun s =>
      match s.pinUnderKey c.conversationId c.idempotencyKey with
      | some replay => done (.pinned replay)
      | none =>
        match parsePinInput L c.entry none with
        | .error e => done (.refused e)
        | .ok entry => read fun s =>
          let origins := s.messages.hits fun m => m.conversationId = c.conversationId && decide (m.id ∈ entry.originMessageIds)
          if origins ≠ entry.originMessageIds.length then done (.refused .invalidPinOrigin)
          else query (fun s => s.listPinnedEntries c.conversationId none) (fun e => done (.refused e)) fun existingPins =>
            if maxPinnedEntries ≤ existingPins.length ∨
                Profile.default.pinnedTokenBudget < pinEstimate existingPins [entry] then
              done (.refused .pinnedStateExceedsBudget)
            else commit (.pin (c.row entry)) fun ok => if !ok then done (.refused .aborted) else
              read fun s =>
                match s.pinUnderKey c.conversationId c.idempotencyKey with
                | some result => done (.pinned result)
                | none => done .null

/-! ## Scheduling -/

/-- The loop of `scheduleAssistantCompaction`: the candidates that fit, or
    none when the first one is too large. -/
def selectSources (budget : ℕ) : ℕ → List Message → List Message
  | _, [] => []
  | sourceTokens, m :: candidates =>
    let tokens := tokenEstimate m.json
    if budget < sourceTokens + tokens then [] else m :: selectSources budget (sourceTokens + tokens) candidates

def sourceTooLarge (budget : ℕ) : List Message → Bool
  | [] => false
  | m :: _ => decide (budget < tokenEstimate m.json)

/-- `sum(length(CAST(m.content AS BLOB)) + 24)` -/
def contentTokens (messages : List Message) : ℕ := (messages.map fun m => bytes m.content.toList + 24).sum

structure ScheduleCall where
  conversationId : String
  jobId : String
  now : ℤ

/-- After the read of the conversation: `conversation` is its row. -/
def scheduleFrom (p : Profile) (c : ScheduleCall) (conversation : Conversation) (next : ScheduleOutcome → Handler) : Handler :=
  query (fun s => s.currentSummary c.conversationId conversation.summaryVersion) (fun e => next (.scheduleDeferred e)) fun summary =>
  query (fun s => s.listPinnedEntries c.conversationId none) (fun e => next (.scheduleDeferred e)) fun pins =>
    let pinnedTokens := tokenEstimate (array (pins.map PinnedEntry.json))
    if p.pinnedTokenBudget < pinnedTokens then next .blockedPinnedState
    else read fun s =>
      let estimatedContextTokens := p.reservedTokens + pinnedTokens + (summary.map (·.estimatedTokens)).getD 0 +
        contentTokens (Store.afterCover summary (s.log c.conversationId))
      read fun s =>
        match Store.recentBoundary p.recentTurnLimit (s.log c.conversationId) with
        | none => next .notNeeded
        | some boundary => read fun s =>
          let candidates := ((Store.afterCover summary (s.log c.conversationId)).filter fun m =>
            decide (m.place < boundary.place)).take p.compactionMessageLimit
          let selected := selectSources p.compactionSourceTokenBudget 0 candidates
          if sourceTooLarge p.compactionSourceTokenBudget candidates then next .blockedSourceTooLarge
          else if selected = [] then next .notNeeded
          else commit (.schedule
              { jobId := c.jobId, conversationId := c.conversationId, summaryVersion := conversation.summaryVersion
                priorRequestVersion := conversation.compactionRequestVersion
                sourceMessageIds := selected.map (·.id), pinnedSnapshot := pins.map PinnedEntry.snapshot
                contextProfileId := p.id, capacityState := classifyAssistantContextCapacity estimatedContextTokens p
                estimatedContextTokens := estimatedContextTokens, now := c.now }) fun ok =>
            if !ok then next (.scheduleDeferred .aborted)
            else read fun s =>
              match s.jobs.find? c.jobId with
              | some job => next (.created job)
              | none => read fun s =>
                match s.jobs.rows.find? fun j => j.conversationId = c.conversationId &&
                    j.outputSummaryVersion = conversation.summaryVersion + 1 && j.phase.active with
                | some job => next (.existing job)
                | none => next .deferredCapacity

def scheduleAssistantCompaction (p : Profile) (c : ScheduleCall) (next : ScheduleOutcome → Handler) : Handler :=
  if !validateProfile p then next (.scheduleDeferred .invalidProfile)
  else read fun s =>
    match s.conversations.find? c.conversationId with
    | none => next .notFound
    | some conversation =>
      match conversation.pendingCompactionJobId with
      | none => scheduleFrom p c conversation next
      | some id => read fun s =>
        match s.jobs.find? id with
        | some job => next (.existing job)
        | none => scheduleFrom p c conversation next

/-! ## Failing and deferring -/

/-- The job with the id, when the lease is the caller's. -/
def Store.heldJob (s : Store) (id leaseToken : String) (now : ℤ) : Option Job :=
  (s.jobs.find? id).filter (·.heldBy leaseToken now)

/-- `/^[A-Z0-9_]{3,64}$/` -/
def isFailureCode (code : String) : Bool :=
  code.toList.all (fun c => c.isUpper || c.isDigit || c = '_') && decide (3 ≤ code.toList.length) &&
    decide (code.toList.length ≤ 64)

/-- What `failAssistantCompactionJob` and `deferAssistantCompactionJob` do with
    the job; `delay` is the wait after so many attempts. -/
def releaseJob (id leaseToken failureCode : String) (delay : ℕ → ℤ) (now : ℤ) (next : Handler) : Handler :=
  read fun s =>
    match s.heldJob id leaseToken now with
    | none => done .null
    | some job =>
      commit (.release
          { id := id, leaseToken := leaseToken, terminal := job.spent
            availableAt := if job.spent then now else now + delay job.attemptCount
            failureCode := failureCode, now := now }) fun ok =>
        if ok then next else done (.refused .aborted)

def failAssistantCompactionJob (id leaseToken failureCode : String) (now : ℤ) (next : Handler) : Handler :=
  if !isFailureCode failureCode then done (.refused .invalidFailureCode)
  else releaseJob id leaseToken failureCode
    (fun attempts => min 120 (30 * 2 ^ (attempts - 1)) * IsoTime.second) now next

def deferAssistantCompactionJob (id leaseToken : String) (now : ℤ) (next : Handler) : Handler :=
  releaseJob id leaseToken "NO_MODEL_CAPACITY" (fun _ => 60 * IsoTime.second) now next

/-! ## Claiming -/

/-- The messages of a conversation with the ids, `ORDER BY created_at,id` -/
def Store.messagesOf (s : Store) (conversationId : String) (ids : List String) : List Message :=
  (s.log conversationId).filter fun m => m.id ∈ ids

def claimAssistantCompactionJob (workerId leaseToken : String) (now : ℤ) : Handler :=
  commit (.claim workerId leaseToken now) fun ok => if !ok then done (.refused .aborted) else
    read fun s =>
      match s.claims.lookup leaseToken with
      | none => done .null
      | some job => read fun s =>
        let messages := s.messagesOf job.conversationId job.sourceMessageIds
        if messages.map (·.id) ≠ job.sourceMessageIds then
          failAssistantCompactionJob job.id leaseToken "COMPACTION_CONTEXT_MISSING" now (done .null)
        else query (fun s => s.currentSummary job.conversationId job.priorSummaryVersion) (fun e => done (.refused e))
          fun priorSummary => done (.claimed ⟨job, priorSummary, messages⟩)

/-! ## Completing -/

structure CompleteCall where
  id : String
  leaseToken : String
  promptVersion : String
  contextProfileId : String
  modelVersion : String
  /-- `parseAssistantRoutingProvenance` takes the routing -/
  routingValid : Bool
  summary : String
  coveredMessageIds : List String
  pinnedEntries : List RawPin
  summaryId : String
  /-- the ids that the new entries draw -/
  pinIds : ℕ → String
  now : ℤ
  /-- the schedule of the next job -/
  nextJobId : String

/-- `estimatedTokens` of the summary -/
def summaryEstimate (content : String) (anchors : SummaryAnchors) : ℕ :=
  tokenEstimate (object [("content", quote content), ("anchors", anchors.json)])

/-- `parsePinInput` of a list -/
def parsePins (L : Locale) (allowedOrigins : Option (List String)) : List RawPin → Except MemoryError (List PinInput)
  | [] => .ok []
  | raw :: raws => do
    let p ← parsePinInput L raw allowedOrigins
    let ps ← parsePins L allowedOrigins raws
    return p :: ps

/-- What `completeAssistantCompactionJob` takes from the request, given the job. -/
def CompleteCall.parse (L : Locale) (p : Profile) (c : CompleteCall) (job : Job) :
    Except MemoryError (String × String × List PinInput) := do
  if c.promptVersion ≠ job.promptVersion ∨ c.contextProfileId ≠ job.contextProfileId ∨ job.contextProfileId ≠ p.id then
    .error .invalidCompactionProvenance
  let modelVersion ← canonicalText L c.modelVersion 120
  if !c.routingValid then .error .invalidCompactionProvenance
  let content ← canonicalText L c.summary maxSummaryCharacters
  let covered ← orderedUniqueStrings L c.coveredMessageIds 128
  if covered ≠ job.sourceMessageIds then .error .incompleteCompactionCoverage
  if maxGeneratedPins < c.pinnedEntries.length then .error .invalidCompactionResult
  let pins ← parsePins L (some job.sourceMessageIds) c.pinnedEntries
  return (modelVersion, content, pins)

/-- The checks on the entries and the summary together, and the anchors of the
    summary. -/
def CompleteCall.measure (L : Locale) (p : Profile) (job : Job) (content : String) (pins : List PinInput)
    (messages : List Message) (priorSummary : Option Summary) : Except MemoryError SummaryAnchors := do
  let snapshotPins ← parsePins L none (job.pinnedSnapshot.map SnapshotPin.raw)
  if maxPinnedEntries < snapshotPins.length + pins.length ∨
      p.pinnedTokenBudget < pinEstimate [] (snapshotPins ++ pins) then
    .error .pinnedStateExceedsBudget
  let anchors ← mergedAnchors L (priorSummary.map (·.anchors)) (messages.map (·.provenance)) (snapshotPins ++ pins)
  if p.summaryTokenBudget < summaryEstimate content anchors then .error .summaryExceedsBudget
  return anchors

def completeAssistantCompactionJob (L : Locale) (p : Profile) (c : CompleteCall) : Handler :=
  if !validateProfile p then done (.refused .invalidProfile)
  else read fun s =>
    match s.heldJob c.id c.leaseToken c.now with
    | none => done .null
    | some job =>
      match c.parse L p job with
      | .error e => done (.refused e)
      | .ok (modelVersion, content, pins) => read fun s =>
        let messages := s.messagesOf job.conversationId job.sourceMessageIds
        match messages.getLast? with
        | none => done (.refused .compactionContextMissing)
        | some last =>
          if messages.map (·.id) ≠ job.sourceMessageIds then done (.refused .compactionContextMissing)
          else query (fun s => s.currentSummary job.conversationId job.priorSummaryVersion) (fun e => done (.refused e))
            fun priorSummary =>
              match CompleteCall.measure L p job content pins messages priorSummary with
              | .error e => done (.refused e)
              | .ok anchors =>
                commit (.complete
                    { id := c.id, leaseToken := c.leaseToken, conversationId := job.conversationId
                      priorSummaryVersion := job.priorSummaryVersion, outputSummaryVersion := job.outputSummaryVersion
                      modelVersion := modelVersion, summaryId := c.summaryId
                      priorSummaryId := priorSummary.map (·.id), coveredThroughCreatedAt := last.createdAt
                      content := content, anchors := anchors, estimatedTokens := summaryEstimate content anchors
                      contextProfileId := p.id, promptVersion := job.promptVersion
                      pins := pins.mapIdx fun i pin => (c.pinIds i, pin), now := c.now }) fun ok =>
                  if !ok then done (.refused .aborted)
                  else read fun s =>
                    -- the rows that the batch returned
                    if s.summaries.rows.any fun x => x.id = c.summaryId then
                      scheduleAssistantCompaction p ⟨job.conversationId, c.nextJobId, c.now⟩ fun next =>
                        done (.completed c.id job.outputSummaryVersion next)
                    else done .null

/-! ## The machine -/

inductive Request where
  | converse (id ownerId : String)
  | say (m : Message)
  | pin (c : PinCall)
  | schedule (c : ScheduleCall)
  | claim (workerId leaseToken : String) (now : ℤ)
  | complete (c : CompleteCall)
  | fail (id leaseToken failureCode : String) (now : ℤ)
  | defer (id leaseToken : String) (now : ℤ)

def Request.program (L : Locale) (p : Profile) : Request → Handler
  | .converse id ownerId => commit (.converse id ownerId) fun _ => done .recorded
  | .say m => commit (.say m) fun _ => done .recorded
  | .pin c => createAssistantPinnedEntry L c
  | .schedule c => scheduleAssistantCompaction p c fun outcome => done (.scheduled outcome)
  | .claim workerId leaseToken now => claimAssistantCompactionJob workerId leaseToken now
  | .complete c => completeAssistantCompactionJob L p c
  | .fail id leaseToken failureCode now => failAssistantCompactionJob id leaseToken failureCode now (done (.released id))
  | .defer id leaseToken now => deferAssistantCompactionJob id leaseToken now (done (.released id))

abbrev World := Logged Store Batch

abbrev MemoryFlight := Flight Store Batch Reply

abbrev MemoryAction := FlightAction Request

def step (L : Locale) (p : Profile) : MemoryFlight → MemoryAction → Unit × MemoryFlight :=
  Flight.step exec (Request.program L p)

def MemoryFlight.initial : MemoryFlight := ⟨⟨.empty, []⟩, []⟩

end Xauusd.Memory
