/-
  The memory of a conversation (`app/api/_shared/assistant-memory.ts`,
  `0010_assistant_memory_compaction.sql`): its profile, its limits and its rows.

  * `Profile`, `validateProfile`: the token budgets of a context;
  * `tokenEstimate`: what a JSON text counts for;
  * `PinInput`, `PinnedEntry`, `Summary`, `Job`: what is stored of compaction;
  * `parsePinInput`, `mergedAnchors`: what a request may store.

  Instants are in microseconds; a JavaScript clock has milliseconds.
-/
import Xauusd.Lib.IsoTime
import Xauusd.Lib.Json
import Xauusd.Lib.JsonText
import Xauusd.Lib.Table

namespace Xauusd.Memory

open JsonText

def ASSISTANT_COMPACTION_PROMPT_VERSION : String := "assistant-compaction-v1"

/-- The texts of the platform. -/
structure Locale where
  /-- `value.normalize("NFKC").trim()` -/
  canonical : String → String

/-! ## Profiles -/

/-- `AssistantContextProfile` -/
structure Profile where
  id : String
  contextLimitTokens : ℕ
  greenThresholdRatio : ℚ
  yellowThresholdRatio : ℚ
  reservedSystemTokens : ℕ
  reservedToolDefinitionTokens : ℕ
  reservedReasoningTokens : ℕ
  reservedOutputTokens : ℕ
  pinnedTokenBudget : ℕ
  summaryTokenBudget : ℕ
  historicalMemoryTokenBudget : ℕ
  recentTurnsTokenBudget : ℕ
  currentUserTokenBudget : ℕ
  toolEvidenceTokenBudget : ℕ
  recentTurnLimit : ℕ
  recentMessageLimit : ℕ
  compactionMessageLimit : ℕ
  compactionSourceTokenBudget : ℕ

/-- `DEFAULT_ASSISTANT_CONTEXT_PROFILE` -/
def Profile.default : Profile where
  id := "assistant-context-256k-v2"
  contextLimitTokens := 262144
  greenThresholdRatio := 60 / 100
  yellowThresholdRatio := 82 / 100
  reservedSystemTokens := 2048
  reservedToolDefinitionTokens := 2048
  reservedReasoningTokens := 16384
  reservedOutputTokens := 8192
  pinnedTokenBudget := 8192
  summaryTokenBudget := 16384
  historicalMemoryTokenBudget := 16384
  recentTurnsTokenBudget := 98304
  currentUserTokenBudget := 16384
  toolEvidenceTokenBudget := 32768
  recentTurnLimit := 24
  recentMessageLimit := 96
  compactionMessageLimit := 48
  compactionSourceTokenBudget := 98304

namespace Profile

/-- `profileReservedTokens` -/
def reservedTokens (p : Profile) : ℕ :=
  p.reservedSystemTokens + p.reservedToolDefinitionTokens + p.reservedReasoningTokens + p.reservedOutputTokens

/-- `integerFields` -/
def integerFields (p : Profile) : List ℕ :=
  [p.contextLimitTokens, p.reservedSystemTokens, p.reservedToolDefinitionTokens, p.reservedReasoningTokens,
    p.reservedOutputTokens, p.pinnedTokenBudget, p.summaryTokenBudget, p.historicalMemoryTokenBudget,
    p.recentTurnsTokenBudget, p.currentUserTokenBudget, p.toolEvidenceTokenBudget, p.recentTurnLimit,
    p.recentMessageLimit, p.compactionMessageLimit, p.compactionSourceTokenBudget]

/-- `/^[A-Za-z0-9._:-]{3,96}$/` -/
def isProfileId (id : String) : Bool :=
  id.toList.all (fun c => c.isAlphanum || c ∈ ['.', '_', ':', '-']) && decide (3 ≤ id.toList.length) &&
    decide (id.toList.length ≤ 96)

end Profile

/-- `validateProfile` lets the profile pass. -/
def validateProfile (p : Profile) : Bool :=
  Profile.isProfileId p.id && p.integerFields.all (fun n => decide (0 < n) && decide (n < 2 ^ 53)) &&
    decide (0 < p.greenThresholdRatio) && decide (p.greenThresholdRatio < p.yellowThresholdRatio) &&
    decide (p.yellowThresholdRatio < 1) && decide (p.reservedTokens < p.contextLimitTokens)

inductive CapacityState where
  | green
  | yellow
  | red
  deriving DecidableEq, Repr

/-- `classifyAssistantContextCapacity` -/
def classifyAssistantContextCapacity (estimatedTokens : ℕ) (p : Profile) : CapacityState :=
  let ratio : ℚ := estimatedTokens / p.contextLimitTokens
  if ratio < p.greenThresholdRatio then .green
  else if ratio < p.yellowThresholdRatio then .yellow
  else .red

/-! `ASSISTANT_MEMORY_LIMITS` -/

def compactionLease : ℤ := 3 * IsoTime.minute
def compactionMaxAttempts : ℕ := 3
def maxPinnedEntries : ℕ := 64
def maxGeneratedPins : ℕ := 24
def maxPinContentCharacters : ℕ := 1200
def maxSummaryCharacters : ℕ := 8000
def maxReferenceItems : ℕ := 64
def maxAnchorItems : ℕ := 512
def activeCompactionsPerOwner : ℕ := 2
def activeCompactionsGlobal : ℕ := 20

/-- `conservativeAssistantTokenEstimate` of a value with the given JSON text -/
def tokenEstimate (text : List Char) : ℕ := max 1 (bytes text + 8)

/-- The codes of `AssistantConversationInputError`, and how an aborted batch and
    a profile that is refused come out. -/
inductive MemoryError where
  | invalidCompactionResult
  | pinnedStateExceedsBudget
  | summaryStateInvalid
  | currentUserMessageNotFound
  | contextLayerExceedsBudget
  | compactionRequired
  | recentTurnsExceedBudget
  | summaryExceedsBudget
  | historicalMemoryExceedsBudget
  | currentUserExceedsBudget
  | toolEvidenceExceedsBudget
  | requiredContextExceedsBudget
  | invalidPinOrigin
  | summaryAnchorsExceedBudget
  | invalidCompactionProvenance
  | incompleteCompactionCoverage
  | compactionContextMissing
  | invalidFailureCode
  | invalidProfile
  /-- an error of the retrieval of other conversations' memory -/
  | historicalMemory
  | aborted
  deriving DecidableEq, Repr

/-! ## References -/

/-- `validReference` -/
def validReference (value : String) : Bool :=
  decide (1 ≤ value.toList.length) && decide (value.toList.length ≤ 256) &&
    !(value.toList.any fun c => decide (c.toNat < 32) || decide (c.toNat = 127))

/-- The items in the order of their first occurrences. -/
def unique (items : List String) : List String :=
  items.foldl (fun seen item => if item ∈ seen then seen else seen ++ [item]) []

/-- `orderedUniqueStrings`; `items` is the array, each item as a text. -/
def orderedUniqueStrings (L : Locale) (items : List String) (maximum : ℕ) : Except MemoryError (List String) :=
  if maximum < items.length ∨ ¬ ∀ item ∈ items, validReference (L.canonical item) = true then
    .error .invalidCompactionResult
  else .ok (unique (items.map L.canonical))

/-- `canonicalText` -/
def canonicalText (L : Locale) (value : String) (maximum : ℕ) : Except MemoryError String :=
  let text := L.canonical value
  if text = "" ∨ maximum < Text.utf16Length text then .error .invalidCompactionResult else .ok text

/-! ## Pins -/

/-- `ASSISTANT_PIN_KINDS` -/
inductive PinKind where
  | constraint
  | unresolved
  | decision
  | taskScope
  | evidenceRef
  | toolArtifact
  | importantTimestamp
  | topic
  deriving DecidableEq, Repr

def PinKind.text : PinKind → String
  | constraint => "CONSTRAINT"
  | unresolved => "UNRESOLVED"
  | decision => "DECISION"
  | taskScope => "TASK_SCOPE"
  | evidenceRef => "EVIDENCE_REF"
  | toolArtifact => "TOOL_ARTIFACT"
  | importantTimestamp => "IMPORTANT_TIMESTAMP"
  | topic => "TOPIC"

def PinKind.all : List PinKind :=
  [constraint, unresolved, decision, taskScope, evidenceRef, toolArtifact, importantTimestamp, topic]

/-- `CompactionPinInput` -/
structure PinInput where
  kind : PinKind
  content : String
  originMessageIds : List String
  evidenceIds : List String
  sourceRefs : List String
  importantTimestamps : List String
  toolRefs : List String
  artifactRefs : List String
  deriving DecidableEq, Repr

/-- An entry of a request, each of its values as a text. -/
structure RawPin where
  kind : String
  content : String
  originMessageIds : List String
  evidenceIds : List String
  sourceRefs : List String
  importantTimestamps : List String
  toolRefs : List String
  artifactRefs : List String
  deriving DecidableEq, Repr

/-- `parsePinInput`; `allowedOrigins` is none when any will do. -/
def parsePinInput (L : Locale) (raw : RawPin) (allowedOrigins : Option (List String)) : Except MemoryError PinInput := do
  match PinKind.all.find? fun k => k.text = Text.upper raw.kind with
  | none => .error .invalidCompactionResult
  | some kind =>
    let origins ← orderedUniqueStrings L raw.originMessageIds maxReferenceItems
    if origins = [] ∨ ¬ ∀ allowed ∈ allowedOrigins, ∀ id ∈ origins, id ∈ allowed then
      .error .invalidCompactionResult
    else
      let content ← canonicalText L raw.content maxPinContentCharacters
      let evidenceIds ← orderedUniqueStrings L raw.evidenceIds maxReferenceItems
      let sourceRefs ← orderedUniqueStrings L raw.sourceRefs maxReferenceItems
      let importantTimestamps ← orderedUniqueStrings L raw.importantTimestamps maxReferenceItems
      let toolRefs ← orderedUniqueStrings L raw.toolRefs maxReferenceItems
      let artifactRefs ← orderedUniqueStrings L raw.artifactRefs maxReferenceItems
      return ⟨kind, content, origins, evidenceIds, sourceRefs, importantTimestamps, toolRefs, artifactRefs⟩

inductive CreatedBy where
  | system
  | compaction
  deriving DecidableEq, Repr

/-- A row of `assistant_pinned_entries`. -/
structure PinnedEntry extends PinInput where
  id : String
  conversationId : String
  idempotencyKey : String
  createdBy : CreatedBy
  sourceJobId : Option String
  createdAt : ℤ
  deriving DecidableEq, Repr

def PinnedEntry.key (p : PinnedEntry) : String := p.id

/-- An entry of `pinned_snapshot_json`. -/
structure SnapshotPin extends PinInput where
  id : String
  deriving DecidableEq, Repr

def PinnedEntry.snapshot (p : PinnedEntry) : SnapshotPin := ⟨p.toPinInput, p.id⟩

/-- The entry as a request gives it back. -/
def SnapshotPin.raw (p : SnapshotPin) : RawPin :=
  ⟨p.kind.text, p.content, p.originMessageIds, p.evidenceIds, p.sourceRefs, p.importantTimestamps, p.toolRefs,
    p.artifactRefs⟩

def quotes (items : List String) : List Char := array (items.map quote)

/-- The members of an entry that its input has. -/
def PinInput.members (p : PinInput) : List (String × List Char) :=
  [("kind", quote p.kind.text), ("content", quote p.content), ("origin_message_ids", quotes p.originMessageIds),
    ("evidence_ids", quotes p.evidenceIds), ("source_refs", quotes p.sourceRefs),
    ("important_timestamps", quotes p.importantTimestamps), ("tool_refs", quotes p.toolRefs),
    ("artifact_refs", quotes p.artifactRefs)]

def PinInput.json (p : PinInput) : List Char := object p.members

/-- The text of an instant. -/
def instant (t : ℤ) : List Char := quote (IsoTime.isoMillis t)

/-- What `parsePinnedEntry` reads of a row. -/
def PinnedEntry.json (p : PinnedEntry) : List Char :=
  object (("id", quote p.id) :: p.members ++ [("created_at", instant p.createdAt)])

/-- An entry without the instant of its creation. -/
def SnapshotPin.json (p : SnapshotPin) : List Char := object (("id", quote p.id) :: p.members)

/-! ## Anchors -/

/-- `SummaryAnchors` -/
structure SummaryAnchors where
  evidenceIds : List String
  sourceRefs : List String
  importantTimestamps : List String
  toolRefs : List String
  artifactRefs : List String
  deriving DecidableEq, Repr

namespace SummaryAnchors

/-- `emptyAnchors` -/
def empty : SummaryAnchors := ⟨[], [], [], [], []⟩

/-- `anchorKeys` -/
inductive Key where
  | evidenceIds
  | sourceRefs
  | importantTimestamps
  | toolRefs
  | artifactRefs
  deriving DecidableEq, Repr

def Key.ofText : String → Option Key
  | "evidence_ids" => some evidenceIds
  | "source_refs" => some sourceRefs
  | "important_timestamps" => some importantTimestamps
  | "tool_refs" => some toolRefs
  | "artifact_refs" => some artifactRefs
  | _ => none

def values (a : SummaryAnchors) : Key → List String
  | .evidenceIds => a.evidenceIds
  | .sourceRefs => a.sourceRefs
  | .importantTimestamps => a.importantTimestamps
  | .toolRefs => a.toolRefs
  | .artifactRefs => a.artifactRefs

def push (a : SummaryAnchors) (value : String) : Key → SummaryAnchors
  | .evidenceIds => { a with evidenceIds := a.evidenceIds ++ [value] }
  | .sourceRefs => { a with sourceRefs := a.sourceRefs ++ [value] }
  | .importantTimestamps => { a with importantTimestamps := a.importantTimestamps ++ [value] }
  | .toolRefs => { a with toolRefs := a.toolRefs ++ [value] }
  | .artifactRefs => { a with artifactRefs := a.artifactRefs ++ [value] }

/-- `addAnchor` -/
def add (L : Locale) (a : SummaryAnchors) (key : Key) (raw : String) : SummaryAnchors :=
  let value := L.canonical raw
  if validReference value = true ∧ value ∉ a.values key then a.push value key else a

/-- `addAnchor` of a value that may be no text -/
def addJson (L : Locale) (key : Key) (a : SummaryAnchors) : Json → SummaryAnchors
  | .str raw => a.add L key raw
  | _ => a

def json (a : SummaryAnchors) : List Char :=
  object [("evidence_ids", quotes a.evidenceIds), ("source_refs", quotes a.sourceRefs),
    ("important_timestamps", quotes a.importantTimestamps), ("tool_refs", quotes a.toolRefs),
    ("artifact_refs", quotes a.artifactRefs)]

end SummaryAnchors

open SummaryAnchors in
mutual

/-- `collectProvenanceAnchors` -/
def collectProvenanceAnchors (L : Locale) (parent : String) (a : SummaryAnchors) : Json → SummaryAnchors
  | .arr items =>
    match Key.ofText parent with
    | some key => items.foldl (addJson L key) a
    | none => collectItems L parent a items
  | .obj members => collectMembers L a members
  | _ => a

def collectItems (L : Locale) (parent : String) (a : SummaryAnchors) : List Json → SummaryAnchors
  | [] => a
  | item :: items => collectItems L parent (collectProvenanceAnchors L parent a item) items

/-- The members of an object, each by its key. -/
def collectMembers (L : Locale) (a : SummaryAnchors) : List (String × Json) → SummaryAnchors
  | [] => a
  | (key, child) :: members =>
    let next :=
      if key = "canonical_evidence_ids" ∨ key = "evidence_ids" then
        match child with
        | .arr items => items.foldl (addJson L .evidenceIds) a
        | _ => a
      else if key = "evidence_id" then addJson L .evidenceIds a child
      else if key ∈ ["source_ref", "source_url", "source_id", "question_id"] then addJson L .sourceRefs a child
      else if key = "tool_ref" then addJson L .toolRefs a child
      else if key = "artifact_ref" then addJson L .artifactRefs a child
      else
        match child with
        | .str text =>
          if key.endsWith "_at" || key = "cutoff" then a.add L .importantTimestamps text else a
        | _ => collectProvenanceAnchors L key a child
    collectMembers L next members

end

/-- The anchors of `b`, key by key. -/
def SummaryAnchors.addAll (L : Locale) (a b : SummaryAnchors) : SummaryAnchors :=
  let a := b.evidenceIds.foldl (fun a item => a.add L .evidenceIds item) a
  let a := b.sourceRefs.foldl (fun a item => a.add L .sourceRefs item) a
  let a := b.importantTimestamps.foldl (fun a item => a.add L .importantTimestamps item) a
  let a := b.toolRefs.foldl (fun a item => a.add L .toolRefs item) a
  b.artifactRefs.foldl (fun a item => a.add L .artifactRefs item) a

def PinInput.anchors (p : PinInput) : SummaryAnchors :=
  ⟨p.evidenceIds, p.sourceRefs, p.importantTimestamps, p.toolRefs, p.artifactRefs⟩

/-- `mergedAnchors`; `provenances` are those of the messages. -/
def mergedAnchors (L : Locale) (prior : Option SummaryAnchors) (provenances : List Json) (pins : List PinInput) :
    Except MemoryError SummaryAnchors :=
  let a := SummaryAnchors.empty.addAll L (prior.getD .empty)
  let a := provenances.foldl (collectProvenanceAnchors L "") a
  let a := pins.foldl (fun a p => a.addAll L p.anchors) a
  if [a.evidenceIds, a.sourceRefs, a.importantTimestamps, a.toolRefs, a.artifactRefs].any
      fun values => decide (maxAnchorItems < values.length) then
    .error .summaryAnchorsExceedBudget
  else .ok a

end Xauusd.Memory
