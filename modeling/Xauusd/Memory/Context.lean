/-
  The context of a user message (`buildAssistantContext`).

  * `recentRows`: the messages that go in word for word, unless some are
    neither summarized nor recent enough, or they are too many;
  * `trimRecentWholeTurns`: the turns that fit;
  * `buildAssistantContext`: the context, or the first check that fails;
  * `layers`: what is loaded before the recent messages.
-/
import Xauusd.Memory.Store

namespace Xauusd.Memory

open JsonText

/-! ## Recent turns -/

/-- `JSON.stringify` of the selected messages fits. -/
def fits (maximum : ℕ) (selected : List Message) : Bool :=
  decide (tokenEstimate (array (selected.map Message.json)) ≤ maximum)

/-- From the next user message on, as soon as the rest fits. -/
def dropTurns (maximum : ℕ) : List Message → List Message
  | [] => []
  | m :: selected => if m.role = .user ∧ fits maximum (m :: selected) = true then m :: selected
    else dropTurns maximum selected

/-- `trimRecentWholeTurns` -/
def trimRecentWholeTurns (maximum : ℕ) : List Message → List Message
  | [] => []
  | m :: selected => if fits maximum (m :: selected) then m :: selected else dropTurns maximum selected

/-- The messages after the summary, up to the current one. -/
def Store.uncovered (s : Store) (conversationId : String) (summary : Option Summary) (currentUser : Message) :
    List Message :=
  (Store.afterCover summary (s.log conversationId)).filter fun m => m.notAfter currentUser

/-- The messages from the boundary on; those before it must be none. -/
def recentRows (p : Profile) (uncovered : List Message) : Except MemoryError (List Message) :=
  let boundary := Store.recentBoundary p.recentTurnLimit uncovered
  let gap := uncovered.filter fun m => boundary.any fun b => decide (m.place < b.place)
  let rows := uncovered.filter fun m => boundary.all fun b => decide (b.place ≤ m.place)
  if 0 < gap.length then .error .compactionRequired
  else if p.recentMessageLimit < (rows.take (p.recentMessageLimit + 1)).length then .error .recentTurnsExceedBudget
  else .ok (rows.take (p.recentMessageLimit + 1))

/-! ## The context -/

structure ContextRequest where
  ownerId : String
  conversationId : String
  currentUserMessageId : String
  /-- the ids, and the texts of the contents -/
  toolEvidence : List (String × List Char)
  /-- `tokenEstimate` of `retrieveAssistantHistoricalMemory`, or its error -/
  historicalMemory : Except MemoryError ℕ

structure AssistantContext where
  capacityState : CapacityState
  estimatedTokens : ℕ
  pinned : List SnapshotPin
  summary : Option Summary
  recent : List Message
  currentUser : Message
  toolEvidence : List (String × List Char)

/-- The newest summary of what comes before a message. -/
def Store.summaryBefore (s : Store) (conversationId : String) (currentUser : Message) : Option Summary :=
  Table.firstBy (fun x y => decide (y.version ≤ x.version))
    (s.summaries.rows.filter fun x => x.conversationId = conversationId && decide (x.cover < currentUser.place))

def Store.currentUser (s : Store) (r : ContextRequest) : Option Message :=
  s.messages.rows.find? fun m => m.id = r.currentUserMessageId && m.conversationId = r.conversationId && m.role = .user

/-- `normalizedEvidence` -/
def normalizedEvidence (L : Locale) (items : List (String × List Char)) :
    Except MemoryError (List (String × List Char)) :=
  items.mapM fun item => do
    let ids ← orderedUniqueStrings L [item.1] 1
    return (ids.headD "", item.2)

structure Layers where
  pinned : List SnapshotPin
  historicalTokens : ℕ
  toolEvidence : List (String × List Char)

/-- What is loaded before the recent messages are. -/
def layers (L : Locale) (s : Store) (r : ContextRequest) (currentUser : Message) : Except MemoryError Layers := do
  let pins ← s.listPinnedEntries r.conversationId (some currentUser)
  if 32 < r.toolEvidence.length then .error .contextLayerExceedsBudget
  let historicalTokens ← r.historicalMemory
  let toolEvidence ← normalizedEvidence L r.toolEvidence
  return ⟨pins.map PinnedEntry.snapshot, historicalTokens, toolEvidence⟩

def Layers.pinnedTokens (l : Layers) : ℕ := tokenEstimate (array (l.pinned.map SnapshotPin.json))

def summaryTokens (summary : Option Summary) : ℕ := (summary.map fun x => tokenEstimate x.json).getD 0

def currentUserTokens (m : Message) : ℕ :=
  tokenEstimate (object [("id", quote m.id), ("content", quote m.content), ("created_at", instant m.createdAt)])

def Layers.evidenceTokens (l : Layers) : ℕ :=
  if l.toolEvidence = [] then 0
  else tokenEstimate (array (l.toolEvidence.map fun e => object [("evidence_id", quote e.1), ("content", e.2)]))

/-- `layerChecks`: the first layer over its budget -/
def layerChecks (p : Profile) (l : Layers) (summary : Option Summary) (currentUser : Message) : Except MemoryError Unit :=
  if p.pinnedTokenBudget < l.pinnedTokens then .error .pinnedStateExceedsBudget
  else if p.summaryTokenBudget < summaryTokens summary then .error .summaryExceedsBudget
  else if p.historicalMemoryTokenBudget < l.historicalTokens then .error .historicalMemoryExceedsBudget
  else if p.currentUserTokenBudget < currentUserTokens currentUser then .error .currentUserExceedsBudget
  else if p.toolEvidenceTokenBudget < l.evidenceTokens then .error .toolEvidenceExceedsBudget
  else .ok ()

/-- `buildAssistantContext`; none when the conversation is not the owner's -/
def buildAssistantContext (L : Locale) (p : Profile) (s : Store) (r : ContextRequest) :
    Except MemoryError (Option AssistantContext) := do
  if !validateProfile p then .error .invalidProfile
  if !(s.conversations.rows.any fun c => c.ownerId = r.ownerId && c.id = r.conversationId) then return none
  match s.currentUser r with
  | none => .error .currentUserMessageNotFound
  | some currentUser =>
    let summary := s.summaryBefore r.conversationId currentUser
    let l ← layers L s r currentUser
    let rows ← recentRows p (s.uncovered r.conversationId summary currentUser)
    layerChecks p l summary currentUser
    let requiredTokens := p.reservedTokens + l.pinnedTokens + summaryTokens summary + l.historicalTokens +
      currentUserTokens currentUser + l.evidenceTokens
    if p.contextLimitTokens < requiredTokens then .error .requiredContextExceedsBudget
    else
      let recent := trimRecentWholeTurns (min p.recentTurnsTokenBudget (p.contextLimitTokens - requiredTokens))
        (rows.filter fun m => m.id ≠ currentUser.id)
      let estimatedTokens := requiredTokens + if recent = [] then 0 else tokenEstimate (array (recent.map Message.json))
      return some ⟨classifyAssistantContextCapacity estimatedTokens p, estimatedTokens, l.pinned, summary, recent,
        currentUser, l.toolEvidence⟩

end Xauusd.Memory
