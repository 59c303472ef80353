/-
  What is recalled of other conversations
  (`retrieveAssistantHistoricalMemory` of `assistant-memory-index.ts`).

  * `IndexStore.lexicalRows`, `IndexStore.semanticRows`: the two queries;
  * `candidatesById`, `ranked`: the candidates, the best ones first;
  * `recallItems`, `popItems`: the loops that keep to the budget;
  * `retrieveAssistantHistoricalMemory`.

  All statements read one state.  A score is exact where the code has a float,
  and instants are compared where it compares their texts.
-/
import Xauusd.Lib.Recall
import Xauusd.Memory.Indexed

namespace Xauusd.Memory

/-! ## Candidates -/

structure HistoricalRequest where
  ownerId : String
  conversationId : String
  currentUser : Message
  tokenBudget : ℕ
  /-- the ids of vectors, with their scores -/
  semanticMatches : List (String × ℚ)
  semanticAvailable : Bool

/-- `AssistantMemoryCandidateRow` -/
structure Candidate where
  entry : MemoryEntry
  content : String
  overlapCount : ℕ
  semanticScore : Option ℚ
  deriving DecidableEq

local instance lawfulBEqTerm : LawfulBEq (List Char) := inferInstance

namespace IndexStore

/-- The conditions that both queries have on an entry, and its message. -/
def recallable (s : IndexStore) (r : HistoricalRequest) (e : MemoryEntry) : Option Message :=
  if e.ownerId = r.ownerId ∧ e.indexVersion = ASSISTANT_MEMORY_INDEX_VERSION ∧ e.conversationId ≠ r.conversationId ∧
      e.sourceCreatedAt < r.currentUser.createdAt ∧
      (s.memory.conversations.rows.any fun c => c.id = e.conversationId && c.ownerId = r.ownerId) = true then
    s.memory.messages.find? e.sourceMessageId
  else none

/-- `count(DISTINCT memory_term.term)` of the terms asked for -/
def overlap (s : IndexStore) (r : HistoricalRequest) (queryTerms : List (List Char)) (e : MemoryEntry) : ℕ :=
  (s.terms.rows.filter fun t => t.entryId = e.id && t.ownerId = r.ownerId && t.term ∈ queryTerms).length

/-- The lexical query; a term is there once for an entry. -/
def lexicalRows (s : IndexStore) (r : HistoricalRequest) (queryTerms : List (List Char)) : List Candidate :=
  let rows := s.entries.rows.filterMap fun e =>
    if 0 < s.overlap r queryTerms e then
      (s.recallable r e).map fun m => (⟨e, m.content, s.overlap r queryTerms e, none⟩ : Candidate)
    else none
  let key : Candidate → ℕ ×ₗ ℤ ×ₗ String := fun c =>
    toLex (c.overlapCount, toLex (c.entry.sourceCreatedAt, c.entry.sourceMessageId))
  (rows.insertionSort fun c c' => key c' ≤ key c).take maxCandidates

/-- The semantic query: the candidates with the ids of their vectors. -/
def semanticRows (s : IndexStore) (r : HistoricalRequest) (ids : List String) : List (String × Candidate) :=
  s.vectors.rows.filterMap fun v =>
    if v.ownerId = r.ownerId ∧ v.vectorId ∈ ids then do
      let e ← s.entries.find? v.entryId
      let m ← s.recallable r e
      return (v.vectorId, ⟨e, m.content, 0, none⟩)
    else none

end IndexStore

/-- `semanticScores` -/
def semanticScores (r : HistoricalRequest) : List (String × ℚ) :=
  r.semanticMatches.foldl (fun scores hit => scores.assign hit.1 hit.2) []

/-- `candidatesById.set`, of the lexical candidates -/
def addLexical (byId : List (String × Candidate)) (c : Candidate) : List (String × Candidate) :=
  byId.assign c.entry.id c

/-- `candidatesById.set`, of the semantic candidates -/
def addSemantic (scores : List (String × ℚ)) (byId : List (String × Candidate)) (hit : String × Candidate) :
    List (String × Candidate) :=
  byId.assign hit.2.entry.id
    { (byId.lookup hit.2.entry.id).getD hit.2 with semanticScore := some ((scores.lookup hit.1).getD 0) }

/-- `candidatesById` -/
def candidatesById (s : IndexStore) (r : HistoricalRequest) (queryTerms : List (List Char)) : List (String × Candidate) :=
  let lexical := if queryTerms = [] then [] else (s.lexicalRows r queryTerms).foldl addLexical []
  let scores := semanticScores r
  if scores = [] then lexical
  else (s.semanticRows r (scores.map Prod.fst)).foldl (addSemantic scores) lexical

/-- `String.prototype.localeCompare` -/
structure Collation where
  localeCompare : String → String → Ordering

def Candidate.score (c : Candidate) : ℚ := c.overlapCount + c.semanticScore.getD 0 * 4

/-- The comparison of the sort does not put the other one first. -/
def Candidate.notAfter (K : Collation) (c c' : Candidate) : Bool :=
  if c.score ≠ c'.score then decide (c'.score < c.score)
  else if c.entry.sourceCreatedAt ≠ c'.entry.sourceCreatedAt then
    decide (c'.entry.sourceCreatedAt < c.entry.sourceCreatedAt)
  else K.localeCompare c'.entry.sourceMessageId c.entry.sourceMessageId ≠ .gt

/-- The candidates, the best ones first. -/
def ranked (K : Collation) (byId : List (String × Candidate)) : List Candidate :=
  ((byId.map Prod.snd).insertionSort fun c c' => c.notAfter K c' = true).take maxCandidates

/-! ## Items -/

/-- `retrieval`; what is the same in all of them is left out. -/
structure Retrieval where
  indexComplete : Bool
  totalMessages : ℕ
  indexedMessages : ℕ
  pendingMessages : ℕ
  processingMessages : ℕ
  failedMessages : ℕ
  queryTermCount : ℕ
  matchedEntries : ℕ
  lexicalMatchedEntries : ℕ
  semanticMatchedEntries : ℕ
  semanticAvailable : Bool
  selectedEntries : ℕ
  integrityFailures : ℕ
  deriving DecidableEq

structure MemoryItem where
  content : String
  canonicalMessageIds : List String
  sourceConversationId : String
  role : Role
  createdAt : ℤ
  matchTerms : List (List Char)
  overlapCount : ℕ
  semanticScore : ℚ
  deriving DecidableEq

/-- `conservativeAssistantTokenEstimate({ retrieval, items })` -/
structure Estimator where
  estimateTokens : Retrieval → List MemoryItem → ℕ

def Candidate.item (N : Normal) (queryTerms : List (List Char)) (c : Candidate) : MemoryItem where
  content := c.content
  canonicalMessageIds := [c.entry.sourceMessageId]
  sourceConversationId := c.entry.conversationId
  role := c.entry.sourceRole
  createdAt := c.entry.sourceCreatedAt
  matchTerms := queryTerms.filter fun term => term ∈ tokenizeAssistantMemory N c.content maxIndexTerms
  overlapCount := c.overlapCount
  semanticScore := c.semanticScore.getD 0

section
variable (E : Estimator) (N : Normal) (queryTerms : List (List Char)) (tokenBudget : ℕ)

/-- The loop over the candidates. -/
def recallItems : List Candidate → Retrieval → List MemoryItem → Retrieval × List MemoryItem
  | [], retrieval, items => (retrieval, items)
  | c :: candidates, retrieval, items =>
    if maxItems ≤ items.length then (retrieval, items)
    else if sha256 c.content ≠ c.entry.sourceContentSha256 then
      recallItems candidates { retrieval with integrityFailures := retrieval.integrityFailures + 1 } items
    else
      let nextRetrieval := { retrieval with selectedEntries := items.length + 1 }
      if E.estimateTokens nextRetrieval (items ++ [c.item N queryTerms]) ≤ tokenBudget then
        recallItems candidates nextRetrieval (items ++ [c.item N queryTerms])
      else recallItems candidates retrieval items

/-- The last loop; the items are given last first. -/
def popItems : List MemoryItem → Retrieval → Retrieval × List MemoryItem
  | [], retrieval => (retrieval, [])
  | item :: items, retrieval =>
    if tokenBudget < E.estimateTokens retrieval (item :: items).reverse then
      popItems items { retrieval with selectedEntries := items.length }
    else (retrieval, (item :: items).reverse)

end

structure HistoricalMemory where
  items : List MemoryItem
  tokenEstimate : ℕ
  retrieval : Retrieval

/-- The jobs that are counted. -/
def IndexStore.counted (s : IndexStore) (r : HistoricalRequest) : List IndexJob :=
  s.jobs.rows.filter fun j => j.ownerId = r.ownerId && j.current && j.conversationId ≠ r.conversationId &&
    decide (j.sourceCreatedAt < r.currentUser.createdAt)

/-- `COMPLETED`, with an entry and a vector -/
def IndexStore.isIndexed (s : IndexStore) (j : IndexJob) : Bool :=
  j.phase.isCompleted && s.entries.rows.any fun e => e.sourceJobId = j.id &&
    s.vectors.rows.any fun v => v.entryId = e.id

def IndexPhase.isPending : IndexPhase → Bool
  | pending => true
  | _ => false

def IndexPhase.isProcessing : IndexPhase → Bool
  | processing _ => true
  | _ => false

def IndexPhase.isFailed : IndexPhase → Bool
  | failed _ => true
  | _ => false

/-- `retrieval` before the items are chosen. -/
def IndexStore.retrieval (s : IndexStore) (K : Collation) (r : HistoricalRequest) (queryTerms : List (List Char))
    (byId : List (String × Candidate)) : Retrieval where
  indexComplete := (s.counted r).length = (s.counted r).countP s.isIndexed
  totalMessages := (s.counted r).length
  indexedMessages := (s.counted r).countP s.isIndexed
  pendingMessages := (s.counted r).countP (·.phase.isPending)
  processingMessages := (s.counted r).countP (·.phase.isProcessing)
  failedMessages := (s.counted r).countP (·.phase.isFailed)
  queryTermCount := queryTerms.length
  matchedEntries := (ranked K byId).length
  lexicalMatchedEntries := (byId.map Prod.snd).countP fun c => decide (0 < c.overlapCount)
  semanticMatchedEntries := (byId.map Prod.snd).countP fun c => decide (0 < c.semanticScore.getD 0)
  semanticAvailable := r.semanticAvailable
  selectedEntries := 0
  integrityFailures := 0

def retrieveAssistantHistoricalMemory (E : Estimator) (K : Collation) (N : Normal) (s : IndexStore)
    (r : HistoricalRequest) : HistoricalMemory :=
  let queryTerms := tokenizeAssistantMemory N r.currentUser.content maxQueryTerms
  let byId := candidatesById s r queryTerms
  let (retrieval, items) := recallItems E N queryTerms r.tokenBudget (ranked K byId)
    (s.retrieval K r queryTerms byId) []
  let retrieval := if retrieval.integrityFailures ≠ 0 then { retrieval with indexComplete := false } else retrieval
  let (retrieval, items) := popItems E r.tokenBudget items.reverse retrieval
  ⟨items, E.estimateTokens retrieval items, retrieval⟩

end Xauusd.Memory
