/-
  The tables of the news projection, and what its requests read from them
  (`news-projection-store.ts`).

  * `Store`: the generations, their receipts and counts, the index and the
    details that are served, and the state row;
  * `Store.progress`: `generationProgress`;
  * `Store.receiptItems`: the index items of a generation's receipts, in order;
  * `Store.projectionCounts`, `Store.reverseViolations`;
  * `newsProjectionCounts`: the rows of `newsProjectionCountsStatement`.
-/
import Xauusd.Lib.Table
import Xauusd.Projection.Types

namespace Xauusd.Projection

/-! ## Rows -/

inductive GenerationState where
  | staging
  | current
  | superseded
  deriving DecidableEq, Repr

/-- `news_projection_generations` -/
structure Generation where
  manifest : Manifest
  state : GenerationState
  updatedAt : ℤ
  activatedAt : Option ℤ
  deriving DecidableEq, Repr

def Generation.id (g : Generation) : String := g.manifest.generationId

/-- `news_projection_receipts_v2`; only an index receipt stores its items. -/
structure Receipt where
  generation : String
  kind : Kind
  offset : ℕ
  itemCount : ℕ
  payloadHash : String
  receiptDigest : String
  identityDigest : String
  identityKeys : List String
  items : List Json
  updatedAt : ℤ
  deriving DecidableEq, Repr

def Receipt.key (r : Receipt) : String × Kind × ℕ := (r.generation, r.kind, r.offset)

/-- `news_projection_counts`; `candidateExpiries` holds the lines of its text. -/
structure CountRow where
  generation : String
  review : ReviewState
  category : String
  itemCount : ℕ
  parsedCount : ℕ
  candidateExpiries : List String
  deriving DecidableEq, Repr

def CountRow.key (c : CountRow) : String × ReviewState × String := (c.generation, c.review, c.category)

/-- The columns of an index row that its item determines. -/
structure IndexEntry where
  detailKey : String
  category : String
  clusterId : String
  publishedTime : Json
  collectorFirstSeenTime : Json
  parsed : Bool
  modelCandidate : Bool
  impactExpiresAt : Json
  mirrorContract : Json
  payload : Json
  deriving DecidableEq, Repr

/-- `news_index` -/
structure IndexRow where
  entry : IndexEntry
  receivedAt : ℤ
  deriving DecidableEq, Repr

def IndexRow.key (r : IndexRow) : String := r.entry.detailKey

/-- `news_details` -/
structure DetailRow where
  detailKey : String
  detailHash : String
  payload : Json
  receivedAt : ℤ
  deriving DecidableEq, Repr

inductive ProjectionState where
  | activating
  | replaying
  | current
  | recoveryRequired
  deriving DecidableEq, Repr

/-- `news_projection_state` -/
structure StateRow where
  activeGenerationId : String
  snapshotId : String
  contractVersion : Contract
  sourceDigest : String
  receiptDigest : String
  indexCount : ℕ
  detailCount : ℕ
  missingDetailCount : ℕ
  invariantViolationCount : ℕ
  projectionState : ProjectionState
  activatedAt : ℤ
  verifiedAt : ℤ
  deriving DecidableEq, Repr

structure Store where
  generations : Table Generation.id
  receipts : Table Receipt.key
  counts : Table CountRow.key
  index : Table IndexRow.key
  details : Table DetailRow.detailKey
  state : Option StateRow

def Store.empty : Store :=
  { generations := .empty, receipts := .empty, counts := .empty, index := .empty, details := .empty,
    state := none }

/-! ## Progress of a replay -/

structure Progress where
  nextDetailOffset : ℕ
  nextIndexOffset : ℕ
  receiptDigest : String
  detailIdentityDigest : String
  indexIdentityDigest : String
  updatedAt : Option ℤ
  deriving DecidableEq, Repr

namespace Store

variable (s : Store)

def receiptsOf (g : String) (kind : Kind) : List Receipt :=
  s.receipts.rows.filter fun r => r.generation = g ∧ r.kind = kind

/-- `… ORDER BY batch_offset DESC LIMIT 1` -/
def lastReceipt (g : String) (kind : Kind) : Option Receipt :=
  Table.firstBy (fun a b => b.offset ≤ a.offset) (s.receiptsOf g kind)

/-- `generationProgress` -/
def progress (g : String) : Progress :=
  let detail := s.lastReceipt g .detail
  let index := s.lastReceipt g .index
  { nextDetailOffset := (detail.map fun r => r.offset + r.itemCount).getD 0
    nextIndexOffset := (index.map fun r => r.offset + r.itemCount).getD 0
    receiptDigest := ((index.or detail).map (·.receiptDigest)).getD EMPTY_RECEIPT_DIGEST
    detailIdentityDigest := (detail.map (·.identityDigest)).getD EMPTY_RECEIPT_DIGEST
    indexIdentityDigest := (index.map (·.identityDigest)).getD EMPTY_RECEIPT_DIGEST
    updatedAt := (index.or detail).map (·.updatedAt) }

/-! ## The projection of a generation -/

end Store

/-- One row of `receiptIndexRowsSql`. -/
def indexEntry (item : Json) : IndexEntry :=
  { detailKey := itemKey item
    category := textOf (item.get "category")
    clusterId := textOf (item.get "cluster_id")
    publishedTime := if item.get "source_published_time" = .null then item.get "collector_first_seen_time"
      else item.get "source_published_time"
    collectorFirstSeenTime := item.get "collector_first_seen_time"
    parsed := isStr (item.get "parsed_at")
    modelCandidate := item.get "model_visibility" = .str "MODEL_VISIBLE"
    impactExpiresAt := item.get "impact_expires_at"
    mirrorContract := item.get "mirror_contract"
    payload := item }

namespace Store

variable (s : Store)

/-- The items that a generation's index receipts hold, in the order of their
    offsets. -/
def receiptItems (g : String) : List Json :=
  ((s.receiptsOf g .index).insertionSort fun a b => a.offset ≤ b.offset).flatMap (·.items)

/-- The rows of `news_index` that are served. -/
def activeRows : List IndexRow := s.index.rows.filter fun r => activeNews r.entry.payload

/-- The rows that `projectionCounts` counts: those of the receipts, or for a
    sparse publication the active ones of the generation that is served. -/
def projection (g : String) : Contract → List IndexEntry
  | .generation => (s.receiptItems g).map indexEntry
  | .delta => if (s.state.map (·.activeGenerationId)) = some g then s.activeRows.map (·.entry) else []

def hasDetail (key : String) : Bool := (s.details.find? key).isSome

end Store

/-- `impact_expires_at IS NULL OR length(..)<>32 OR substr(..,27)<>'+00:00'` -/
def badExpiry : Json → Bool
  | .str x => x.toList.length ≠ 32 || x.toList.drop 26 ≠ "+00:00".toList
  | _ => true

/-- The clause of `review_violation_count`: of its three disjuncts, one that is
    NULL does not count. -/
def reviewViolation (e : IndexEntry) : Bool :=
  reviewInvariant e.payload = some false || decide (e.category ∉ NEWS_PROJECTION_CATEGORIES)
    || (e.modelCandidate && badExpiry e.impactExpiresAt)

structure ProjectionCounts where
  indexCount : ℕ
  detailCount : ℕ
  missingDetailCount : ℕ
  reviewViolationCount : ℕ
  duplicateClusterCount : ℕ
  deriving DecidableEq, Repr

namespace Store

variable (s : Store)

def projectionCounts (g : String) (contract : Contract) : ProjectionCounts :=
  let rows := s.projection g contract
  let clusters := rows.map (·.clusterId)
  { indexCount := rows.length
    detailCount := rows.countP fun e => s.hasDetail e.detailKey
    missingDetailCount := rows.countP fun e => !s.hasDetail e.detailKey
    reviewViolationCount := rows.countP reviewViolation
    duplicateClusterCount := clusters.dedup.countP fun c => 1 < clusters.count c }

/-- `reverseProjectionViolationCount` -/
def reverseViolations (g : String) : Contract → ℕ
  | .delta => 0
  | .generation =>
    let rows := s.projection g .generation
    rows.countP (fun e => decide (e ∉ s.activeRows.map (·.entry)))
      + s.activeRows.countP fun r => decide (r.key ∉ rows.map (·.detailKey))

end Store

/-! ## Counts -/

/-- The groups of `grouped`, by review state and category. -/
def groupRows (g : String) (rows : List IndexEntry) : List CountRow :=
  let group (e : IndexEntry) : ReviewState × String := (reviewStateOf e.payload, e.category)
  (rows.map group).dedup.map fun k =>
    { generation := g, review := k.1, category := k.2
      itemCount := rows.countP fun e => group e = k
      parsedCount := rows.countP fun e => group e = k && e.parsed
      candidateExpiries := [] }

/-- The sum over some groups. -/
def totalRow (g : String) (review : ReviewState) (expiries : List String) (groups : List CountRow) :
    CountRow :=
  { generation := g, review := review, category := ""
    itemCount := (groups.map (·.itemCount)).sum
    parsedCount := (groups.map (·.parsedCount)).sum
    candidateExpiries := expiries }

def candidateExpiry (e : IndexEntry) : Option String :=
  match e.impactExpiresAt with
  | .str x => if e.modelCandidate then some x else none
  | _ => none

/-- The rows that `newsProjectionCountsStatement` inserts. -/
def newsProjectionCounts (g : String) (rows : List IndexEntry) : List CountRow :=
  let groups := groupRows g rows
  let expiries := (rows.filterMap candidateExpiry).insertionSort (· ≤ ·)
  groups
    ++ ((groups.map (·.review)).dedup.map fun r => totalRow g r [] (groups.filter (·.review = r)))
    ++ if groups.isEmpty then [] else [totalRow g .all expiries groups]

end Xauusd.Projection
