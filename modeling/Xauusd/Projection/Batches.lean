/-
  The batches that the news projection requests send to the database, each one
  transaction (`news-projection-store.ts`, `news-projection-delta.ts`).

  * `Store.deleteGeneration`: `deleteGenerationStatements`;
  * `Store.activate`: the publication of a full replay;
  * `Store.applyDelta`: the publication of a sparse patch, with the guards that
    raise inside the batch;
  * `Batch`, `Batch.exec`: a batch and what it does, none when it raises.
-/
import Xauusd.Projection.Store

namespace Xauusd.Projection

/-! ## Index rows -/

/-- `DO UPDATE SET …`: the key stays. -/
def IndexRow.replace (r old : IndexRow) : IndexRow :=
  { r with entry := { r.entry with detailKey := old.entry.detailKey } }

/-- The upsert of an activation leaves a row that has the same columns. -/
def IndexRow.overwrite (r old : IndexRow) : IndexRow :=
  if old.entry = r.entry then old else r.replace old

/-- The tombstone of a row that is no longer served. -/
def IndexEntry.supersede (e : IndexEntry) : IndexEntry :=
  { e with
    parsed := false
    modelCandidate := false
    payload := ((e.payload.set "annotation_status" (.str "SUPERSEDED_CONTRACT")).set
      "model_visibility" (.str "MODEL_INELIGIBLE")).set "parsed_at" .null }

def IndexRow.supersede (r : IndexRow) : IndexRow := { r with entry := r.entry.supersede }

theorem IndexRow.key_replace (r old : IndexRow) : (r.replace old).key = old.key := rfl

theorem IndexRow.key_overwrite (r old : IndexRow) : (r.overwrite old).key = old.key := by
  unfold overwrite
  split <;> rfl

theorem IndexRow.key_supersede (r : IndexRow) : r.supersede.key = r.key := rfl

/-! ## Generation rows -/

def Generation.supersede (now : ℤ) (g : Generation) : Generation :=
  { g with state := .superseded, updatedAt := now }

def Generation.publish (now : ℤ) (g : Generation) : Generation :=
  { g with state := .current, activatedAt := some now, updatedAt := now }

def Generation.touch (now : ℤ) (g : Generation) : Generation := { g with updatedAt := now }

theorem Generation.id_supersede (now : ℤ) (g : Generation) : (g.supersede now).id = g.id := rfl
theorem Generation.id_publish (now : ℤ) (g : Generation) : (g.publish now).id = g.id := rfl
theorem Generation.id_touch (now : ℤ) (g : Generation) : (g.touch now).id = g.id := rfl

namespace Store

variable (s : Store)

/-! ## Full replays -/

/-- Besides the rows of the generation, the tombstones go, and every detail
    that no index row reaches any more. -/
def deleteGeneration (g : String) : Store :=
  let index := s.index.delete fun r => !activeNews r.entry.payload
  { s with
    counts := s.counts.delete fun c => c.generation = g
    receipts := s.receipts.delete fun r => r.generation = g
    generations := s.generations.delete fun r => r.id = g
    index := index
    details := s.details.delete fun d => (index.find? d.detailKey).isNone }

def openGeneration (cleanup : List String) (manifest : Manifest) (now : ℤ) : Option Store :=
  let s := cleanup.foldl deleteGeneration s
  (s.generations.insertAll [⟨manifest, .staging, now, none⟩]).map fun generations =>
    { s with generations := generations }

def stage (newDetails : List DetailRow) (receipt : Receipt) : Option Store := do
  let details ← s.details.insertAll newDetails
  let receipts ← s.receipts.insertAll [receipt]
  return { s with details := details, receipts := receipts }

def activate (m : Manifest) (progress : Progress) (now : ℤ) : Option Store :=
  let entries := (s.receiptItems m.generationId).map indexEntry
  (s.counts.insertAll (newsProjectionCounts m.generationId entries)).map fun counts =>
    { s with
      counts := counts
      generations :=
        (s.generations.update (fun g => g.state = .current && g.id ≠ m.generationId)
            (Generation.supersede now) (Generation.id_supersede now)).update
          (fun g => g.id = m.generationId && g.state = .staging)
          (Generation.publish now) (Generation.id_publish now)
      state := some
        { activeGenerationId := m.generationId, snapshotId := m.snapshotId
          contractVersion := m.contractVersion, sourceDigest := m.sourceDigest
          receiptDigest := progress.receiptDigest, indexCount := m.expectedIndexCount
          detailCount := m.expectedDetailCount, missingDetailCount := 0
          invariantViolationCount := 0, projectionState := .current
          activatedAt := now, verifiedAt := now }
      index :=
        (s.index.upsertAll (entries.map (⟨·, now⟩)) IndexRow.overwrite IndexRow.key_overwrite).update
          (fun r => activeNews r.entry.payload && decide (r.key ∉ entries.map (·.detailKey)))
          IndexRow.supersede IndexRow.key_supersede }

def verify (g : String) (missing violations : ℕ) (current : Bool) (now : ℤ) : Store :=
  { s with
    state := s.state.map fun st =>
      if st.activeGenerationId = g then
        { st with
          missingDetailCount := missing, invariantViolationCount := violations
          projectionState := if current then .current else .recoveryRequired, verifiedAt := now }
      else st
    generations := s.generations.update (fun r => r.id = g) (Generation.touch now) (Generation.id_touch now) }

end Store

/-! ## Sparse patches -/

/-- The body of a patch, and the digest that becomes its generation's id. -/
structure Delta where
  baseGenerationId : String
  baseSnapshotId : String
  baseReceiptDigest : String
  source : Manifest
  indexes : List Json
  details : List Json
  removed : List String
  computed : String

/-- The manifest that the patch is acknowledged with. -/
def Delta.manifest (d : Delta) : Manifest :=
  { d.source with
    contractVersion := .delta, generationId := d.computed, expectedReceiptDigest := d.computed }

namespace Store

variable (s : Store)

def isStaging : Bool := s.generations.rows.any fun g => g.state = .staging

/-- `julianday(a)<=julianday(b)`: NULL is no. -/
def notLater [Platform] (a b : String) : Bool :=
  match julianday a, julianday b with
  | some x, some y => x ≤ y
  | _, _ => false

/-- The guard `NEWS_DELTA_BASE_CHANGED`. -/
def servesBase [Platform] (d : Delta) : Bool :=
  match s.state with
  | none => false
  | some st =>
    st.projectionState = .current && st.activeGenerationId = d.baseGenerationId
      && st.snapshotId = d.baseSnapshotId && st.receiptDigest = d.baseReceiptDigest
      && st.missingDetailCount = 0 && st.invariantViolationCount = 0
      && s.generations.rows.any (fun g =>
        g.id = d.baseGenerationId && notLater g.manifest.watermark d.source.watermark)
      && !s.isStaging

/-- Insert a detail where there is none, and check the one that is there. -/
def insertDetail (now : ℤ) (details : Table DetailRow.detailKey) (item : Json × Json) :
    Option (Table DetailRow.detailKey) :=
  let row : DetailRow := ⟨itemKey item.1, textOf (item.1.get "detail_hash"), item.2, now⟩
  let details := details.insertIgnore row
  match details.find? row.detailKey with
  | some prior => if prior.detailHash = row.detailHash ∧ prior.payload = row.payload then some details else none
  | none => none

/-- The guard `NEWS_DELTA_INVARIANT_FAILED`. -/
def completeMembership (expected : ℕ) : Bool :=
  let clusters := s.activeRows.map (·.entry.clusterId)
  s.activeRows.length = expected && clusters.dedup.length = s.activeRows.length
    && s.activeRows.all fun r => reviewInvariant r.entry.payload = some true && s.hasDetail r.key

/-- The sparse generations of earlier publications, whose metadata goes. -/
def spentDelta (base : String) (g : Generation) : Bool :=
  g.state = .superseded && g.manifest.contractVersion = .delta && g.id ≠ base

def patchIndex (index : Table IndexRow.key) (d : Delta) (now : ℤ) : Table IndexRow.key :=
  (index.update (fun r => r.key ∈ d.removed) IndexRow.supersede IndexRow.key_supersede).upsertAll
    (d.indexes.map fun item => ⟨indexEntry item, now⟩) IndexRow.replace IndexRow.key_replace

def applyDelta [Platform] (d : Delta) (serialized : List Json) (now : ℤ) : Option Store := do
  guard (s.servesBase d)
  guard (d.removed.all fun key => s.activeRows.any fun r => r.key = key)
  let details ← (d.details.zip serialized).foldlM (insertDetail now) s.details
  let s := { s with details := details, index := patchIndex s.index d now }
  guard (s.completeMembership d.source.expectedIndexCount)
  let spent := (s.generations.rows.filter (spentDelta d.baseGenerationId)).map (·.id)
  let counts ← (s.counts.delete fun c => c.generation ∈ spent).insertAll
    (newsProjectionCounts d.computed (s.activeRows.map (·.entry)))
  let generations ← ((s.generations.delete fun g => g.id ∈ spent).update
      (fun g => g.state = .current) (Generation.supersede now) (Generation.id_supersede now)).insertAll [⟨d.manifest, .current, now, some now⟩]
  return { s with
    counts := counts
    generations := generations
    state := some
      { activeGenerationId := d.computed, snapshotId := d.source.snapshotId
        contractVersion := .delta, sourceDigest := d.source.sourceDigest
        receiptDigest := d.computed, indexCount := d.source.expectedIndexCount
        detailCount := d.source.expectedDetailCount, missingDetailCount := 0
        invariantViolationCount := 0, projectionState := .current
        activatedAt := now, verifiedAt := now } }

end Store

/-! ## Batches -/

/-- A batch with the values that its request bound, and for the record the items
    that an activation counted, or that a staged batch holds. -/
inductive Batch where
  | deleteGeneration (g : String)
  | openGeneration (cleanup : List String) (manifest : Manifest) (now : ℤ)
  | stage (g : String) (kind : Kind) (offset : ℕ) (items : List Json)
      (payloadHash receiptDigest identityDigest : String) (newDetails : List DetailRow) (now : ℤ)
  | activate (manifest : Manifest) (progress : Progress) (counted : List Json) (now : ℤ)
  | verify (g : String) (missing violations : ℕ) (current : Bool) (now : ℤ)
  | delta (patch : Delta) (serialized : List Json) (now : ℤ)

/-- The receipt that a staged batch leaves. -/
def stagedReceipt (g : String) (kind : Kind) (offset : ℕ) (items : List Json)
    (payloadHash receiptDigest identityDigest : String) (now : ℤ) : Receipt :=
  { generation := g, kind := kind, offset := offset, itemCount := items.length
    payloadHash := payloadHash, receiptDigest := receiptDigest, identityDigest := identityDigest
    identityKeys := items.map itemKey
    items := match kind with
      | .index => items
      | .detail => []
    updatedAt := now }

def Batch.exec [Platform] : Batch → Store → Option Store
  | deleteGeneration g, s => some (s.deleteGeneration g)
  | openGeneration cleanup manifest now, s => s.openGeneration cleanup manifest now
  | stage g kind offset items payloadHash receiptDigest identityDigest newDetails now, s =>
    s.stage newDetails (stagedReceipt g kind offset items payloadHash receiptDigest identityDigest now)
  | activate manifest progress _ now, s => s.activate manifest progress now
  | verify g missing violations current now, s => some (s.verify g missing violations current now)
  | delta patch serialized now, s => s.applyDelta patch serialized now

end Xauusd.Projection
