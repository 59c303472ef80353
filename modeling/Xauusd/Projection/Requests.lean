/-
  The requests of the news projection protocol, as programs of reads and
  batches (`news-projection-store.ts`, `news-projection-delta.ts`).

  * `prepareNewsProjection`, `stageNewsProjectionBatch`,
    `activateNewsProjection`, `verifyNewsProjection`, `abandonNewsProjection`,
    `applyNewsProjectionDelta`;
  * `Request.program`: a request with its body and its clock;
  * `serve`: requests one at a time, `step`: requests interleaved.
-/
import Xauusd.Lib.Program
import Xauusd.Projection.Batches

namespace Xauusd.Projection

/-- The body of a reply. -/
inductive Reply where
  | prepared (active : Bool) (generation : String) (nextDetailOffset nextIndexOffset : ℕ)
      (receiptDigest : Option String)
  | staged (duplicate : Bool) (received : ℕ) (receiptDigest : String)
  | activated (generation : String) (unchanged : Bool) (indexCount detailCount : ℕ)
  | verified (generation : String) (verifiedAt : ℤ)
  | abandoned (generation : String) (unchanged : Bool)
  | applied (manifest : Manifest)
  | refused (error : ProtocolError)
  /-- Any other exception. -/
  | failed
  deriving DecidableEq

/-- What a request's handler is. -/
abbrev Handler := Program Store Batch Reply

open Program

/-! ## Abandon -/

def abandonNewsProjection (generationId : String) : Handler :=
  if !Text.isSha256Hex generationId then done (.refused .generationInvalid)
  else read fun s =>
    match s.generations.find? generationId with
    | none => done (.abandoned generationId true)
    | some row =>
      if row.state ≠ .staging then done (.refused .abandonRejected)
      else commit (.deleteGeneration generationId) fun ok =>
        done (if ok then .abandoned generationId false else .failed)

/-! ## Prepare -/

/-- `manifestMatches`; the id is the one the row was found under. -/
def manifestMatches (row : Generation) (m : Manifest) : Bool :=
  row.manifest = { m with generationId := row.manifest.generationId }

/-- The state row is that of the manifest, with nothing missing. -/
def alreadyActive (st : StateRow) (m : Manifest) : Bool :=
  st.activeGenerationId = m.generationId && st.snapshotId = m.snapshotId
    && st.sourceDigest = m.sourceDigest && st.receiptDigest = m.expectedReceiptDigest
    && st.indexCount = m.expectedIndexCount && st.detailCount = m.expectedDetailCount
    && st.missingDetailCount = 0 && st.invariantViolationCount = 0

/-- The last sign of life of a replay is as old as the TTL. -/
def expired (progress : Progress) (row : Generation) (now : ℤ) : Bool :=
  progress.updatedAt.getD row.updatedAt ≤ now - NEWS_PROJECTION_STAGING_TTL_MS

/-- `… WHERE state='STAGING' LIMIT 1`: the index is by the time of the update. -/
def Store.firstStaging (s : Store) : Option Generation :=
  Table.firstBy (fun a b => a.updatedAt ≤ b.updatedAt) (s.generations.rows.filter (·.state = .staging))

/-- `… WHERE state='SUPERSEDED' ORDER BY activated_at DESC` -/
def Store.supersededIds (s : Store) : List String :=
  (((s.generations.rows.filter (·.state = .superseded)).insertionSort
    fun a b => b.activatedAt.getD 0 ≤ a.activatedAt.getD 0)).map (·.id)

/-- The second half of `prepareNewsProjection`: no row of the generation. -/
def openNewsProjection (m : Manifest) (now : ℤ) : Handler :=
  let insert (cleanup : List String) : Handler :=
    read fun s => commit (.openGeneration (cleanup ++ s.supersededIds) m now) fun ok =>
      done (if ok then .prepared false m.generationId 0 0 (some EMPTY_RECEIPT_DIGEST) else .failed)
  read fun s =>
    match s.firstStaging with
    | none => insert []
    | some staging =>
      read fun s =>
        if !expired (s.progress staging.id) staging now then done (.refused .stagingBusy)
        else insert [staging.id]

def prepareNewsProjection [Platform] (rawManifest : Json) (now : ℤ) : Handler :=
  match validateNewsProjectionManifest rawManifest with
  | none => done (.refused .manifestInvalid)
  | some m =>
    read fun s =>
      if (s.state.map (alreadyActive · m)).getD false then
        done (.prepared true m.generationId m.expectedDetailCount m.expectedIndexCount none)
      else read fun s =>
        match s.generations.find? m.generationId with
        | none => openNewsProjection m now
        | some row =>
          if !manifestMatches row m then done (.refused .manifestMismatch)
          else read fun s =>
            let progress := s.progress m.generationId
            if row.state = .staging && expired progress row now then
              commit (.deleteGeneration m.generationId) fun ok =>
                if ok then openNewsProjection m now else done .failed
            else done (.prepared false m.generationId progress.nextDetailOffset progress.nextIndexOffset
              (some progress.receiptDigest))

/-! ## Stage -/

/-- `byKey` against the items of a detail batch: the rows to insert, none when a
    stored detail contradicts an item. -/
def newDetailRows (s : Store) (now : ℤ) : List Json → Option (List DetailRow)
  | [] => some []
  | item :: items =>
    match s.details.find? (itemKey item) with
    | some prior =>
      if prior.detailHash = textOf (item.get "detail_hash") ∧ prior.payload.same (item.get "payload") = true
      then newDetailRows s now items else none
    | none => (newDetailRows s now items).map fun rows =>
        ⟨itemKey item, textOf (item.get "detail_hash"), item.get "payload", now⟩ :: rows

def Manifest.expected (m : Manifest) : Kind → ℕ
  | .detail => m.expectedDetailCount
  | .index => m.expectedIndexCount

def Progress.next (p : Progress) : Kind → ℕ
  | .detail => p.nextDetailOffset
  | .index => p.nextIndexOffset

def Progress.identity (p : Progress) : Kind → String
  | .detail => p.detailIdentityDigest
  | .index => p.indexIdentityDigest

def stageNewsProjectionBatch [Platform] (kind : Kind) (generationId : String) (offset : ℤ)
    (items : List Json) (now : ℤ) : Handler :=
  if !Text.isSha256Hex generationId || offset < 0 || items.length < 1
      || maxBatchItems kind < items.length || items.any fun item => !validItem kind item then
    done (.refused .batchInvalid)
  else read fun s =>
    match s.generations.find? generationId with
    | none => done (.refused .notStaging)
    | some row =>
      if row.state ≠ .staging then done (.refused .notStaging)
      else read fun s =>
        let progress := s.progress generationId
        let at_ := offset.toNat
        if kind = .index && progress.nextDetailOffset ≠ row.manifest.expectedDetailCount then
          done (.refused .detailsIncomplete)
        else if row.manifest.expected kind < at_ + items.length then done (.refused .batchOverflow)
        else match newsProjectionPayloadHash (.arr items) with
        | none => done (.refused .receiptNumberInvalid)
        | some payloadHash =>
          if at_ < progress.next kind then
            read fun s =>
              match s.receipts.find? (generationId, kind, at_) with
              | some receipt =>
                if receipt.itemCount = items.length ∧ receipt.payloadHash = payloadHash
                    ∧ at_ + items.length ≤ progress.next kind
                then done (.staged true items.length receipt.receiptDigest)
                else done (.refused .receiptContradiction)
              | none => done (.refused .receiptContradiction)
          else if at_ ≠ progress.next kind then done (.refused .offsetMismatch)
          else
            let receiptDigest :=
              advanceNewsReceiptDigest progress.receiptDigest kind at_ items.length payloadHash
            let identityDigest := advanceNewsIdentityDigest (progress.identity kind) (items.map itemKey)
            let insert (rows : List DetailRow) : Handler :=
              commit (.stage generationId kind at_ items payloadHash receiptDigest identityDigest rows now)
                fun ok => done (if ok then .staged false items.length receiptDigest else .failed)
            match kind with
            | .index => insert []
            | .detail => read fun s =>
              match newDetailRows s now items with
              | none => done (.refused .detailContradiction)
              | some rows => insert rows

/-! ## Activate and verify -/

/-- Every count and digest of the replay is what its manifest expects. -/
def complete (m : Manifest) (progress : Progress) (counts : ProjectionCounts) : Bool :=
  progress.nextDetailOffset = m.expectedDetailCount && progress.nextIndexOffset = m.expectedIndexCount
    && counts.detailCount = m.expectedDetailCount && counts.indexCount = m.expectedIndexCount
    && counts.missingDetailCount = 0
    && counts.reviewViolationCount + counts.duplicateClusterCount = 0
    && progress.detailIdentityDigest = progress.indexIdentityDigest
    && progress.receiptDigest = m.expectedReceiptDigest

def activateNewsProjection (generationId : String) (now : ℤ) : Handler :=
  if !Text.isSha256Hex generationId then done (.refused .generationInvalid)
  else read fun s =>
    match s.state.filter fun st => st.activeGenerationId = generationId ∧ st.projectionState = .current with
    | some st => done (.activated generationId true st.indexCount st.detailCount)
    | none => read fun s =>
      match s.generations.find? generationId with
      | none => done (.refused .notStaging)
      | some row =>
        if row.state ≠ .staging then done (.refused .notStaging)
        else read fun s =>
          let progress := s.progress generationId
          read fun s =>
            let counts := s.projectionCounts generationId row.manifest.contractVersion
            if !complete row.manifest progress counts then done (.refused .incomplete)
            else commit (.activate row.manifest progress (s.receiptItems generationId) now) fun ok =>
              done (if ok then .activated generationId false row.manifest.expectedIndexCount
                row.manifest.expectedDetailCount else .failed)

def verifyNewsProjection (generationId : String) (now : ℤ) : Handler :=
  read fun s =>
    match s.state.filter fun st => st.activeGenerationId = generationId with
    | none => done (.refused .notCurrent)
    | some st => read fun s =>
      let contract := ((s.generations.find? generationId).map (·.manifest.contractVersion)).getD
        st.contractVersion
      read fun s =>
        let counts := s.projectionCounts generationId contract
        read fun s =>
          let missing := counts.missingDetailCount
          let violations := counts.reviewViolationCount + counts.duplicateClusterCount
            + s.reverseViolations generationId contract
          let current := counts.indexCount = st.indexCount && counts.detailCount = st.detailCount
            && missing = 0 && violations = 0
          commit (.verify generationId missing violations current now) fun ok =>
            done (if !ok then .failed
              else if current then .verified generationId now else .refused .recoveryRequired)

/-! ## Sparse patches -/

def deltaInvalid (message : String) : ProtocolError := ⟨message, 400, "NEWS_DELTA_INVALID"⟩

def deltaBaseChanged (message : String) : ProtocolError := ⟨message, 409, "NEWS_DELTA_BASE_CHANGED"⟩

def itemsOf : Json → Option (List Json)
  | .arr items => some items
  | _ => none

/-- The checks of a patch's body, and its digest against the one announced. -/
def parseDelta [Platform] (patch digest : Json) : Except ProtocolError Delta := do
  let base := patch.get "base"
  let some indexes := itemsOf (patch.get "indexes") | throw (deltaInvalid "invalid sparse news patch")
  let some details := itemsOf (patch.get "details") | throw (deltaInvalid "invalid sparse news patch")
  let some removed := itemsOf (patch.get "removed") | throw (deltaInvalid "invalid sparse news patch")
  if !(isDigest (base.get "generation_id") && isDigest (base.get "snapshot_id")
      && isDigest (base.get "receipt_digest") && decide (indexes.length ≤ 32)
      && decide (details.length ≤ 16) && decide (removed.length ≤ 32)
      && indexes.all (fun v => validIndex v
        && v.get "mirror_contract" = .str NEWS_PROJECTION_CONTRACT_VERSION)
      && details.all validDetail && removed.all isDigest) then
    throw (deltaInvalid "invalid sparse news patch")
  let some source := validateNewsProjectionManifest (patch.get "source")
    | throw .manifestInvalid
  if source.expectedDetailCount ≠ source.expectedIndexCount then
    throw (deltaInvalid "incomplete source membership")
  let indexKeys := indexes.map itemKey
  let detailKeys := details.map itemKey
  let removedKeys := removed.map textOf
  if !(decide (indexKeys ++ removedKeys).Nodup && decide detailKeys.Nodup
      && detailKeys.all fun key => decide (key ∈ indexKeys)) then
    throw (deltaInvalid "duplicate or unreferenced patch identity")
  let some computed := newsProjectionPayloadHash patch | throw .receiptNumberInvalid
  if digest ≠ .str computed then throw (deltaInvalid "patch digest mismatch")
  return { baseGenerationId := textOf (base.get "generation_id")
           baseSnapshotId := textOf (base.get "snapshot_id")
           baseReceiptDigest := textOf (base.get "receipt_digest")
           source := source, indexes := indexes, details := details, removed := removedKeys
           computed := computed }

def StateRow.isBaseOf (st : StateRow) (d : Delta) : Bool :=
  st.projectionState = .current && st.activeGenerationId = d.baseGenerationId
    && st.snapshotId = d.baseSnapshotId && st.receiptDigest = d.baseReceiptDigest

/-- The batch of a patch, and what a reply says when it raises. -/
def sendDelta (d : Delta) (serialized : List Json) (now : ℤ) : Handler :=
  commit (.delta d serialized now) fun ok =>
    if ok then done (.applied d.manifest)
    else read fun latest => read fun s =>
      if latest.state.map (·.activeGenerationId) ≠ some d.baseGenerationId || s.isStaging
      then done (.refused (deltaBaseChanged "news delta baseline changed"))
      else done .failed

/-- `serializedDetails`: the stored payload where there is one, unless it
    contradicts the item. -/
def serializeDetails (d : Delta) (now : ℤ) : List Json → List Json → Handler
  | [], serialized => sendDelta d serialized now
  | item :: items, serialized => read fun s =>
    match s.details.find? (itemKey item) with
    | some prior =>
      if prior.detailHash = textOf (item.get "detail_hash") ∧ prior.payload.same (item.get "payload") = true
      then serializeDetails d now items (serialized ++ [prior.payload])
      else done (.refused (deltaInvalid "immutable news detail changed"))
    | none => serializeDetails d now items (serialized ++ [item.get "payload"])

def applyNewsProjectionDelta [Platform] (raw digest : Json) (now : ℤ) : Handler :=
  match parseDelta raw digest with
  | .error e => done (.refused e)
  | .ok d => read fun s =>
    if (s.state.map fun st => decide (st.activeGenerationId = d.computed ∧ st.receiptDigest = d.computed
        ∧ st.projectionState = .current)).getD false then
      done (.applied d.manifest)
    else if !(s.state.map (·.isBaseOf d)).getD false then
      done (.refused (deltaBaseChanged "news delta baseline changed"))
    else read fun s =>
      if s.isStaging then done (.refused (deltaBaseChanged "news full replay is in progress"))
      else serializeDetails d now d.details []

/-! ## Requests -/

/-- A request with its body, as a parser leaves it, and its clock. -/
inductive Request where
  | prepare (rawManifest : Json) (now : ℤ)
  | stage (kind : Kind) (generationId : String) (offset : ℤ) (items : List Json) (now : ℤ)
      (parsed : (Json.arr items).WF = true)
  | activate (generationId : String) (now : ℤ)
  | verify (generationId : String) (now : ℤ)
  | abandon (generationId : String)
  | applyDelta (patch digest : Json) (now : ℤ) (parsed : patch.WF = true)

def Request.program [Platform] : Request → Handler
  | prepare rawManifest now => prepareNewsProjection rawManifest now
  | stage kind generationId offset items now _ => stageNewsProjectionBatch kind generationId offset items now
  | activate generationId now => activateNewsProjection generationId now
  | verify generationId now => verifyNewsProjection generationId now
  | abandon generationId => abandonNewsProjection generationId
  | applyDelta patch digest now _ => applyNewsProjectionDelta patch digest now

/-- The store and the log of its batches. -/
abbrev World := Logged Store Batch

def World.empty : World := ⟨.empty, []⟩

/-- One request alone. -/
def serve [Platform] (w : World) (r : Request) : Reply × World := Program.serve Batch.exec Request.program w r

/-- One step of the requests under way. -/
def step [Platform] (f : Flight Store Batch Reply) (a : FlightAction Request) :
    Unit × Flight Store Batch Reply :=
  f.step Batch.exec Request.program a

end Xauusd.Projection
