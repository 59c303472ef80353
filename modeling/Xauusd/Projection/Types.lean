/-
  The news projection protocol: manifests, staged items, and the digests that
  identify them (`news-projection-store.ts`, `news-review-state.ts`).

  * `Platform`: `Date.parse`, and SQLite's `julianday`;
  * `Manifest`, `validateNewsProjectionManifest`;
  * `validDetail`, `validIndex`: what a batch may hold;
  * `newsProjectionPayloadHash`, `advanceNewsReceiptDigest`,
    `advanceNewsIdentityDigest`: the digests of a replay;
  * `reviewInvariant`: `NEWS_REVIEW_STATE_INVARIANT_SQL`, in SQL's three values.
-/
import Xauusd.Lib.Json
import Xauusd.Lib.Sha256
import Xauusd.Lib.Text
import Mathlib

namespace Xauusd.Projection

/-- What the Worker and its database bring along. -/
class Platform where
  /-- `Date.parse` returns a number. -/
  dateParses : String → Bool
  /-- The day number of a text, null when it reads no date. -/
  julianday : String → Option ℚ

export Platform (dateParses julianday)

def NEWS_PROJECTION_CONTRACT_VERSION : String := "news-projection-generation-v4"

def NEWS_PROJECTION_MAX_ITEMS : ℕ := 10000
def NEWS_INDEX_MAX_BATCH_ITEMS : ℕ := 4
def NEWS_DETAIL_MAX_BATCH_ITEMS : ℕ := 8
def NEWS_PROJECTION_STAGING_TTL_MS : ℤ := 24 * 60 * 60000

def EMPTY_RECEIPT_DIGEST : String :=
  "e3b0c44298fc1c149afbf4c8996fb92427ae41e4649b934ca495991b7852b855"

def NEWS_PROJECTION_CATEGORIES : List String :=
  ["利率/Fed", "通胀/就业", "增长/经济", "美元/流动性", "油价/能源",
   "战争/地缘", "央行购金", "风险情绪 / 避险", "监管/其他", "其他"]

/-- The contract of a generation: a full replay, or a sparse publication
    (`NEWS_DELTA_CONTRACT`). -/
inductive Contract where
  | generation
  | delta
  deriving DecidableEq, Repr

inductive Kind where
  | detail
  | index
  deriving DecidableEq, Repr

def Kind.text : Kind → String
  | detail => "detail"
  | index => "index"

/-! ## Errors -/

structure ProtocolError where
  message : String
  status : ℕ
  code : String
  deriving DecidableEq, Repr

namespace ProtocolError

def manifestInvalid : ProtocolError :=
  ⟨"invalid news projection manifest", 400, "NEWS_PROJECTION_MANIFEST_INVALID"⟩
def manifestMismatch : ProtocolError :=
  ⟨"news generation manifest changed", 409, "NEWS_PROJECTION_MANIFEST_MISMATCH"⟩
def stagingBusy : ProtocolError :=
  ⟨"another news generation is staging", 409, "NEWS_PROJECTION_STAGING_BUSY"⟩
def generationInvalid : ProtocolError :=
  ⟨"invalid news generation", 400, "NEWS_PROJECTION_GENERATION_INVALID"⟩
def abandonRejected : ProtocolError :=
  ⟨"only a staging news generation can be abandoned", 409, "NEWS_PROJECTION_ABANDON_CURRENT_REJECTED"⟩
def batchInvalid : ProtocolError :=
  ⟨"invalid news projection batch", 400, "NEWS_PROJECTION_BATCH_INVALID"⟩
def notStaging : ProtocolError :=
  ⟨"news generation is not staging", 409, "NEWS_PROJECTION_NOT_STAGING"⟩
def detailsIncomplete : ProtocolError :=
  ⟨"news details are incomplete", 409, "NEWS_PROJECTION_DETAILS_INCOMPLETE"⟩
def batchOverflow : ProtocolError :=
  ⟨"news batch exceeds manifest", 409, "NEWS_PROJECTION_BATCH_OVERFLOW"⟩
def receiptNumberInvalid : ProtocolError :=
  ⟨"receipt number is outside the supported JSON range", 400, "NEWS_PROJECTION_RECEIPT_NUMBER_INVALID"⟩
def receiptContradiction : ProtocolError :=
  ⟨"news batch contradicts its receipt", 409, "NEWS_PROJECTION_RECEIPT_CONTRADICTION"⟩
def offsetMismatch : ProtocolError :=
  ⟨"news batch offset mismatch", 409, "NEWS_PROJECTION_OFFSET_MISMATCH"⟩
def detailContradiction : ProtocolError :=
  ⟨"news detail contradicts immutable evidence", 409, "NEWS_PROJECTION_DETAIL_CONTRADICTION"⟩
def incomplete : ProtocolError :=
  ⟨"news generation is incomplete", 409, "NEWS_PROJECTION_INCOMPLETE"⟩
def notCurrent : ProtocolError :=
  ⟨"news generation is not current", 409, "NEWS_PROJECTION_NOT_CURRENT"⟩
def recoveryRequired : ProtocolError :=
  ⟨"current news generation requires recovery", 409, "NEWS_PROJECTION_RECOVERY_REQUIRED"⟩

end ProtocolError

/-! ## Manifests -/

structure Manifest where
  generationId : String
  snapshotId : String
  contractVersion : Contract
  windowStart : String
  watermark : String
  expectedIndexCount : ℕ
  expectedDetailCount : ℕ
  withdrawalCount : ℕ
  sourceDigest : String
  expectedReceiptDigest : String
  deriving DecidableEq, Repr

/-- A string value as it is, any other as the empty text. -/
def textOf : Json → String
  | .str s => s
  | _ => ""

/-- `safeCount`: a whole number from 0 to `NEWS_PROJECTION_MAX_ITEMS`, read from
    the binary64. -/
def safeCount : Json → Option ℕ
  | .num bits =>
    let exponent := (bits >>> 52).toNat % 2048
    let mantissa := bits.toNat % 2 ^ 52
    let scale := 2 ^ (1075 - exponent)
    if Json.isZero bits then some 0
    else if bits.msb || exponent < 1023 || 1075 < exponent || (2 ^ 52 + mantissa) % scale ≠ 0 then none
    else if (2 ^ 52 + mantissa) / scale ≤ NEWS_PROJECTION_MAX_ITEMS
    then some ((2 ^ 52 + mantissa) / scale) else none
  | _ => none

/-- `NEWS_GENERATION_ID` and `SHA256` are the same pattern. -/
def isDigest : Json → Bool
  | .str s => Text.isSha256Hex s
  | _ => false

def isDate [Platform] : Json → Bool
  | .str s => dateParses s
  | _ => false

def validateNewsProjectionManifest [Platform] (row : Json) : Option Manifest := do
  let indexCount ← safeCount (row.get "expected_index_count")
  let detailCount ← safeCount (row.get "expected_detail_count")
  let withdrawals ← safeCount (row.get "withdrawal_count")
  guard (isDigest (row.get "generation_id") && isDigest (row.get "snapshot_id")
    && row.get "contract_version" = .str NEWS_PROJECTION_CONTRACT_VERSION
    && isDate (row.get "window_start") && isDate (row.get "watermark")
    && !Text.utf16Less (textOf (row.get "watermark")) (textOf (row.get "window_start"))
    && decide (indexCount ≤ detailCount)
    && isDigest (row.get "source_digest") && isDigest (row.get "expected_receipt_digest"))
  some
    { generationId := textOf (row.get "generation_id"), snapshotId := textOf (row.get "snapshot_id"),
      contractVersion := .generation, windowStart := textOf (row.get "window_start"),
      watermark := textOf (row.get "watermark"), expectedIndexCount := indexCount,
      expectedDetailCount := detailCount, withdrawalCount := withdrawals,
      sourceDigest := textOf (row.get "source_digest"),
      expectedReceiptDigest := textOf (row.get "expected_receipt_digest") }

/-! ## Items -/

def itemKey (item : Json) : String := textOf (item.get "detail_key")

def isStr : Json → Bool
  | .str _ => true
  | _ => false

/-- A payload: `!== null && typeof … === "object"`. -/
def isContainer : Json → Bool
  | .arr _ | .obj _ => true
  | _ => false

/-- `CONTRACT` -/
def isContract : Json → Bool
  | .str s =>
    let plain (c : Char) : Bool := ('a' ≤ c && c ≤ 'z') || ('0' ≤ c && c ≤ '9')
    match s.toList with
    | [] => false
    | c :: rest => plain c && decide (rest.length ≤ 127)
        && rest.all fun c => plain c || c = '.' || c = '_' || c = '-'
  | _ => false

/-- `CANONICAL_EXPIRY` -/
def isCanonicalExpiry : Json → Bool
  | .str s => Text.shaped "####-##-##T##:##:##.######+00:00" s
  | _ => false

def validDetail (item : Json) : Bool :=
  isDigest (item.get "detail_key") && isDigest (item.get "detail_hash")
    && isContainer (item.get "payload")

def validIndex (item : Json) : Bool :=
  isDigest (item.get "detail_key")
    && isStr (item.get "category") && decide (textOf (item.get "category") ∈ NEWS_PROJECTION_CATEGORIES)
    && isStr (item.get "cluster_id") && isStr (item.get "collector_first_seen_time")
    && isContract (item.get "mirror_contract")
    && (item.get "model_visibility" ≠ .str "MODEL_VISIBLE"
      || isCanonicalExpiry (item.get "impact_expires_at"))

def validItem : Kind → Json → Bool
  | .detail => validDetail
  | .index => validIndex

def maxBatchItems : Kind → ℕ
  | .detail => NEWS_DETAIL_MAX_BATCH_ITEMS
  | .index => NEWS_INDEX_MAX_BATCH_ITEMS

/-! ## Digests -/

/-- The digest of a value's canonical text, none when a number is not finite. -/
def newsProjectionPayloadHash (value : Json) : Option String :=
  if value.finite then some (sha256 (String.ofList value.canonical)) else none

theorem finite_of_payloadHash {value : Json} {hash : String} (h : newsProjectionPayloadHash value = some hash) :
    value.finite = true := by
  unfold newsProjectionPayloadHash at h
  split at h
  · assumption
  · cases h

def receiptText (previous : String) (kind : Kind) (offset itemCount : ℕ) (payloadHash : String) : String :=
  previous ++ "\n" ++ kind.text ++ "|" ++ toString offset ++ "|" ++ toString itemCount ++ "|" ++ payloadHash

def advanceNewsReceiptDigest (previous : String) (kind : Kind) (offset itemCount : ℕ)
    (payloadHash : String) : String :=
  sha256 (receiptText previous kind offset itemCount payloadHash)

def identityText (previous key : String) : String := previous ++ "\n" ++ key

def advanceNewsIdentityDigest (previous : String) (keys : List String) : String :=
  keys.foldl (fun digest key => sha256 (identityText digest key)) previous

/-! ## Review states -/

/-- `AND` of three-valued logic; none is NULL. -/
def sqlAnd : Option Bool → Option Bool → Option Bool
  | some false, _ | _, some false => some false
  | some true, b => b
  | none, _ => none

def sqlOr : Option Bool → Option Bool → Option Bool
  | some true, _ | _, some true => some true
  | some false, b => b
  | none, _ => none

/-- `a = b` of extracted values. -/
def sqlEq (a b : Json) : Option Bool := if a = .null ∨ b = .null then none else some (a = b)

def COMPLETED_ANNOTATION_STATUSES : List String := ["READY", "NOT_REQUIRED"]

def ALIGNED_UNPARSED_ANNOTATION_STATUSES : List String :=
  ["REPAIRING_DISPLAY", "BACKING_OFF", "DEAD_LETTER", "WAITING_CONTENT", "CONTENT_UNAVAILABLE"]

/-- `ACTIVE_NEWS_SQL` -/
def activeNews (payload : Json) : Bool := payload.get "annotation_status" ≠ .str "SUPERSEDED_CONTRACT"

/-- `NEWS_REVIEW_STATE_INVARIANT_SQL` -/
def reviewInvariant (payload : Json) : Option Bool :=
  let status := payload.get "annotation_status"
  let visibility := payload.get "model_visibility"
  let unparsed := payload.get "parsed_at" = .null
  let aligned : Option Bool :=
    if status = .null then none
    else some (decide (textOf status ∈ ALIGNED_UNPARSED_ANNOTATION_STATUSES) && isStr status)
  sqlOr (sqlAnd (sqlEq status (.str "NOT_REQUIRED"))
      (sqlAnd (sqlEq visibility (.str "MODEL_INELIGIBLE")) (some unparsed)))
    (sqlOr (sqlAnd (sqlEq status (.str "QUEUED"))
        (sqlAnd (sqlEq visibility (.str "NOT_YET_PARSED")) (some unparsed)))
      (sqlOr (sqlAnd (sqlEq status (.str "READY"))
          (sqlAnd ((sqlEq visibility (.str "NOT_YET_PARSED")).map (!·)) (some (!unparsed))))
        (sqlAnd aligned (sqlAnd (sqlEq visibility status) (some unparsed)))))

inductive ReviewState where
  | completed
  | processing
  /-- The row of all states together. -/
  | all
  deriving DecidableEq, Repr

/-- `NEWS_REVIEW_STATE_CASE_SQL` -/
def reviewStateOf (payload : Json) : ReviewState :=
  if isStr (payload.get "annotation_status")
      && decide (textOf (payload.get "annotation_status") ∈ COMPLETED_ANNOTATION_STATUSES)
  then .completed else .processing

end Xauusd.Projection
