/-
  The rich content of the Assistant's answers (`assistant/content.py`).

  * `BlockData`, `Block`, `Document`: what a document is made of, with its JSON;
  * `validateAssistantContentDocument`: the reader of a document;
  * `newsCards`, `buildAssistantContentDocument`: the document of an answer and
    of the evidence that it cites;
  * `Document.Bound`, `buildDocument_bound`: **the document shows the answer
    first, and only evidence that it cites**.

  A document has the fields that `_strict_object` asks for.
-/
import Xauusd.Agent.Evidence

namespace Xauusd.Agent

open Raises (raiseIf orRaise bind_eq_ok raiseIf_eq_ok)

def ASSISTANT_CONTENT_PROTOCOL_VERSION : String := "assistant.content.v1"
def MAX_ASSISTANT_CONTENT_BLOCKS : ℕ := 12
def MAX_ASSISTANT_CONTENT_BYTES : ℕ := 65536
def MAX_ASSISTANT_NEWS_CARDS : ℕ := 4

/-- `_BLOCK_ID`, `_EVIDENCE_ID` -/
def isBlockId : String → Bool := Routing.identifier [':', '.', '_', '-'] 127

/-! ## Texts -/

/-- `_UNSAFE_TEXT` -/
def isUnsafe (c : CodePoint) : Bool := c = .char '\x00' || c = .char '\x0b' || c = .char '\x0c'

/-- `value.replace("\r\n", "\n").replace("\r", "\n")` -/
def unifyNewlines : PyStr → PyStr
  | .char '\r' :: .char '\n' :: s => .char '\n' :: unifyNewlines s
  | .char '\r' :: s => .char '\n' :: unifyNewlines s
  | c :: s => c :: unifyNewlines s
  | [] => []

/-- `_text` -/
def contentText (label : String) (minimum maximum : ℕ) (multiline : Bool) (value : PyStr) : Except Raised PyStr :=
  if value.any isUnsafe then .error (.content (label ++ " contains unsafe controls"))
  else
    let normalized := unifyNewlines value
    if !multiline && normalized.any (fun c => c = .char '\n' || c = .char '\t') then
      .error (.content (label ++ " must be one line"))
    else if minimum ≤ normalized.length ∧ normalized.length ≤ maximum then .ok normalized
    else .error (.content (label ++ " length is invalid"))

/-- `_nullable_text` -/
def nullableText (label : String) (maximum : ℕ) : Option PyStr → Except Raised (Option PyStr)
  | none => .ok none
  | some value => (contentText label 0 maximum false value).map some

/-- `_canonical_optional_time`, of a text that is not blank -/
def canonicalTime (P : Python) (raw : PyStr) : Except Raised (Option String) :=
  match P.fromIsoformat (replaceZulu raw) with
  | some (some t) => (canonicalInstant t).map some
  | _ => .ok none

/-- `_CANONICAL_TIME` -/
def isCanonicalTime (s : PyStr) : Bool :=
  match s.text? with
  | some text =>
    let shape := "dddd-dd-ddTdd:dd:dd.dddZ"
    decide (text.toList.length = shape.toList.length) &&
      (List.zip shape.toList text.toList).all fun c => if c.1 = 'd' then c.2.isDigit else c.1 = c.2
  | none => false

/-- `_time` -/
def contentTime (P : Python) (label : String) : Option PyStr → Except Raised (Option PyStr)
  | none => .ok none
  | some value => do
    let timestamp ← contentText label 24 24 false value
    raiseIf (¬ isCanonicalTime timestamp) (.content (label ++ " is not canonical UTC"))
    let t ← orRaise (P.fromIsoformat (replaceZulu timestamp)).join (.content (label ++ " is invalid"))
    let canonical ← canonicalInstant t
    raiseIf (PyStr.of canonical ≠ timestamp) (.content (label ++ " is invalid"))
    return some timestamp

/-- A URL with a host, over HTTPS, that names no user. -/
def Url.isPublic (url : Url) : Bool :=
  url.scheme = PyStr.of "https" && url.hostname.any (· ≠ []) && url.username.isNone && url.password.isNone

/-- `_https_url` -/
def httpsUrl (P : Python) : Option PyStr → Except Raised (Option PyStr)
  | none => .ok none
  | some value => do
    let url ← contentText "news_card.source_url" 1 2048 false value
    let parsed ← orRaise (P.urlsplit url) (.valueError "Invalid URL")
    raiseIf (¬ parsed.isPublic) (.content "news_card.source_url must be public HTTPS")
    return some url

/-! ## Documents -/

structure NewsCard where
  evidenceId : PyStr
  source : PyStr
  publishedAt : Option PyStr
  receivedAt : Option PyStr
  headline : PyStr
  summary : PyStr
  category : PyStr
  impact : PyStr
  relevance : Option PyStr
  sourceUrl : Option PyStr
  deriving DecidableEq

structure Column where
  key : PyStr
  label : PyStr
  align : PyStr
  deriving DecidableEq

/-- A cell of a table. -/
inductive Cell where
  | null
  | bool (b : Bool)
  | int (n : ℤ)
  | text (s : PyStr)
  deriving DecidableEq

inductive BlockData where
  | markdown (text : PyStr)
  | newsCard (card : NewsCard)
  | table (caption : Option PyStr) (columns : List Column) (rows : List (List Cell))
  | metric (label value : PyStr) (unit : Option PyStr) (trend : PyStr) (detail : Option PyStr)
  | callout (tone title body : PyStr)
  deriving DecidableEq

def BlockData.type : BlockData → String
  | markdown _ => "markdown"
  | newsCard _ => "news_card"
  | table .. => "table"
  | metric .. => "metric"
  | callout .. => "callout"

def optionalText (s : Option PyStr) : PyJson := (s.map PyJson.str).getD .none

def NewsCard.json (c : NewsCard) : PyJson := pyDict [
  ("evidence_id", .str c.evidenceId), ("source", .str c.source), ("published_at", optionalText c.publishedAt),
  ("received_at", optionalText c.receivedAt), ("headline", .str c.headline), ("summary", .str c.summary),
  ("category", .str c.category), ("impact", .str c.impact), ("relevance", optionalText c.relevance),
  ("source_url", optionalText c.sourceUrl)]

def Cell.json : Cell → PyJson
  | null => .none
  | bool b => .bool b
  | int n => .int n
  | text s => .str s

def BlockData.json : BlockData → PyJson
  | markdown text => pyDict [("text", .str text)]
  | newsCard card => card.json
  | table caption columns rows => pyDict [("caption", optionalText caption),
      ("columns", .list (columns.map fun c => pyDict [("key", .str c.key), ("label", .str c.label), ("align", .str c.align)])),
      ("rows", .list (rows.map fun row => .list (row.map Cell.json)))]
  | metric label value unit trend detail => pyDict [("label", .str label), ("value", .str value),
      ("unit", optionalText unit), ("trend", .str trend), ("detail", optionalText detail)]
  | callout tone title body => pyDict [("tone", .str tone), ("title", .str title), ("body", .str body)]

structure Block where
  id : PyStr
  data : BlockData
  contentSha256 : String
  deriving DecidableEq

structure Document where
  blocks : List Block
  documentSha256 : String
  deriving DecidableEq

def blockCore (id : PyStr) (data : BlockData) : List (String × PyJson) :=
  [("id", .str id), ("type", pyString data.type), ("version", pyString "v1"), ("data", data.json)]

def Block.json (b : Block) : PyJson := pyDict (blockCore b.id b.data ++ [("content_sha256", pyString b.contentSha256)])

def documentCore (blocks : List Block) : List (String × PyJson) :=
  [("protocol", pyString ASSISTANT_CONTENT_PROTOCOL_VERSION), ("blocks", .list (blocks.map Block.json))]

def Document.json (d : Document) : PyJson :=
  pyDict (documentCore d.blocks ++ [("document_sha256", pyString d.documentSha256)])

/-- `_sha256`: the floats of a document would be read as such, and it has none. -/
def contentSha256 (P : Python) (members : List (String × PyJson)) : Except Raised String := do
  let bytes ← orRaise (P.jsonBytes (pyDict members)) .unwritable
  return sha256Bytes bytes

/-! ## The reader -/

section
variable (P : Python)

def NewsCard.validate (c : NewsCard) : Except Raised NewsCard := do
  let evidenceId ← contentText "news_card.evidence_id" 1 128 false c.evidenceId
  raiseIf (¬ evidenceId.text?.any isBlockId) (.content "news_card.evidence_id is invalid")
  let source ← contentText "news_card.source" 0 100 false c.source
  let publishedAt ← contentTime P "news_card.published_at" c.publishedAt
  let receivedAt ← contentTime P "news_card.received_at" c.receivedAt
  let headline ← contentText "news_card.headline" 1 300 false c.headline
  let summary ← contentText "news_card.summary" 0 600 true c.summary
  let category ← contentText "news_card.category" 0 80 false c.category
  let impact ← contentText "news_card.impact" 0 600 true c.impact
  let relevance ← nullableText "news_card.relevance" 600 c.relevance
  let sourceUrl ← httpsUrl P c.sourceUrl
  return { evidenceId, source, publishedAt, receivedAt, headline, summary, category, impact, relevance, sourceUrl }

/-- `_COLUMN_KEY` -/
def isColumnKey (s : String) : Bool := isFieldName s && decide (s.toList.length ≤ 32)

/-- The columns of a table, whose keys differ. -/
def validateColumns (keys : List PyStr) : List Column → Except Raised (List Column)
  | [] => .ok []
  | c :: columns => do
    let key ← contentText "table column key" 1 32 false c.key
    let align ← contentText "table column align" 1 8 false c.align
    raiseIf (¬ key.text?.any isColumnKey ∨ key ∈ keys ∨ align ∉ ["left", "right", "center"].map PyStr.of)
      (.content "table column is invalid")
    let label ← contentText "table column label" 1 80 false c.label
    let columns ← validateColumns (key :: keys) columns
    return { key, label, align } :: columns

/-- `_cell` -/
def Cell.validate : Cell → Except Raised Cell
  | int n => if 10 ^ 15 < n.natAbs then .error (.content "table integer is out of range") else .ok (int n)
  | text s => (contentText "table cell" 0 500 true s).map text
  | c => .ok c

/-- `_validate_data` -/
def BlockData.validate : BlockData → Except Raised BlockData
  | markdown text => do
    let text ← contentText "markdown.text" 1 32000 true text
    return .markdown text
  | newsCard card => do
    let card ← card.validate P
    return .newsCard card
  | table caption columns rows => do
    raiseIf (¬ (1 ≤ columns.length ∧ columns.length ≤ 6)) (.content "table columns are invalid")
    let columns ← validateColumns [] columns
    raiseIf (¬ (1 ≤ rows.length ∧ rows.length ≤ 20)) (.content "table rows are invalid")
    let rows ← rows.mapM fun row => do
      raiseIf (row.length ≠ columns.length) (.content "table row width is invalid")
      row.mapM Cell.validate
    let caption ← nullableText "table.caption" 160 caption
    return .table caption columns rows
  | metric label value unit trend detail => do
    let trend ← contentText "metric.trend" 2 7 false trend
    raiseIf (trend ∉ ["UP", "DOWN", "FLAT", "UNKNOWN"].map PyStr.of) (.content "metric.trend is invalid")
    let label ← contentText "metric.label" 1 80 false label
    let value ← contentText "metric.value" 1 80 false value
    let unit ← nullableText "metric.unit" 32 unit
    let detail ← nullableText "metric.detail" 240 detail
    return .metric label value unit trend detail
  | callout tone title body => do
    let tone ← contentText "callout.tone" 4 32 false tone
    raiseIf (tone ∉ ["INFO", "WARNING", "INSUFFICIENT_EVIDENCE", "BOUNDARY"].map PyStr.of)
      (.content "callout.tone is invalid")
    let title ← contentText "callout.title" 1 120 false title
    let body ← contentText "callout.body" 1 1000 true body
    return .callout tone title body

/-- The evidence of a card. -/
def BlockData.evidence? : BlockData → Option PyStr
  | newsCard card => some card.evidenceId
  | _ => none

/-- The blocks after some ids and some cards were seen. -/
def validateBlocks (allowed : List PyStr) (seenIds seenNews : List PyStr) : List Block → Except Raised (List Block)
  | [] => .ok []
  | b :: blocks => do
    let id ← contentText "content block id" 1 128 false b.id
    raiseIf (¬ id.text?.any isBlockId ∨ id ∈ seenIds) (.content "Assistant content block identity is invalid")
    let data ← b.data.validate P
    raiseIf (data.evidence?.any fun e => e ∉ allowed ∨ e ∈ seenNews)
      (.content "news_card evidence is not in turn provenance")
    raiseIf (¬ Text.isSha256Hex b.contentSha256) (.content "Assistant content block hash is invalid")
    let expected ← contentSha256 P (blockCore id data)
    raiseIf (b.contentSha256 ≠ expected) (.content "Assistant content block hash does not match")
    let blocks ← validateBlocks allowed (id :: seenIds) (data.evidence?.toList ++ seenNews) blocks
    return { id, data, contentSha256 := b.contentSha256 } :: blocks

/-- `validate_assistant_content_document` -/
def validateAssistantContentDocument (d : Document) (answer : PyStr) (evidenceIds : List PyStr) :
    Except Raised Document := do
  raiseIf (¬ (1 ≤ d.blocks.length ∧ d.blocks.length ≤ MAX_ASSISTANT_CONTENT_BLOCKS))
    (.content "Assistant content block count is invalid")
  let blocks ← validateBlocks P evidenceIds [] [] d.blocks
  raiseIf (blocks.head?.map (·.data) ≠ some (.markdown answer))
    (.content "First markdown block must equal the canonical answer")
  let expected ← contentSha256 P (documentCore blocks)
  raiseIf (¬ Text.isSha256Hex d.documentSha256 ∨ d.documentSha256 ≠ expected)
    (.content "Assistant content document hash does not match")
  let normalized : Document := { blocks, documentSha256 := d.documentSha256 }
  let bytes ← orRaise (P.jsonBytes normalized.json) .unwritable
  raiseIf (MAX_ASSISTANT_CONTENT_BYTES < bytes.length) (.content "Assistant content document exceeds its bound")
  return normalized

/-! ## The writer -/

/-- `_bounded` -/
def bounded (v : Option PyJson) (maximum : ℕ) : PyStr := (P.strOr v).joinWords.take maximum

/-- `_canonical_optional_time` -/
def canonicalOptionalTime (v : Option PyJson) : Except Raised (Option PyStr) :=
  let raw := PyStr.strip (P.strOr v)
  if raw = [] then .ok none else (canonicalTime P raw).map (·.map PyStr.of)

/-- `_safe_source_url` -/
def safeSourceUrl (v : Option PyJson) : Except Raised (Option PyStr) :=
  let raw := (PyStr.strip (P.strOr v)).take 2048
  if raw = [] then .ok none
  else match httpsUrl P (some raw) with
    | .error (.content _) => .ok none
    | result => result

/-- The card of an item. -/
def newsCard (members : List (PyStr × PyJson)) : Except Raised NewsCard := do
  let field := fun name => members.lookup (PyStr.of name)
  let publishedAt ← canonicalOptionalTime P (field "published_at")
  let receivedAt ← canonicalOptionalTime P (field "received_at")
  let sourceUrl ← safeSourceUrl P (field "source_url")
  return { evidenceId := bounded P (field "evidence_id") 128, source := bounded P (field "source") 100
           publishedAt, receivedAt, headline := bounded P (field "headline") 300
           summary := bounded P (field "summary") 600, category := bounded P (field "category") 80
           impact := bounded P (field "impact") 600, relevance := none, sourceUrl }

/-- The cards of the items that are allowed, up to `room` of them. -/
def newsCards (allowed : List PyStr) : ℕ → List PyStr → List PyJson → Except Raised (List NewsCard)
  | 0, _, _ => .ok []
  | _ + 1, _, [] => .ok []
  | room + 1, seen, .dict members :: items => do
    let evidenceId := bounded P (members.lookup (PyStr.of "evidence_id")) 128
    let headline := bounded P (members.lookup (PyStr.of "headline")) 300
    if ¬ evidenceId.text?.any isBlockId ∨ evidenceId ∉ allowed ∨ evidenceId ∈ seen ∨ headline = [] then
      newsCards allowed (room + 1) seen items
    else
      let card ← newsCard P members
      let cards ← newsCards allowed room (evidenceId :: seen) items
      return card :: cards
  | room + 1, seen, _ :: items => newsCards allowed (room + 1) seen items

/-- `_block` -/
def block (id : PyStr) (data : BlockData) : Except Raised Block := do
  let contentSha256 ← contentSha256 P (blockCore id data)
  return { id, data, contentSha256 }

/-- The id of the card at `index`. -/
def newsBlockId (index : ℕ) (card : NewsCard) : PyStr :=
  PyStr.of ("block:news:" ++ toString (index + 1) ++ ":" ++
    String.ofList (((sha256Text card.evidenceId).getD "").toList.take 12))

/-- The blocks after the answer. -/
def evidenceBlocks (cards : List NewsCard) (allowed : ℕ) (cutoff : Option PyStr) : Except Raised (List Block) := do
  if cards = [] then return []
  let metric ← block P (PyStr.of "block:metric:evidence") (.metric (PyStr.of "本轮检索证据")
    (PyStr.of (toString allowed)) (some (PyStr.of "条")) (PyStr.of "UNKNOWN")
    (some (match cutoff with
      | some cutoff => PyStr.of "检索截止 " ++ cutoff
      | none => PyStr.of "只读证据检索结果")))
  let news ← cards.zipIdx.mapM fun c => block P (newsBlockId c.2 c.1) (.newsCard c.1)
  if cards.length < 2 then return metric :: news
  let cell := fun s : Option PyStr => (s.map Cell.text).getD .null
  let table ← block P (PyStr.of "block:table:evidence-times") (.table (some (PyStr.of "本轮检索证据时间"))
    [⟨PyStr.of "source", PyStr.of "来源", PyStr.of "left"⟩, ⟨PyStr.of "published", PyStr.of "发布时间", PyStr.of "left"⟩,
      ⟨PyStr.of "received", PyStr.of "系统收到", PyStr.of "left"⟩]
    (cards.map fun c => [.text c.source, cell c.publishedAt, cell c.receivedAt]))
  return metric :: news ++ [table]

/-- The cutoff that is shown with some cards. -/
def shownCutoff (cards : List NewsCard) (retrievalCutoff : String) : Except Raised (Option PyStr) :=
  if cards = [] then .ok none else canonicalOptionalTime P (some (pyString retrievalCutoff))

/-- `build_assistant_content_document` -/
def buildAssistantContentDocument (answer : PyStr) (evidenceItems : List PyJson) (evidenceIds : List PyStr)
    (retrievalCutoff : String) : Except Raised Document := do
  let canonicalAnswer ← contentText "Assistant answer" 1 32000 true answer
  let allowed := evidenceIds.eraseDups
  let cards ← newsCards P allowed MAX_ASSISTANT_NEWS_CARDS [] evidenceItems
  let first ← block P (PyStr.of "block:answer") (.markdown canonicalAnswer)
  let cutoff ← shownCutoff P cards retrievalCutoff
  let rest ← evidenceBlocks P cards allowed.length cutoff
  let documentSha256 ← contentSha256 P (documentCore (first :: rest))
  validateAssistantContentDocument P { blocks := first :: rest, documentSha256 } canonicalAnswer allowed

end

/-! ## What a document is -/

section
variable {P : Python}

theorem unifyNewlines_eq {s : PyStr} (h : CodePoint.char '\r' ∉ s) : unifyNewlines s = s := by
  fun_induction unifyNewlines s with
  | case1 s ih => exact absurd List.mem_cons_self h
  | case2 s _ ih => exact absurd List.mem_cons_self h
  | case3 c s _ _ ih => rw [ih fun hs => h (List.mem_cons_of_mem _ hs)]
  | case4 => rfl

theorem contentText_ok {label : String} {minimum maximum : ℕ} {multiline : Bool} {value text : PyStr}
    (h : contentText label minimum maximum multiline value = .ok text) : text = unifyNewlines value := by
  rw [contentText] at h
  split at h
  · cases h
  · dsimp only at h
    split at h
    · cases h
    · split at h
      · cases h
        rfl
      · cases h

/-- The evidence of the cards among some blocks. -/
def cardEvidence (blocks : List Block) : List PyStr := blocks.filterMap (·.data.evidence?)

theorem cardEvidence_cons (b : Block) (blocks : List Block) :
    cardEvidence (b :: blocks) = b.data.evidence?.toList ++ cardEvidence blocks := by
  cases h : b.data.evidence? with
  | none => simp [cardEvidence, h]
  | some e => simp [cardEvidence, h]

theorem validateBlocks_ok {allowed seenIds seenNews : List PyStr} {raws blocks : List Block}
    (h : validateBlocks P allowed seenIds seenNews raws = .ok blocks) :
    ((blocks.map (·.id)).Nodup ∧ ∀ id ∈ blocks.map (·.id), id ∉ seenIds) ∧
      ((cardEvidence blocks).Nodup ∧ ∀ id ∈ cardEvidence blocks, id ∈ allowed ∧ id ∉ seenNews) ∧
      ∀ b ∈ blocks, contentSha256 P (blockCore b.id b.data) = .ok b.contentSha256 := by
  induction raws generalizing seenIds seenNews blocks with
  | nil =>
    cases h
    simp [cardEvidence]
  | cons raw raws ih =>
    rw [validateBlocks] at h
    obtain ⟨id, -, h⟩ := bind_eq_ok.1 h
    obtain ⟨_, hid, h⟩ := bind_eq_ok.1 h
    obtain ⟨data, -, h⟩ := bind_eq_ok.1 h
    obtain ⟨_, hcard, h⟩ := bind_eq_ok.1 h
    obtain ⟨_, -, h⟩ := bind_eq_ok.1 h
    obtain ⟨expected, hexpected, h⟩ := bind_eq_ok.1 h
    obtain ⟨_, hhash, h⟩ := bind_eq_ok.1 h
    obtain ⟨rest, hrest, h⟩ := bind_eq_ok.1 h
    cases h
    obtain ⟨⟨hids, hnewIds⟩, ⟨hcards, hnewCards⟩, hhashes⟩ := ih hrest
    have hid := (not_or.1 (raiseIf_eq_ok.1 hid)).2
    have hcard := raiseIf_eq_ok.1 hcard
    have hhash := not_not.1 (raiseIf_eq_ok.1 hhash)
    refine ⟨⟨?_, ?_⟩, ⟨?_, ?_⟩, ?_⟩
    · rw [List.map_cons, List.nodup_cons]
      exact ⟨fun hmem => hnewIds id hmem List.mem_cons_self, hids⟩
    · rw [List.map_cons, List.forall_mem_cons]
      exact ⟨hid, fun id' hid' hseen => hnewIds id' hid' (List.mem_cons_of_mem _ hseen)⟩
    · rw [cardEvidence_cons, List.nodup_append]
      refine ⟨by cases data.evidence? <;> simp, hcards, ?_⟩
      rintro e he e' he' rfl
      exact (hnewCards e he').2 (List.mem_append_left _ he)
    · intro e he
      rw [cardEvidence_cons, List.mem_append] at he
      rcases he with he | he
      · have hevidence := Option.mem_toList.1 he
        rw [Option.mem_def.1 hevidence] at hcard
        simpa using hcard
      · exact ⟨(hnewCards e he).1, fun hseen => (hnewCards e he).2 (List.mem_append_right _ hseen)⟩
    · rw [List.forall_mem_cons]
      exact ⟨hexpected.trans (congrArg Except.ok hhash.symm), hhashes⟩

/-- A document that is bound to its answer and to its evidence. -/
structure Document.Bound (P : Python) (answer : PyStr) (evidenceIds : List PyStr) (d : Document) : Prop where
  answer : d.blocks.head?.map (·.data) = some (.markdown answer)
  ids : (d.blocks.map (·.id)).Nodup
  cards : (cardEvidence d.blocks).Nodup ∧ ∀ id ∈ cardEvidence d.blocks, id ∈ evidenceIds
  hashes : ∀ b ∈ d.blocks, contentSha256 P (blockCore b.id b.data) = .ok b.contentSha256
  hash : contentSha256 P (documentCore d.blocks) = .ok d.documentSha256

theorem validateDocument_bound {raw d : Document} {answer : PyStr} {evidenceIds : List PyStr}
    (h : validateAssistantContentDocument P raw answer evidenceIds = .ok d) : d.Bound P answer evidenceIds := by
  rw [validateAssistantContentDocument] at h
  obtain ⟨_, -, h⟩ := bind_eq_ok.1 h
  obtain ⟨blocks, hblocks, h⟩ := bind_eq_ok.1 h
  obtain ⟨_, hfirst, h⟩ := bind_eq_ok.1 h
  obtain ⟨expected, hexpected, h⟩ := bind_eq_ok.1 h
  obtain ⟨_, hhash, h⟩ := bind_eq_ok.1 h
  obtain ⟨bytes, -, h⟩ := bind_eq_ok.1 h
  obtain ⟨_, -, h⟩ := bind_eq_ok.1 h
  cases h
  obtain ⟨⟨hids, -⟩, ⟨hcards, hallowed⟩, hhashes⟩ := validateBlocks_ok hblocks
  have hhash := not_not.1 (not_or.1 (raiseIf_eq_ok.1 hhash)).2
  exact ⟨not_not.1 (raiseIf_eq_ok.1 hfirst), hids, ⟨hcards, fun id hid => (hallowed id hid).1⟩, hhashes,
    hexpected.trans (congrArg Except.ok hhash.symm)⟩

/-- The document of an answer. -/
theorem buildDocument_bound {answer : PyStr} {items : List PyJson} {evidenceIds : List PyStr} {cutoff : String}
    {d : Document} (h : buildAssistantContentDocument P answer items evidenceIds cutoff = .ok d)
    (hanswer : CodePoint.char '\r' ∉ answer) : d.Bound P answer evidenceIds := by
  rw [buildAssistantContentDocument] at h
  obtain ⟨canonical, hcanonical, h⟩ := bind_eq_ok.1 h
  obtain ⟨cards, -, h⟩ := bind_eq_ok.1 h
  obtain ⟨first, -, h⟩ := bind_eq_ok.1 h
  obtain ⟨shown, -, h⟩ := bind_eq_ok.1 h
  obtain ⟨rest, -, h⟩ := bind_eq_ok.1 h
  obtain ⟨hash, -, h⟩ := bind_eq_ok.1 h
  have hbound := validateDocument_bound h
  rw [contentText_ok hcanonical, unifyNewlines_eq hanswer] at hbound
  exact { hbound with cards := ⟨hbound.cards.1, fun id hid => List.mem_eraseDups.1 (hbound.cards.2 id hid)⟩ }

end

end Xauusd.Agent
