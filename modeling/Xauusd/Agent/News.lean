/-
  The search of the Assistant's news archive (`assistant/tools.py`,
  `news/semantics/qa.py`), which is the one tool that the Assistant has.

  * `NewsItem`, `buildNewsEvidencePacket`: what a model sees of a row;
  * `searchParams`, `Archive`: what the archive is asked, and what is read of its
    answer;
  * `trimPacket`, `newsSearch`: the search, cut to the tokens of the call;
  * `newsSearchTool`: `build_news_search_tool`;
  * `Searched`, `newsSearch_searched`: what a search that returns has done.

  The rows of the archive are JSON.
-/
import Xauusd.Agent.Grounded

namespace Xauusd.Agent

open Raises (raiseIf orRaise bind_eq_ok raiseIf_eq_ok orRaise_eq_ok mapError_eq_ok)

def MAX_RETRIEVED_EVIDENCE : ℕ := 20

/-! ## Evidence -/

/-- An item of an evidence packet. -/
structure NewsItem where
  evidenceId : PyStr
  publishedAt : PyStr
  receivedAt : PyStr
  source : PyStr
  headline : PyStr
  summary : PyStr
  category : PyStr
  impact : PyStr
  sourceUrl : Option PyStr

def NewsItem.json (x : NewsItem) : PyJson := pyDict ([
  ("evidence_id", .str x.evidenceId), ("published_at", .str x.publishedAt), ("received_at", .str x.receivedAt),
  ("source", .str x.source), ("headline", .str x.headline), ("summary", .str x.summary),
  ("category", .str x.category), ("impact", .str x.impact)] ++
  (x.sourceUrl.map fun url => ("source_url", PyJson.str url)).toList)

/-- A row of the archive. -/
abbrev NewsRow := List (PyStr × PyJson)

/-- `row.get(name) or row.get(other)` -/
def NewsRow.either (row : NewsRow) (name other : String) : Option PyJson :=
  match row.lookup (PyStr.of name) with
  | some v => if v.truthy then some v else row.lookup (PyStr.of other)
  | none => row.lookup (PyStr.of other)

section
variable (P : Python)

/-- `_bounded_source_url` -/
def boundedSourceUrl (v : Option PyJson) : Except Raised (Option PyStr) :=
  let url := (PyStr.strip (P.strOr v)).take 2048
  if url = [] then .ok none
  else do
    let parsed ← orRaise (P.urlsplit url) (.valueError "Invalid URL")
    return if parsed.isPublic then some url else none

/-- The item of a row, with its id and headline. -/
def newsItem (row : NewsRow) (evidenceId headline : PyStr) : Except Raised NewsItem := do
  let sourceUrl ← boundedSourceUrl P (row.either "source_url" "link")
  return {
    evidenceId, headline, sourceUrl
    publishedAt := bounded P (row.either "source_published_time" "published_time") 64
    receivedAt := bounded P (row.lookup (PyStr.of "collector_first_seen_time")) 64
    source := bounded P (row.lookup (PyStr.of "source")) 100
    summary := bounded P (row.either "summary_zh" "emerging_topic_zh") 600
    category := bounded P (row.lookup (PyStr.of "category")) 80
    impact := bounded P (row.either "impact_reason_zh" "impact_status") 600 }

/-- The loop of `build_news_evidence_packet`. -/
def packetFrom (seen : List PyStr) : List NewsRow → Except Raised (List NewsItem)
  | [] => .ok []
  | row :: rows => do
    let evidenceId := bounded P (row.either "evidence_id" "detail_key") 128
    let headline := bounded P (row.lookup (PyStr.of "headline")) 300
    if evidenceId = [] ∨ evidenceId ∈ seen ∨ headline = [] then packetFrom seen rows
    else
      let item ← newsItem P row evidenceId headline
      let items ← packetFrom (seen ++ [evidenceId]) rows
      return item :: items

/-- `build_news_evidence_packet` -/
def buildNewsEvidencePacket (news : List NewsRow) : Except Raised (List NewsItem) :=
  packetFrom P [] (news.take MAX_RETRIEVED_EVIDENCE)

/-! ## Parameters -/

/-- `_DATE_ONLY` -/
def isDateOnly (s : PyStr) : Bool :=
  match s.text? with
  | some text =>
    let shape := "dddd-dd-dd"
    decide (text.toList.length = shape.toList.length) &&
      (List.zip shape.toList text.toList).all fun c => if c.1 = 'd' then c.2.isDigit else c.1 = c.2
  | none => false

/-- `_validate_optional_boundary` -/
def validateOptionalBoundary (v : PyJson) : Except Raised PyStr :=
  let raw := PyStr.strip (P.strOr (some v))
  let invalid : Raised := .adapter ⟨"INVALID_NEWS_TIME_BOUNDARY", rfl⟩
  if isDateOnly raw then if P.isDate raw then .ok raw else .error invalid
  else match P.fromIsoformat (replaceZulu raw) with
    | some (some t) => (canonicalInstant t).map PyStr.of
    | _ => .error invalid

/-- `" ".join(str(value).split())` -/
def words (v : PyJson) : PyStr := (P.str v).joinWords

/-- The parameter of a name, if the call has an argument for it. -/
def searchParam (arguments : List (PyStr × PyJson)) (name : String) : Except Raised (Option (String × PyJson)) :=
  match arguments.lookup (PyStr.of name) with
  | none => .ok none
  | some v =>
    if "_from".toList <:+ name.toList ∨ "_to".toList <:+ name.toList then
      (validateOptionalBoundary P v).map fun boundary => some (name, .str boundary)
    else .ok (some (name, .str (words P v)))

/-- The query of a call. -/
def searchQuery (arguments : List (PyStr × PyJson)) : Except Raised PyStr := do
  let query ← orRaise (arguments.lookup (PyStr.of "query")) (.other "KeyError")
  let query := words P query
  raiseIf (query = [] ∨ 6 < (query.splitOn (.char ' ')).length) (.adapter ⟨"INVALID_NEWS_QUERY", rfl⟩)
  return query

/-- `int(params["limit"])` -/
def searchLimit (context : Context) : ℕ := min 20 context.maxRetrievedEvidence

/-- `params`, which the archive is asked with -/
def searchParams (arguments : List (PyStr × PyJson)) (context : Context) (query : PyStr) :
    Except Raised (List (String × PyJson)) := do
  let optional ← ["published_from", "published_to", "received_from", "evidence_id", "source", "category"].mapM
    (searchParam P arguments)
  return [("q", .str query), ("received_to", pyString context.retrievalCutoff), ("page", .int 1),
    ("limit", .int (searchLimit context))] ++ optional.filterMap id

/-! ## The archive -/

/-- What is outside a search: the clock, and the archive by what it is asked. -/
structure NewsWorld where
  now : ℚ
  retrieve : List (String × PyJson) → ℚ → Except Raised PyJson

/-- `remaining_seconds` -/
def Context.remainingSeconds (context : Context) (now : ℚ) : ℚ := max 0 (context.deadlineMonotonic - now)

/-- An answer of the archive that a search goes on with. -/
structure Archive where
  payload : List (PyStr × PyJson)
  rows : List NewsRow
  retrieval : List (PyStr × PyJson)

/-- `value == text`, of what `get` returned -/
def isText (v : Option PyJson) (text : String) : Bool :=
  match v with
  | some (.str s) => s = PyStr.of text
  | _ => false

/-- `value is True`, of what `get` returned -/
def isTrue : Option PyJson → Bool
  | some (.bool b) => b
  | _ => false

def dictOf? : PyJson → Option NewsRow
  | .dict row => some row
  | _ => none

/-- The authoritative answer that a payload is, if it is one. -/
def archive? (limit : ℕ) (payload : List (PyStr × PyJson)) : Option Archive :=
  match payload.lookup (PyStr.of "items"), payload.lookup (PyStr.of "retrieval") with
  | some (.list items), some (.dict retrieval) =>
    if items.length ≤ limit ∧ isText (payload.lookup (PyStr.of "source_mode")) "D1_ARCHIVE" ∧
        isTrue (payload.lookup (PyStr.of "archive_complete")) then
      (items.mapM dictOf?).map fun rows => ⟨payload, rows, retrieval⟩
    else none
  | _, _ => none

/-- What `retrieve` returned. -/
def readArchive (limit : ℕ) : PyJson → Except Raised Archive
  | .dict payload => orRaise (archive? limit payload) (.adapter ⟨"AUTHORITATIVE_NEWS_RETRIEVAL_REQUIRED", rfl⟩)
  | _ => .error (.adapter ⟨"NEWS_RETRIEVAL_INVALID", rfl⟩)

/-- `list(value or [])`, of what `get` returned -/
def listOf : Option PyJson → Except Raised (List PyJson)
  | none => .ok []
  | some v =>
    if v.truthy then match v with
      | .list items => .ok items
      | .str s => .ok (s.map fun c => .str [c])
      | .dict members => .ok (members.map fun m => .str m.1)
      | _ => .error (.other "TypeError")
    else .ok []

/-- `canonical_ids` -/
def Archive.canonicalIds (a : Archive) : List PyStr := a.rows.map fun row => P.strOr (row.lookup (PyStr.of "evidence_id"))

def provenanceMismatch : Raised := .adapter ⟨"NEWS_RETRIEVAL_PROVENANCE_MISMATCH", rfl⟩

/-- The cutoff of a retrieval. -/
def Archive.cutoff (a : Archive) : Except Raised String :=
  (canonicalCutoff P "tool" (P.strOr (a.retrieval.lookup (PyStr.of "cutoff")))).mapError fun e =>
    if e.isValueError then provenanceMismatch else e

/-- The packet of an answer, whose ids are those that the archive names. -/
def Archive.packet (a : Archive) (cutoff : String) : Except Raised (List NewsItem) := do
  let named ← listOf (a.retrieval.lookup (PyStr.of "canonical_evidence_ids"))
  raiseIf (¬ pyEqItems ((a.canonicalIds P).map .str) named) provenanceMismatch
  let returned ← a.cutoff P
  raiseIf (returned ≠ cutoff) provenanceMismatch
  let packet ← buildNewsEvidencePacket P a.rows
  raiseIf (packet.map (·.evidenceId) ≠ a.canonicalIds P) provenanceMismatch
  return packet

/-! ## The search -/

/-- The provenance of an output. -/
def searchProvenance (cutoff : String) (query : PyStr) (count : ℕ) (items : List NewsItem) : List (String × PyJson) := [
  ("source_mode", pyString "D1_ARCHIVE"), ("archive_complete", .bool true), ("retrieval_cutoff", pyString cutoff),
  ("query", .str query), ("retrieved_evidence_count", .int count),
  ("canonical_evidence_ids", .list (items.map fun x => .str x.evidenceId))]

/-- `output_for` -/
def searchOutput (cutoff : String) (query : PyStr) (count : ℕ) (items : List NewsItem) : PyJson :=
  pyDict [("items", .list (items.map NewsItem.json)), ("provenance", pyDict (searchProvenance cutoff query count items))]

/-- The loop that cuts a packet, from its first `n` items on. -/
def trimPacket (outputFor : List NewsItem → PyJson) (budget : ℕ) (packet : List NewsItem) :
    ℕ → Except Raised (List NewsItem)
  | 0 => .ok []
  | n + 1 => do
    let tokens ← resultTokenEstimate P (outputFor (packet.take (n + 1)))
    if budget < tokens then trimPacket outputFor budget packet n else return packet.take (n + 1)

/-- `normalized_query` -/
def normalizedQuery (payload : List (PyStr × PyJson)) (query : PyStr) : PyStr :=
  let echoed := match payload.lookup (PyStr.of "query") with
    | some v => if v.truthy then P.str v else query
    | none => query
  echoed.joinWords.take 80

/-- `execute` -/
def newsSearch (w : NewsWorld) (arguments : PyJson) (context : Context) : Except Raised PyJson :=
  match arguments with
  | .dict arguments => do
    let query ← searchQuery P arguments
    raiseIf (context.maxRetrievedEvidence < 1) (.adapter ⟨"EVIDENCE_BUDGET_EXHAUSTED", rfl⟩)
    let params ← searchParams P arguments context query
    raiseIf (context.remainingSeconds w.now ≤ 0) (.adapter TOOL_TIMEOUT)
    let payload ← w.retrieve params (context.remainingSeconds w.now)
    let archive ← readArchive (searchLimit context) payload
    let packet ← archive.packet P context.retrievalCutoff
    let outputFor := searchOutput context.retrievalCutoff (normalizedQuery P archive.payload query)
      (archive.canonicalIds P).length
    let kept ← trimPacket P outputFor context.resultTokenBudget packet packet.length
    raiseIf (archive.canonicalIds P ≠ [] ∧ kept.length = 0) (.adapter TOOL_RESULT_BUDGET_EXCEEDED)
    return outputFor kept
  | _ => .error (.other "TypeError")

/-! ## The tool -/

def textSchema (minLength maxLength : Option ℕ) (pattern : Option String := none) : Schema :=
  .string {} minLength maxLength pattern

/-- `NEWS_EVIDENCE_ITEM_SCHEMA` -/
def NEWS_EVIDENCE_ITEM_SCHEMA : Schema := .object {}
  [("evidence_id", textSchema (some 1) (some 128)), ("published_at", textSchema none (some 64)),
    ("received_at", textSchema none (some 64)), ("source", textSchema none (some 100)), ("headline", textSchema (some 1) (some 300)),
    ("summary", textSchema none (some 600)), ("category", textSchema none (some 80)), ("impact", textSchema none (some 600)),
    ("source_url", textSchema (some 1) (some 2048) (some "^https://[^\\s]+$"))]
  (some ["evidence_id", "published_at", "received_at", "source", "headline", "summary", "category", "impact"]) none none

/-- `NEWS_SEARCH_INPUT_SCHEMA` -/
def NEWS_SEARCH_INPUT_SCHEMA : Schema := .object {}
  [("query", .string { description := some ("One focused subject term for broad daily requests, or at most six " ++
      "terms for a specific event. Do not put dates in the query; use the " ++
      "time boundary fields. Prefer 黄金, 美联储, CPI, 就业, 美元, or 地缘政治.") } (some 1) (some 80) none),
    ("published_from", .string { description := some "Inclusive publisher-time lower boundary in ISO 8601." }
      (some 10) (some 40) none),
    ("published_to", .string { description := some "Inclusive publisher-time upper boundary in ISO 8601." }
      (some 10) (some 40) none),
    ("received_from", textSchema (some 10) (some 40)),
    ("evidence_id", textSchema (some 1) (some 128) (some "^[A-Za-z0-9:._-]+$")),
    ("source", textSchema (some 1) (some 80)), ("category", textSchema (some 1) (some 40))]
  (some ["query"]) none none

/-- `NEWS_SEARCH_OUTPUT_SCHEMA` -/
def NEWS_SEARCH_OUTPUT_SCHEMA : Schema := .object {}
  [("items", .array {} NEWS_EVIDENCE_ITEM_SCHEMA none (some 20) none),
    ("provenance", .object {}
      [("source_mode", .string { enum := some [pyString "D1_ARCHIVE"] } none none none),
        ("archive_complete", .boolean { enum := some [.bool true] }),
        ("retrieval_cutoff", textSchema (some 20) (some 40)), ("query", textSchema none (some 80)),
        ("retrieved_evidence_count", .integer {} (some (.int 0)) (some (.int 20))),
        ("canonical_evidence_ids", .array {} (textSchema (some 1) (some 128)) none (some 20) (some true))]
      (some ["source_mode", "archive_complete", "retrieval_cutoff", "query", "retrieved_evidence_count",
        "canonical_evidence_ids"]) none none)]
  (some ["items", "provenance"]) none none

/-- `build_news_search_tool`, whose definition the registry validates -/
def newsSearchTool (timeoutSeconds : ℚ) (maxResultTokens : ℕ) : Definition NewsWorld where
  name := NEWS_SEARCH_TOOL_NAME
  version := NEWS_SEARCH_TOOL_VERSION
  description := "Search the authoritative point-in-time news archive. The server " ++
    "fixes the received-time cutoff and returns compact evidence only. " ++
    "Use this only when the user needs external news facts, not for " ++
    "conversation recall, greetings, identity, capabilities, or explaining " ++
    "the Assistant's previous behavior. Resolve relative dates into the " ++
    "published time fields and keep dates out of query terms."
  capability := .newsRetrieval
  inputSchema := NEWS_SEARCH_INPUT_SCHEMA
  outputSchema := NEWS_SEARCH_OUTPUT_SCHEMA
  timeoutSeconds
  maxResultTokens
  provenanceFields := ["source_mode", "archive_complete", "retrieval_cutoff", "query", "retrieved_evidence_count",
    "canonical_evidence_ids"]
  executor := newsSearch P

end

/-! ## What a search is -/

section
variable {P : Python}

theorem length_bounded (v : Option PyJson) (n : ℕ) : (bounded P v n).length ≤ n := List.length_take_le _ _

/-- An item of a packet: texts that are short, with an id, a headline and a public
    URL. -/
structure NewsItem.Bounded (P : Python) (x : NewsItem) : Prop where
  evidenceId : x.evidenceId ≠ [] ∧ x.evidenceId.length ≤ 128
  times : x.publishedAt.length ≤ 64 ∧ x.receivedAt.length ≤ 64
  headline : x.headline ≠ [] ∧ x.headline.length ≤ 300
  texts : x.source.length ≤ 100 ∧ x.summary.length ≤ 600 ∧ x.category.length ≤ 80 ∧ x.impact.length ≤ 600
  url : ∀ url, x.sourceUrl = some url → url ≠ [] ∧ url.length ≤ 2048 ∧
    ∃ parsed, P.urlsplit url = some parsed ∧ parsed.isPublic = true

theorem boundedSourceUrl_ok {v : Option PyJson} {sourceUrl : Option PyStr} {url : PyStr}
    (h : boundedSourceUrl P v = .ok sourceUrl) (hurl : sourceUrl = some url) : url ≠ [] ∧ url.length ≤ 2048 ∧
      ∃ parsed, P.urlsplit url = some parsed ∧ parsed.isPublic = true := by
  rw [boundedSourceUrl] at h
  split at h
  · cases h
    cases hurl
  · next hne =>
    obtain ⟨parsed, hparsed, h⟩ := bind_eq_ok.1 h
    split at h
    · next hpublic =>
      cases h
      cases hurl
      exact ⟨hne, List.length_take_le _ _, parsed, orRaise_eq_ok.1 hparsed, hpublic⟩
    · cases h
      cases hurl

theorem newsItem_ok {row : NewsRow} {evidenceId headline : PyStr} {x : NewsItem}
    (h : newsItem P row evidenceId headline = .ok x) (hid : evidenceId ≠ [] ∧ evidenceId.length ≤ 128)
    (hheadline : headline ≠ [] ∧ headline.length ≤ 300) : x.evidenceId = evidenceId ∧ x.Bounded P := by
  rw [newsItem] at h
  obtain ⟨sourceUrl, hurl, h⟩ := bind_eq_ok.1 h
  cases h
  exact ⟨rfl, {
    evidenceId := hid
    times := ⟨length_bounded _ _, length_bounded _ _⟩
    headline := hheadline
    texts := ⟨length_bounded _ _, length_bounded _ _, length_bounded _ _, length_bounded _ _⟩
    url := fun url => boundedSourceUrl_ok hurl }⟩

theorem packetFrom_ok {seen : List PyStr} {rows : List NewsRow} {items : List NewsItem}
    (h : packetFrom P seen rows = .ok items) :
    (items.map (·.evidenceId)).Nodup ∧ ∀ x ∈ items, x.evidenceId ∉ seen ∧ x.Bounded P := by
  induction rows generalizing seen items with
  | nil =>
    cases h
    simp
  | cons row rows ih =>
    rw [packetFrom] at h
    split at h
    · exact ih h
    · next hnew =>
      obtain ⟨item, hitem, h⟩ := bind_eq_ok.1 h
      obtain ⟨rest, hrest, h⟩ := bind_eq_ok.1 h
      cases h
      rw [not_or, not_or] at hnew
      obtain ⟨hid, hseen, hheadline⟩ := hnew
      obtain ⟨heq, hbounded⟩ := newsItem_ok hitem ⟨hid, length_bounded _ _⟩ ⟨hheadline, length_bounded _ _⟩
      obtain ⟨hnodup, hall⟩ := ih hrest
      rw [← heq] at hseen hall
      constructor
      · rw [List.map_cons, List.nodup_cons]
        refine ⟨?_, hnodup⟩
        intro hmem
        obtain ⟨x, hx, hsame⟩ := List.mem_map.1 hmem
        exact (hall x hx).1 (hsame ▸ List.mem_append_right _ (List.mem_singleton_self _))
      · intro x hx
        rcases List.mem_cons.1 hx with rfl | hx
        · exact ⟨hseen, hbounded⟩
        · exact ⟨fun hmem => (hall x hx).1 (List.mem_append_left _ hmem), (hall x hx).2⟩

/-- A packet is cut to its longest head that fits. -/
theorem trimPacket_ok {outputFor : List NewsItem → PyJson} {budget n : ℕ} {packet kept : List NewsItem}
    (h : trimPacket P outputFor budget packet n = .ok kept) : ∃ k ≤ n, kept = packet.take k ∧
      (1 ≤ k → ∃ tokens, resultTokenEstimate P (outputFor kept) = .ok tokens ∧ tokens ≤ budget) ∧
      ∀ m, k < m → m ≤ n → ∃ tokens, resultTokenEstimate P (outputFor (packet.take m)) = .ok tokens ∧ budget < tokens := by
  induction n with
  | zero =>
    cases h
    refine ⟨0, Nat.le_refl _, rfl, ?_, ?_⟩
    · intro hk
      omega
    · intro m hm hm'
      omega
  | succ n ih =>
    rw [trimPacket] at h
    obtain ⟨tokens, htokens, h⟩ := bind_eq_ok.1 h
    split at h
    · next hover =>
      obtain ⟨k, hk, hkept, hfits, hlongest⟩ := ih h
      refine ⟨k, by omega, hkept, hfits, ?_⟩
      intro m hm hm'
      rcases Nat.lt_or_ge n m with hn | hn
      · obtain rfl : m = n + 1 := by omega
        exact ⟨tokens, htokens, hover⟩
      · exact hlongest m hm hn
    · next hfits =>
      cases h
      refine ⟨n + 1, Nat.le_refl _, rfl, ?_, ?_⟩
      · intro _
        exact ⟨tokens, htokens, Nat.not_lt.1 hfits⟩
      · intro m hm hm'
        omega

theorem length_rows {items : List PyJson} {rows : List NewsRow} (h : items.mapM dictOf? = some rows) :
    rows.length = items.length := by
  induction items generalizing rows with
  | nil =>
    cases h
    rfl
  | cons item items ih =>
    rw [List.mapM_cons] at h
    obtain ⟨row, -, h⟩ := Option.bind_eq_some_iff.1 h
    obtain ⟨rest, hrest, h⟩ := Option.bind_eq_some_iff.1 h
    cases h
    rw [List.length_cons, List.length_cons, ih hrest]

theorem archive?_ok {limit : ℕ} {payload : List (PyStr × PyJson)} {a : Archive} (h : archive? limit payload = some a) :
    a.payload = payload ∧ a.rows.length ≤ limit := by
  rw [archive?] at h
  split at h
  · next items retrieval hitems hretrieval =>
    split at h
    · next hvalid =>
      obtain ⟨rows, hrows, rfl⟩ := Option.map_eq_some_iff.1 h
      refine ⟨rfl, ?_⟩
      rw [length_rows hrows]
      exact hvalid.1
    · cases h
  · cases h

theorem searchParams_ok {arguments : List (PyStr × PyJson)} {context : Context} {query : PyStr}
    {params : List (String × PyJson)} (h : searchParams P arguments context query = .ok params) :
    params.lookup "received_to" = some (pyString context.retrievalCutoff) ∧
      params.lookup "limit" = some (.int (searchLimit context)) := by
  rw [searchParams] at h
  obtain ⟨optional, -, h⟩ := bind_eq_ok.1 h
  cases h
  exact ⟨rfl, rfl⟩

/-- What a search that returns has done: it asked the archive for no more than it
    may show, at its cutoff, and returns the longest head of the answer that fits. -/
structure Searched (P : Python) (w : NewsWorld) (context : Context) (params : List (String × PyJson)) (a : Archive)
    (query : PyStr) (packet : List NewsItem) (n : ℕ) (output : PyJson) : Prop where
  asked : w.retrieve params (context.remainingSeconds w.now) = .ok (.dict a.payload)
  time : 0 < context.remainingSeconds w.now
  cutoff : params.lookup "received_to" = some (pyString context.retrievalCutoff)
  limit : params.lookup "limit" = some (.int (searchLimit context))
  authoritative : archive? (searchLimit context) a.payload = some a
  returned : a.cutoff P = .ok context.retrievalCutoff
  built : buildNewsEvidencePacket P a.rows = .ok packet
  ids : packet.map (·.evidenceId) = a.canonicalIds P
  result : output = searchOutput context.retrievalCutoff query a.rows.length (packet.take n)
  head : n ≤ packet.length ∧ (packet ≠ [] → 1 ≤ n)
  fits : 1 ≤ n → ∃ tokens, resultTokenEstimate P output = .ok tokens ∧ tokens ≤ context.resultTokenBudget
  longest : ∀ m, n < m → m ≤ packet.length → ∃ tokens,
    resultTokenEstimate P (searchOutput context.retrievalCutoff query a.rows.length (packet.take m)) = .ok tokens ∧
      context.resultTokenBudget < tokens

theorem newsSearch_searched {w : NewsWorld} {arguments : PyJson} {context : Context} {output : PyJson}
    (h : newsSearch P w arguments context = .ok output) :
    ∃ params a query packet n, Searched P w context params a query packet n output := by
  cases arguments with
  | dict arguments =>
    rw [newsSearch] at h
    obtain ⟨query, -, h⟩ := bind_eq_ok.1 h
    obtain ⟨_, -, h⟩ := bind_eq_ok.1 h
    obtain ⟨params, hparams, h⟩ := bind_eq_ok.1 h
    obtain ⟨_, htime, h⟩ := bind_eq_ok.1 h
    obtain ⟨payload, hasked, h⟩ := bind_eq_ok.1 h
    obtain ⟨a, harchive, h⟩ := bind_eq_ok.1 h
    obtain ⟨packet, hpacket, h⟩ := bind_eq_ok.1 h
    obtain ⟨kept, hkept, h⟩ := bind_eq_ok.1 h
    obtain ⟨_, hsome, h⟩ := bind_eq_ok.1 h
    cases h
    cases payload with
    | dict payload =>
      have hauthoritative := orRaise_eq_ok.1 harchive
      obtain ⟨rfl, hfew⟩ := archive?_ok hauthoritative
      obtain ⟨hcutoff, hlimit⟩ := searchParams_ok hparams
      rw [Archive.packet] at hpacket
      obtain ⟨named, -, hpacket⟩ := bind_eq_ok.1 hpacket
      obtain ⟨_, -, hpacket⟩ := bind_eq_ok.1 hpacket
      obtain ⟨returned, hreturned, hpacket⟩ := bind_eq_ok.1 hpacket
      obtain ⟨_, hsame, hpacket⟩ := bind_eq_ok.1 hpacket
      obtain ⟨built, hbuilt, hpacket⟩ := bind_eq_ok.1 hpacket
      obtain ⟨_, hids, hpacket⟩ := bind_eq_ok.1 hpacket
      cases hpacket
      have hsame := not_not.1 (raiseIf_eq_ok.1 hsame)
      have hids := not_not.1 (raiseIf_eq_ok.1 hids)
      have hcount : (a.canonicalIds P).length = a.rows.length := List.length_map _
      rw [hcount] at hkept ⊢
      obtain ⟨n, hn, rfl, hfits, hlongest⟩ := trimPacket_ok hkept
      refine ⟨params, a, normalizedQuery P a.payload query, packet, n, {
        asked := hasked
        time := not_le.1 (raiseIf_eq_ok.1 htime)
        cutoff := hcutoff
        limit := hlimit
        authoritative := hauthoritative
        returned := hsame ▸ hreturned
        built := hbuilt
        ids := hids
        result := rfl
        head := ⟨hn, ?_⟩
        fits := hfits
        longest := hlongest }⟩
      intro hne
      have hlength := List.length_pos_iff.2 hne
      have hnonempty : a.canonicalIds P ≠ [] := by
        rw [← hids]
        simpa using hne
      have hkeeps := not_and.1 (raiseIf_eq_ok.1 hsome) hnonempty
      rw [List.length_take] at hkeeps
      omega
    | _ => cases harchive
  | _ => cases h

/-! ## The evidence of a search -/

theorem of_injective : Function.Injective PyStr.of := by
  intro s s' h
  refine String.toList_inj.1 (List.map_injective_iff.2 ?_ h)
  intro c c' hc
  exact CodePoint.char.inj hc

theorem beq_of (s s' : String) : (PyStr.of s == PyStr.of s') = (s == s') := by
  rw [Bool.eq_iff_iff, beq_iff_eq, beq_iff_eq]
  exact of_injective.eq_iff

theorem mapM_evidenceText {ids : List PyStr} (h : ∀ id ∈ ids, id ≠ [] ∧ id.length ≤ 128) :
    (ids.map PyJson.str).mapM evidenceText = some ids := by
  induction ids with
  | nil => rfl
  | cons id ids ih =>
    obtain ⟨hid, hids⟩ := List.forall_mem_cons.1 h
    have hvalid : 1 ≤ id.length ∧ id.length ≤ 128 := ⟨List.length_pos_iff.2 hid.1, hid.2⟩
    rw [List.map_cons, List.mapM_cons, ih hids, evidenceText, if_pos hvalid]
    rfl

theorem eraseDups_of_nodup {α : Type} [BEq α] [LawfulBEq α] {l : List α} (h : l.Nodup) : l.eraseDups = l := by
  induction l with
  | nil => rfl
  | cons a l ih =>
    obtain ⟨ha, hl⟩ := List.nodup_cons.1 h
    rw [List.eraseDups_cons, List.filter_eq_self.2, ih hl]
    intro b hb
    have hne : b ≠ a := fun heq => ha (heq ▸ hb)
    simpa using hne

theorem evidenceIdsOf_searchOutput {cutoff : String} {query : PyStr} {count : ℕ} {items : List NewsItem}
    (hids : ∀ x ∈ items, x.evidenceId ≠ [] ∧ x.evidenceId.length ≤ 128) (hnodup : (items.map (·.evidenceId)).Nodup)
    (hfew : items.length ≤ 100) :
    evidenceIdsOf (searchOutput cutoff query count items) = .ok (items.map (·.evidenceId)) := by
  have hprovenance : provenanceOf (searchOutput cutoff query count items) =
      .ok (some ((searchProvenance cutoff query count items).map fun m => (PyStr.of m.1, m.2))) := by
    simp [provenanceOf, searchOutput, PyJson.get, pyDict, List.lookup, beq_of]
  have hnamed : ((searchProvenance cutoff query count items).map fun m => (PyStr.of m.1, m.2)).lookup
      (PyStr.of "canonical_evidence_ids") = some (.list ((items.map (·.evidenceId)).map .str)) := by
    simp [searchProvenance, List.lookup, beq_of, Function.comp_def]
  have htexts : ((items.map (·.evidenceId)).map PyJson.str).mapM evidenceText = some (items.map (·.evidenceId)) := by
    refine mapM_evidenceText ?_
    intro id hid
    obtain ⟨x, hx, rfl⟩ := List.mem_map.1 hid
    exact hids x hx
  refine bind_eq_ok.2 ⟨_, hprovenance, ?_⟩
  dsimp only
  rw [evidenceIdsIn, hnamed]
  dsimp only
  rw [if_neg (by simpa using hfew), htexts]
  dsimp only
  rw [eraseDups_of_nodup hnodup]

section
variable {w : NewsWorld} {context : Context} {params : List (String × PyJson)} {a : Archive} {query : PyStr}
  {packet : List NewsItem} {n : ℕ} {output : PyJson}

theorem Searched.items (h : Searched P w context params a query packet n output) :
    (a.canonicalIds P).Nodup ∧ (∀ x ∈ packet, x.Bounded P) ∧ packet.length ≤ searchLimit context := by
  obtain ⟨hnodup, hall⟩ := packetFrom_ok h.built
  refine ⟨h.ids ▸ hnodup, fun x hx => (hall x hx).2, ?_⟩
  have hlength := congrArg List.length h.ids
  rw [List.length_map, Archive.canonicalIds, List.length_map] at hlength
  rw [hlength]
  exact (archive?_ok h.authoritative).2

/-- The evidence of a search is what the archive names first. -/
theorem Searched.evidence (h : Searched P w context params a query packet n output) :
    evidenceIdsOf output = .ok ((a.canonicalIds P).take n) ∧ n ≤ context.maxRetrievedEvidence := by
  obtain ⟨hnodup, hbounded, hfew⟩ := h.items
  have hlimit : searchLimit context ≤ 20 ∧ searchLimit context ≤ context.maxRetrievedEvidence :=
    ⟨Nat.min_le_left _ _, Nat.min_le_right _ _⟩
  have hhead := h.head.1
  rw [← h.ids] at hnodup ⊢
  constructor
  · rw [h.result, ← List.map_take]
    refine evidenceIdsOf_searchOutput ?_ ?_ ?_
    · intro x hx
      exact (hbounded x (List.mem_of_mem_take hx)).evidenceId
    · rw [List.map_take]
      exact hnodup.sublist (List.take_sublist _ _)
    · rw [List.length_take]
      omega
  · omega

end

/-! ## The Assistant's registry -/

/-- A registry whose tools search the archive. -/
def Registry.IsNews (r : Registry P NewsWorld) : Prop := ∀ d ∈ r.definitions, d.executor = newsSearch P

/-- The registry that the Assistant's worker builds. -/
theorem isNews_ofDefinitions {r : Registry P NewsWorld} {timeoutSeconds : ℚ} {maxResultTokens : ℕ}
    (h : Registry.ofDefinitions P [newsSearchTool P timeoutSeconds maxResultTokens] = some r) : r.IsNews := by
  rw [Registry.ofDefinitions] at h
  split at h
  · split at h
    · split at h
      · cases h
        intro d hd
        rw [List.mem_singleton.1 hd]
        rfl
      · cases h
    · cases h
  · cases h

theorem mem_definitions {W : Type} {r : Registry P W} {name : PyStr} {d : Definition W} (h : r.byName name = some d) :
    d ∈ r.definitions := List.mem_of_find?_eq_some h

section
variable {r : Registry P NewsWorld} {b : BatchWorld NewsWorld} {c : BatchCall} {cutoff : String}
  {prepared : List (Prepared NewsWorld)} {results : List ToolResult}

/-- The search of a call that runs. -/
theorem Registry.IsNews.searched (hnews : r.IsNews) (h : r.Executed b c cutoff prepared results)
    {p : Prepared NewsWorld} (hp : p ∈ prepared) {output : PyJson}
    (houtput : p.definition.executor (b.world p.index) p.call.arguments (p.context c.actor cutoff b) = .ok output) :
    ∃ params a query packet n,
      Searched P (b.world p.index) (p.context c.actor cutoff b) params a query packet n output := by
  rw [hnews _ (mem_definitions (h.runs p hp).2.1)] at houtput
  exact newsSearch_searched houtput

/-- The evidence of a plan keeps to what is left of the budget. -/
theorem Registry.IsNews.evidence_le (hnews : r.IsNews) (h : r.Executed b c cutoff prepared results) :
    (results.flatMap (·.evidenceIds)).length ≤ c.maxRetrievedEvidence := by
  rw [List.length_flatMap]
  refine (h.sum_le (g := (·.evidenceBudget)) ?_ ?_).trans h.evidenceBudgets
  · intro p hp x hx
    rcases hx.outcome with ⟨output, -, houtput, -, -, -, hids⟩ | ⟨-, -, hnone⟩
    · obtain ⟨params, a, query, packet, n, hsearched⟩ := hnews.searched h hp houtput
      obtain ⟨hevidence, hn⟩ := hsearched.evidence
      rw [hids] at hevidence
      rw [Except.ok.inj hevidence, List.length_take]
      exact (Nat.min_le_left _ _).trans hn
    · rw [hnone]
      exact Nat.zero_le _
  · intro x _ hnone
    rw [hnone]
    rfl

end

section
variable {t : TurnCall P NewsWorld} {w : AgentWorld NewsWorld} {events : List Event}

/-- The evidence of a run keeps to its budget. -/
theorem TurnCall.Kept.evidence_le (h : t.Kept w events) (hnews : t.registry.IsNews) {k : ℕ}
    (hk : k ≤ (executions events).length) :
    (returnedIds ((executions events).take k)).length ≤ t.budgets.maxRetrievedEvidence.val := by
  induction k with
  | zero => exact Nat.zero_le _
  | succ k ih =>
    have hbefore := ih (by omega)
    have hget := List.getElem?_eq_getElem hk
    obtain ⟨i, -, hplanned⟩ := h.plans k _ hget
    obtain ⟨cutoff, prepared, -, hbatch⟩ := executeBatch_executed hplanned.executed
    have hplan := hnews.evidence_le hbatch
    rw [hplanned.evidence] at hplan
    rw [List.take_succ_eq_append_getElem hk, returnedIds_append]
    refine (length_joinIds_le _ _).trans ?_
    omega

/-- Where the evidence of a run comes from. -/
theorem TurnCall.Evidenced.searched {id : PyStr} (h : t.Evidenced w events id) (hnews : t.registry.IsNews) :
    ∃ k i context params a query packet n output, Searched P ((w.batch k).world i) context params a query packet n output ∧
      id ∈ (a.canonicalIds P).take n ∧ context.actor = t.request.actor ∧
      Agent.canonicalCutoff P "tool" (PyStr.of t.canonicalCutoff) = .ok context.retrievalCutoff := by
  obtain ⟨k, e, cutoff, prepared, -, hcutoff, hbatch, hactor, p, hp, output, ids, houtput, hids, hid⟩ := h
  rw [← hactor] at houtput
  obtain ⟨params, a, query, packet, n, hsearched⟩ := hnews.searched hbatch hp houtput
  refine ⟨k, p.index, _, params, a, query, packet, n, output, hsearched, ?_, hactor, hcutoff⟩
  rw [hsearched.evidence.1] at hids
  rw [Except.ok.inj hids]
  exact hid

end

theorem startTurn_ok {W : Type} {q : AgentRequest} {r : Registry P W} {budgets : AgentBudgets} {t : TurnCall P W}
    {contents : List PyJson} (h : startTurn q r budgets = .ok (t, contents)) : t.request = q ∧ t.registry = r := by
  rw [startTurn] at h
  obtain ⟨_, -, h⟩ := bind_eq_ok.1 h
  obtain ⟨_, -, h⟩ := bind_eq_ok.1 h
  obtain ⟨_, -, h⟩ := bind_eq_ok.1 h
  obtain ⟨_, -, h⟩ := bind_eq_ok.1 h
  obtain ⟨_, -, h⟩ := bind_eq_ok.1 h
  cases h
  exact ⟨rfl, rfl⟩

/-- **The news of an answer come from the archive**: a run returns no more evidence
    than its budget, and what its answer cites stands among the first ids of what
    the archive answered in one of its searches, at the cutoff of the turn. -/
theorem news_run_sound {q : AgentRequest} {r : Registry P NewsWorld} {budgets : AgentBudgets} {w : AgentWorld NewsWorld}
    {t : TurnCall P NewsWorld} {contents : List PyJson} (hnews : r.IsNews)
    (h : startTurn q r budgets = .ok (t, contents)) :
    (returnedIds (executions (runBoundedAssistantAgent q r budgets w).1)).length ≤ t.budgets.maxRetrievedEvidence.val ∧
      ∀ result, (runBoundedAssistantAgent q r budgets w).2 = .ok result → ∀ id ∈ result.evidenceIds,
        ∃ k i context params a query packet n output,
          Searched P ((w.batch k).world i) context params a query packet n output ∧ id ∈ (a.canonicalIds P).take n ∧
            context.actor = q.actor ∧
            canonicalCutoff P "tool" (PyStr.of t.canonicalCutoff) = .ok context.retrievalCutoff := by
  obtain ⟨hrequest, hregistry⟩ := startTurn_ok h
  rw [← hregistry] at hnews
  have hended := @run_ended _ _ q r budgets w t contents h
  constructor
  · have hle := hended.kept.evidence_le hnews (Nat.le_refl _)
    rw [List.take_length] at hle
    exact hle
  · intro result hresult id hid
    rw [hresult] at hended
    rw [← hrequest]
    exact (hended.grounded.evidence id hid).searched hnews

end

/-! ## A turn with an archive -/

/-- The search, with shorter schemas. -/
def sampleSearch : Definition NewsWorld :=
  { newsSearchTool sampleLibrary 10 200 with
    description := "Search."
    inputSchema := .object {} [("query", textSchema (some 1) (some 80))] (some ["query"]) none none
    outputSchema := .object {} [] none none none }

def sampleNewsRegistry : Registry sampleLibrary NewsWorld where
  definitions := [sampleSearch]
  count := by decide
  valid := by decide +kernel
  unique := by decide

/-- A model that searches an archive of one row, and then answers. -/
def sampleNewsWorld : AgentWorld NewsWorld where
  invokeModel n _ _ := .ok {
    turn :=
      if n = 1 then { content := pyDict [], text := [], toolCalls := [⟨PyStr.of "c1", PyStr.of NEWS_SEARCH_TOOL_NAME,
        pyDict [("query", pyString "gold")]⟩] }
      else { content := pyDict [], text := sampleAnswer, toolCalls := [] }
    modelVersion := "gemma"
    routing := pyDict [] }
  batch _ := {
    started := 0, timestamp := "t0", startedAt := fun _ => "t0", completedAt := fun _ => "t1", expiredAt := fun _ => "t2"
    world := fun _ => { now := 1, retrieve := fun _ _ => .ok (pyDict [
      ("source_mode", pyString "D1_ARCHIVE"), ("archive_complete", .bool true),
      ("items", .list [pyDict [("evidence_id", pyString "e1"), ("headline", pyString "Up")]]),
      ("retrieval", pyDict [("canonical_evidence_ids", .list [pyString "e1"]),
        ("cutoff", pyString "2025-01-02T03:04:05.000Z")])]) }
    waiter := sampleWaiter }
  onToolResults _ _ := .ok ()

theorem news_run_sound_sample : ∃ t contents, startTurn sampleRequest sampleNewsRegistry sampleBudgets = .ok (t, contents) ∧
    (returnedIds (executions (runBoundedAssistantAgent sampleRequest sampleNewsRegistry sampleBudgets
      sampleNewsWorld).1)).length ≤ t.budgets.maxRetrievedEvidence.val ∧
    ∀ result, (runBoundedAssistantAgent sampleRequest sampleNewsRegistry sampleBudgets sampleNewsWorld).2 = .ok result →
      ∀ id ∈ result.evidenceIds, ∃ k i context params a query packet n output,
        Searched sampleLibrary ((sampleNewsWorld.batch k).world i) context params a query packet n output ∧
          id ∈ (a.canonicalIds sampleLibrary).take n ∧ context.actor = sampleActor ∧
          canonicalCutoff sampleLibrary "tool" (PyStr.of t.canonicalCutoff) = .ok context.retrievalCutoff := by
  obtain ⟨start, hstart⟩ := Raises.exists_of_isOk
    (show (startTurn sampleRequest sampleNewsRegistry sampleBudgets).isOk = true by decide +kernel)
  have hnews : sampleNewsRegistry.IsNews := by
    intro d hd
    rw [List.mem_singleton.1 hd]
    rfl
  exact ⟨start.1, start.2, hstart, news_run_sound hnews hstart⟩

end Xauusd.Agent
