/-
  Pages of the news evidence (`news-evidence-store.ts`): from the published
  table, and from the snapshot that a Preview build carries.

  A page is asked for with the cursor that the page before returned.  Both
  readers go on with what is below the cursor in the order of code units; the
  table is sorted in that order too, the snapshot by `localeCompare`.

  * `readNewsEvidencePage`, `readPreviewNewsEvidencePage`;
  * `PagesEqual`: all pages of the snapshot, one after the other, are those of a
    table with the same items, and have every item of the mode once;
  * `pagesEqual_iff`: **they do if and only if no two times of the mode part
    where one goes on with a plus sign and the other with a point or a minus
    sign**;
  * `fraction_lost`: a time with a fraction of a second is lost.

  Cursors are JSON values, as `JSON.parse` returns them; the two statements of a
  page of the table are read at one state.
-/
import Xauusd.Lib.Collate
import Xauusd.Lib.Paging
import Xauusd.Lib.Stable
import Xauusd.Lib.Json
import Xauusd.Lib.Text

namespace Xauusd.Evidence

inductive EvidenceMode where
  | all
  | eligible
  | seen
  | unseen
  deriving DecidableEq

/-- An item of the evidence that has passed `prepareNewsEvidenceBatch`; the rest
    of its fields stand for themselves. -/
structure EvidenceItem where
  eventKey : String
  sourcePublishedTime : Option String
  collectorFirstSeenTime : String
  broadModelEligible : Bool
  modelSeen : Bool
  rest : String
  deriving DecidableEq

/-- What both stores order an item by. -/
def EvidenceItem.sortTime (item : EvidenceItem) : String :=
  item.sourcePublishedTime.getD item.collectorFirstSeenTime

structure NewsEvidenceProtocolError where
  message : String
  status : ℕ
  code : String
  deriving DecidableEq

def invalidCursor : NewsEvidenceProtocolError := ⟨"invalid evidence cursor", 400, "NEWS_EVIDENCE_CURSOR_INVALID"⟩

def staleCursor : NewsEvidenceProtocolError := ⟨"evidence generation changed", 409, "NEWS_EVIDENCE_CURSOR_STALE"⟩

def notSynchronized : NewsEvidenceProtocolError := ⟨"等待新闻证据首次同步", 503, "NEWS_EVIDENCE_NOT_SYNCHRONIZED"⟩

def previewInvalid : NewsEvidenceProtocolError :=
  ⟨"invalid Preview evidence generation", 503, "NEWS_EVIDENCE_PREVIEW_INVALID"⟩

structure Cursor where
  snapshotId : String
  sortTime : String
  eventKey : String

def encodeEvidenceCursor (c : Cursor) : Json := .arr [.str c.snapshotId, .str c.sortTime, .str c.eventKey]

def decodeEvidenceCursor (raw : Json) : Except NewsEvidenceProtocolError Cursor :=
  match raw with
  | .arr [.str snapshotId, .str sortTime, .str eventKey] =>
    if snapshotId = "" ∨ sortTime = "" ∨ eventKey = "" ∨ !Text.isSha256Hex snapshotId then .error invalidCursor
    else .ok ⟨snapshotId, sortTime, eventKey⟩
  | _ => .error invalidCursor

structure Options where
  mode : EvidenceMode
  rawCursor : Option Json
  page : ℕ
  pageSize : ℕ

structure EvidencePage where
  items : List EvidenceItem
  page : ℕ
  pageSize : ℕ
  mode : EvidenceMode
  hasMore : Bool
  nextCursor : Option Json
  snapshotId : String
  contractVersion : String
  activatedAt : Option String
  sourceMode : String

/-- The cursor of the options, if it is one of the snapshot. -/
def readCursor (raw : Option Json) (snapshotId : String) : Except NewsEvidenceProtocolError (Option Cursor) :=
  match raw with
  | none => .ok none
  | some raw => do
    let cursor ← decodeEvidenceCursor raw
    if cursor.snapshotId ≠ snapshotId then throw staleCursor
    return some cursor

/-! ## The published table -/

/-- A row of `news_evidence_current`, its payload as the item it is parsed to. -/
structure CurrentRow where
  eventKey : String
  sortTime : String
  broadModelEligible : Bool
  modelSeen : Bool
  payload : EvidenceItem
  deriving DecidableEq

/-- The row that the activation of a snapshot writes for an item. -/
def EvidenceItem.row (item : EvidenceItem) : CurrentRow :=
  ⟨item.eventKey, item.sortTime, item.broadModelEligible, item.modelSeen, item⟩

structure ActiveState where
  activeSnapshotId : String
  contractVersion : String
  recordCount : ℕ
  activatedAt : String

structure Publication where
  state : Option ActiveState
  current : List CurrentRow

def CurrentRow.inMode (mode : EvidenceMode) (row : CurrentRow) : Bool :=
  match mode with
  | .all => true
  | .eligible => row.broadModelEligible
  | .seen => row.modelSeen
  | .unseen => !row.modelSeen

/-- `sort_time<? OR (sort_time=? AND event_key<?)`, of texts compared by their
    UTF-8 bytes. -/
def sqlBelow (a b : String × String) : Prop := a.1 < b.1 ∨ a.1 = b.1 ∧ a.2 < b.2

instance : DecidableRel sqlBelow := fun _ _ => inferInstanceAs (Decidable (_ ∨ _ ∧ _))

def readNewsEvidencePage (publication : Publication) (options : Options) :
    Except NewsEvidenceProtocolError EvidencePage := do
  let some state := publication.state | throw notSynchronized
  let cursor ← readCursor options.rawCursor state.activeSnapshotId
  let selected := publication.current.filter fun row => row.inMode options.mode &&
    cursor.all fun c => sqlBelow (row.sortTime, row.eventKey) (c.sortTime, c.eventKey)
  -- ORDER BY sort_time DESC,event_key DESC LIMIT pageSize + 1
  let ordered := Stable.sortBy (fun row : CurrentRow => OrderDual.toDual (toLex (row.sortTime, row.eventKey))) selected
  let results := ordered.take (options.pageSize + 1)
  let hasMore := decide (options.pageSize < results.length)
  let rows := results.take options.pageSize
  return {
    items := rows.map (·.payload)
    page := options.page
    pageSize := options.pageSize
    mode := options.mode
    hasMore
    nextCursor := if hasMore then
        rows.getLast?.map fun last => encodeEvidenceCursor ⟨state.activeSnapshotId, last.sortTime, last.eventKey⟩
      else none
    snapshotId := state.activeSnapshotId
    contractVersion := state.contractVersion
    activatedAt := some state.activatedAt
    sourceMode := "D1_AUDIT_ARCHIVE" }

/-! ## The snapshot of a Preview build -/

structure Snapshot where
  snapshotId : String
  contractVersion : String
  activatedAt : Option String
  items : List EvidenceItem

/-- The characters of times and keys in the order of the CLDR root collation:
    punctuation, symbols, digits, letters. -/
def rootOrder : List Char :=
  ['-', ':', '.', '+', '0', '1', '2', '3', '4', '5', '6', '7', '8', '9', 'a', 'b', 'c', 'd', 'e', 'f', 'T']

def rootWeight (c : Char) : ℕ := if c ∈ rootOrder then rootOrder.idxOf c else rootOrder.length + c.toNat

def collationKey (s : String) : List ℕ := s.toList.map rootWeight

def localeCompare (s t : String) : Ordering :=
  if collationKey s < collationKey t then .lt else if collationKey t < collationKey s then .gt else .eq

structure PreviewRow where
  item : EvidenceItem
  sortTime : String
  eventKey : String
  deriving DecidableEq

def EvidenceItem.previewRow (item : EvidenceItem) : PreviewRow := ⟨item, item.sortTime, item.eventKey⟩

def EvidenceItem.inMode (mode : EvidenceMode) (item : EvidenceItem) : Bool :=
  match mode with
  | .all => true
  | .eligible => item.broadModelEligible
  | .seen => item.modelSeen
  | .unseen => !item.modelSeen

def compareRows (left right : PreviewRow) : Ordering :=
  (localeCompare right.sortTime left.sortTime).then (localeCompare right.eventKey left.eventKey)

/-- `row.sortTime < cursor[1] || (row.sortTime === cursor[1] && row.eventKey < cursor[2])` -/
def jsBelow (a b : String × String) : Prop :=
  Text.utf16Less a.1 b.1 = true ∨ a.1 = b.1 ∧ Text.utf16Less a.2 b.2 = true

instance : DecidableRel jsBelow := fun _ _ => inferInstanceAs (Decidable (_ ∨ _ ∧ _))

def previewRows (snapshot : Snapshot) (mode : EvidenceMode) : List PreviewRow :=
  (((snapshot.items.filter (·.inMode mode)).map EvidenceItem.previewRow).filter fun row =>
    row.sortTime ≠ "" && Text.isSha256Hex row.eventKey).insertionSort fun left right => compareRows left right ≠ .gt

def readPreviewNewsEvidencePage (snapshot : Snapshot) (options : Options) :
    Except NewsEvidenceProtocolError EvidencePage := do
  if !Text.isSha256Hex snapshot.snapshotId then throw previewInvalid
  let cursor ← readCursor options.rawCursor snapshot.snapshotId
  let rows := previewRows snapshot options.mode
  let afterCursor : List PreviewRow := match cursor with
    | some c => rows.filter fun row => jsBelow (row.sortTime, row.eventKey) (c.sortTime, c.eventKey)
    | none => rows
  let pageRows := afterCursor.take (options.pageSize + 1)
  let hasMore := decide (options.pageSize < pageRows.length)
  let visible := pageRows.take options.pageSize
  return {
    items := visible.map (·.item)
    page := options.page
    pageSize := options.pageSize
    mode := options.mode
    hasMore
    nextCursor := if hasMore then
        visible.getLast?.map fun last => encodeEvidenceCursor ⟨snapshot.snapshotId, last.sortTime, last.eventKey⟩
      else none
    snapshotId := snapshot.snapshotId
    contractVersion := snapshot.contractVersion
    activatedAt := snapshot.activatedAt
    sourceMode := "IMMUTABLE_BUILD_SNAPSHOT" }

/-! ## Times -/

/-- A digit for each `#`. -/
def isoDate : List Char := ['#', '#', '#', '#', '-', '#', '#', '-', '#', '#', 'T', '#', '#', ':', '#', '#', ':', '#', '#']
def isoFraction : List Char := ['.', '#', '#', '#', '#', '#', '#']
def isoMinutes : List Char := ['#', '#', ':', '#', '#']

def isoOffsets : List (List Char) :=
  [] :: ['+', '-'].flatMap fun sign =>
    [sign :: isoMinutes, sign :: isoMinutes ++ [':', '#', '#'], sign :: isoMinutes ++ [':', '#', '#'] ++ isoFraction]

/-- `datetime.isoformat()`, with or without a fraction and an offset. -/
def isoShapes : List (List Char) :=
  isoOffsets.flatMap fun offset => [isoDate ++ offset, isoDate ++ isoFraction ++ offset]

def IsoText (s : String) : Prop := ∃ shape ∈ isoShapes, Collate.Shaped shape s.toList

/-- A snapshot as the producer writes it. -/
structure Snapshot.Valid (snapshot : Snapshot) : Prop where
  snapshotId : Text.isSha256Hex snapshot.snapshotId = true
  eventKeys : (snapshot.items.map (·.eventKey)).Nodup
  eventKey : ∀ item ∈ snapshot.items, Text.isSha256Hex item.eventKey = true
  times : ∀ item ∈ snapshot.items, IsoText item.sortTime

/-- A table with the same items, of the same snapshot. -/
structure Holds (publication : Publication) (snapshot : Snapshot) : Prop where
  state : ∃ state, publication.state = some state ∧ state.activeSnapshotId = snapshot.snapshotId
  current : publication.current.Perm (snapshot.items.map EvidenceItem.row)

/-- The items and the next cursor of a page, if it is returned. -/
def pageOf (read : Options → Except NewsEvidenceProtocolError EvidencePage) (mode : EvidenceMode)
    (page pageSize : ℕ) (rawCursor : Option Json) : Option (List EvidenceItem × Option Json) :=
  match read ⟨mode, rawCursor, page, pageSize⟩ with
  | .ok page => some (page.items, page.nextCursor)
  | .error _ => none

/-- Following the cursors from the first page on reads the same items in both
    stores, every item of the mode once. -/
def PagesEqual (snapshot : Snapshot) (publication : Publication) (mode : EvidenceMode) (page pageSize : ℕ) : Prop :=
  ∃ items, Paging.Follows (pageOf (readPreviewNewsEvidencePage snapshot) mode page pageSize) none items ∧
    Paging.Follows (pageOf (readNewsEvidencePage publication) mode page pageSize) none items ∧
    items.Perm (snapshot.items.filter (·.inMode mode))

/-- The times part where one goes on with a plus sign, the other with a point or
    a minus sign. -/
def Clash (s t : String) : Prop := ∃ start x y, s.toList = start ++ '+' :: x ∧
  (t.toList = start ++ '.' :: y ∨ t.toList = start ++ '-' :: y)

/-! ## Orders -/

instance : IsStrictOrder (String × String) sqlBelow where
  irrefl a := by
    rintro (h | ⟨-, h⟩)
    · exact lt_irrefl _ h
    · exact lt_irrefl _ h
  trans a b c := by
    rintro (hab | ⟨hab, hab'⟩) (hbc | ⟨hbc, hbc'⟩)
    · exact .inl (hab.trans hbc)
    · exact .inl (hbc ▸ hab)
    · exact .inl (hab ▸ hbc)
    · exact .inr ⟨hab.trans hbc, hab'.trans hbc'⟩

theorem utf16Less_trans {s t u : String} (h : Text.utf16Less s t = true) (h' : Text.utf16Less t u = true) :
    Text.utf16Less s u = true := by
  rw [Text.utf16Less, decide_eq_true_eq] at h h' ⊢
  exact h.trans h'

theorem utf16Less_irrefl (s : String) : ¬ Text.utf16Less s s = true := by
  rw [Text.utf16Less, decide_eq_true_eq]
  exact lt_irrefl _

instance : IsStrictOrder (String × String) jsBelow where
  irrefl a := by
    rintro (h | ⟨-, h⟩)
    · exact utf16Less_irrefl _ h
    · exact utf16Less_irrefl _ h
  trans a b c := by
    rintro (hab | ⟨hab, hab'⟩) (hbc | ⟨hbc, hbc'⟩)
    · exact .inl (utf16Less_trans hab hbc)
    · exact .inl (hbc ▸ hab)
    · exact .inl (hab ▸ hbc)
    · exact .inr ⟨hab.trans hbc, utf16Less_trans hab' hbc'⟩

theorem rootWeight_injective : Function.Injective rootWeight := by
  intro a b h
  rw [rootWeight, rootWeight] at h
  split at h <;> split at h
  · next ha hb => exact (List.idxOf_inj ha).1 h
  · next ha hb =>
    have := List.idxOf_lt_length_of_mem ha
    omega
  · next ha hb =>
    have := List.idxOf_lt_length_of_mem hb
    omega
  · exact Char.toNat_inj.1 (Nat.add_left_cancel h)

theorem collationKey_inj {s t : String} : collationKey s = collationKey t ↔ s = t := by
  rw [collationKey, collationKey, List.map_injective_iff.2 rootWeight_injective |>.eq_iff, String.toList_inj]

/-- Digits of a key, or of a time. -/
def hexChars : List Char := ['0', '1', '2', '3', '4', '5', '6', '7', '8', '9', 'a', 'b', 'c', 'd', 'e', 'f']

theorem mem_hexChars {c : Char} (h : ('0' ≤ c ∧ c ≤ '9') ∨ ('a' ≤ c ∧ c ≤ 'f')) : c ∈ hexChars := by
  simp only [Char.le_def, UInt32.le_iff_toNat_le] at h
  have hc : c.val.toNat = c.toNat := rfl
  have h0 : '0'.val.toNat = 48 := rfl
  have h9 : '9'.val.toNat = 57 := rfl
  have ha : 'a'.val.toNat = 97 := rfl
  have hf : 'f'.val.toNat = 102 := rfl
  rw [hc, h0, h9, ha, hf] at h
  rw [← Char.ofNat_toNat c]
  generalize c.toNat = n at h
  rcases h with ⟨hl, hr⟩ | ⟨hl, hr⟩
  · interval_cases n <;> decide
  · interval_cases n <;> decide

theorem rootWeight_eq : ∀ c ∈ hexChars, (48 ≤ c.toNat ∧ c.toNat ≤ 57 ∧ rootWeight c + 44 = c.toNat) ∨
    (97 ≤ c.toNat ∧ c.toNat ≤ 102 ∧ rootWeight c + 83 = c.toNat) := by
  simp only [hexChars, List.forall_mem_cons]
  refine ⟨?_, ?_, ?_, ?_, ?_, ?_, ?_, ?_, ?_, ?_, ?_, ?_, ?_, ?_, ?_, ?_, by simp⟩ <;> decide

/-- Digits have one order. -/
theorem rootWeight_hex {a b : Char} (ha : a ∈ hexChars) (hb : b ∈ hexChars) :
    rootWeight a < rootWeight b ↔ a < b := by
  have ha := rootWeight_eq a ha
  have hb := rootWeight_eq b hb
  have hlt : a < b ↔ a.toNat < b.toNat := by
    rw [Char.lt_def, UInt32.lt_iff_toNat_lt]
    rfl
  rw [hlt]
  omega

theorem basic_hex {c : Char} (h : c ∈ hexChars) : c.toNat < 0x10000 := by
  have h := rootWeight_eq c h
  omega

/-- The marks of a time: a plus sign is below the others as a code unit, and
    above them in the collation. -/
def marks : List Char := ['+', '.', '-']

theorem rootWeight_marks : ∀ a ∈ marks, ∀ b ∈ marks, a ≠ b →
    ((rootWeight a < rootWeight b ↔ a < b) ↔ a ≠ '+' ∧ b ≠ '+') := by
  intro a ha b hb
  simp only [marks, List.mem_cons, List.not_mem_nil, or_false] at ha hb
  rcases ha with rfl | rfl | rfl <;> rcases hb with rfl | rfl | rfl <;> decide

theorem isDigit_hex {c : Char} (h : Collate.isDigit c = true) : c ∈ hexChars := by
  rw [Collate.isDigit, Bool.and_eq_true, decide_eq_true_eq, decide_eq_true_eq] at h
  exact mem_hexChars (.inl h)

theorem hex_of_sha {s : String} (h : Text.isSha256Hex s = true) : ∀ c ∈ s.toList, c ∈ hexChars := by
  intro c hc
  rw [Text.isSha256Hex, Bool.and_eq_true, List.all_eq_true] at h
  have hchar := h.2 c hc
  simp only [Bool.or_eq_true, Bool.and_eq_true, decide_eq_true_eq] at hchar
  exact mem_hexChars hchar

/-- Two times of the producer part at digits or at marks. -/
theorem isoShapes_parts : ∀ shape ∈ isoShapes, ∀ shape' ∈ isoShapes, Collate.partsAt marks shape shape' = true := by
  decide

theorem mem_firstDiff {s t : List Char} {d : Char × Char} (h : d ∈ Collate.firstDiff s t) :
    d.1 ≠ d.2 ∧ ∃ start x y, s = start ++ d.1 :: x ∧ t = start ++ d.2 :: y := by
  obtain ⟨a, b⟩ := d
  exact Collate.firstDiff_eq_some.1 h

theorem collationKey_lt_of_sha {s t : String} (hs : Text.isSha256Hex s = true) (ht : Text.isSha256Hex t = true) :
    collationKey s < collationKey t ↔ s.toList < t.toList := by
  refine Collate.map_lt_iff rootWeight_injective fun d hd => ?_
  obtain ⟨-, start, x, y, hx, hy⟩ := mem_firstDiff hd
  refine rootWeight_hex (hex_of_sha hs _ ?_) (hex_of_sha ht _ ?_)
  · rw [hx]
    simp
  · rw [hy]
    simp

/-- Times that do not clash have one order. -/
theorem collationKey_lt_of_iso {s t : String} (hs : IsoText s) (ht : IsoText t) (hst : ¬ Clash s t)
    (hts : ¬ Clash t s) : collationKey s < collationKey t ↔ s.toList < t.toList := by
  obtain ⟨shape, hshape, hs⟩ := hs
  obtain ⟨shape', hshape', ht⟩ := ht
  refine Collate.map_lt_iff rootWeight_injective fun d hd => ?_
  obtain ⟨hne, start, x, y, hx, hy⟩ := mem_firstDiff hd
  rcases Collate.firstDiff_shaped hs ht (isoShapes_parts shape hshape shape' hshape') d hd with hdigits | hmarks
  · exact rootWeight_hex (isDigit_hex hdigits.1) (isDigit_hex hdigits.2)
  · refine (rootWeight_marks _ hmarks.1 _ hmarks.2 hne).2 ⟨fun hplus => hst ?_, fun hplus => hts ?_⟩
    · rw [hplus] at hx hne
      have hother : d.2 = '.' ∨ d.2 = '-' := by simpa [marks, hne.symm] using hmarks.2
      refine ⟨start, x, y, hx, ?_⟩
      rcases hother with h | h
      · exact .inl (h ▸ hy)
      · exact .inr (h ▸ hy)
    · rw [hplus] at hy hne
      have hother : d.1 = '.' ∨ d.1 = '-' := by simpa [marks, hne] using hmarks.1
      refine ⟨start, y, x, hy, ?_⟩
      rcases hother with h | h
      · exact .inl (h ▸ hx)
      · exact .inr (h ▸ hx)

/-- Times that clash have the two orders opposite. -/
theorem clash_orders {s t : String} (h : Clash s t) : s.toList < t.toList ∧ collationKey t < collationKey s := by
  obtain ⟨start, x, y, hs, ht⟩ := h
  obtain ⟨c, hc, hne, ht⟩ : ∃ c, ('+' < c ∧ rootWeight c < rootWeight '+') ∧ c ≠ '+' ∧ t.toList = start ++ c :: y := by
    rcases ht with ht | ht
    · exact ⟨'.', by decide, by decide, ht⟩
    · exact ⟨'-', by decide, by decide, ht⟩
  have hdiff : Collate.firstDiff s.toList t.toList = some ('+', c) :=
    Collate.firstDiff_eq_some.2 ⟨hne.symm, start, x, y, hs, ht⟩
  have hdiff' : Collate.firstDiff t.toList s.toList = some (c, '+') :=
    Collate.firstDiff_eq_some.2 ⟨hne, start, y, x, ht, hs⟩
  refine ⟨(Collate.lt_iff_of_firstDiff hdiff).2 hc.1, ?_⟩
  have hmap := Collate.firstDiff_map rootWeight_injective t.toList s.toList
  rw [hdiff'] at hmap
  exact (Collate.lt_iff_of_firstDiff hmap).2 hc.2

theorem isoShapes_basic : ∀ shape ∈ isoShapes, ∀ p ∈ shape, p.toNat < 0x10000 := by
  have hdate : ∀ p ∈ isoDate, p.toNat < 0x10000 := by simp [isoDate]
  have hfraction : ∀ p ∈ isoFraction, p.toNat < 0x10000 := by simp [isoFraction]
  have hoffset : ∀ offset ∈ isoOffsets, ∀ p ∈ offset, p.toNat < 0x10000 := by
    simp [isoOffsets, isoMinutes, isoFraction]
  intro shape hshape p hp
  obtain ⟨offset, ho, hshape⟩ := List.mem_flatMap.1 hshape
  simp only [List.mem_cons, List.not_mem_nil, or_false] at hshape
  rcases hshape with rfl | rfl
  · rcases List.mem_append.1 hp with hp | hp
    · exact hdate p hp
    · exact hoffset offset ho p hp
  · rcases List.mem_append.1 hp with hp | hp
    · rcases List.mem_append.1 hp with hp | hp
      · exact hdate p hp
      · exact hfraction p hp
    · exact hoffset offset ho p hp

theorem basic_of_iso {s : String} (h : IsoText s) : ∀ c ∈ s.toList, c.toNat < 0x10000 := by
  obtain ⟨shape, hshape, h⟩ := h
  have hbasic := isoShapes_basic shape hshape
  clear hshape
  rw [Collate.Shaped] at h
  generalize s.toList = l at h
  induction h with
  | nil => simp
  | @cons p c shape l hc _ ih =>
    obtain ⟨hp, hrest⟩ := List.forall_mem_cons.1 hbasic
    refine List.forall_mem_cons.2 ⟨?_, ih hrest⟩
    split at hc
    · exact basic_hex (isDigit_hex hc)
    · rw [hc]
      exact hp

theorem basic_of_sha {s : String} (h : Text.isSha256Hex s = true) : ∀ c ∈ s.toList, c.toNat < 0x10000 :=
  fun c hc => basic_hex (hex_of_sha h c hc)

/-! ## Pages of one list -/

def PreviewRow.key (row : PreviewRow) : String × String := (row.sortTime, row.eventKey)

def CurrentRow.key (row : CurrentRow) : String × String := (row.sortTime, row.eventKey)

/-- A cursor of the snapshot. -/
def cursorOf (snapshotId : String) (key : String × String) : Json := encodeEvidenceCursor ⟨snapshotId, key.1, key.2⟩

/-- A cursor names a time and a key. -/
def Named (key : String × String) : Prop := key.1 ≠ "" ∧ key.2 ≠ ""

theorem readCursor_of_named {snapshotId : String} (hid : Text.isSha256Hex snapshotId = true)
    {c : Option (String × String)} (hc : ∀ k ∈ c, Named k) : readCursor (c.map (cursorOf snapshotId)) snapshotId =
      .ok (c.map fun k => ⟨snapshotId, k.1, k.2⟩) := by
  cases c with
  | none => rfl
  | some k =>
    obtain ⟨htime, hkey⟩ := hc k rfl
    have hne : snapshotId ≠ "" := by
      rintro rfl
      exact absurd hid (by decide)
    simp [readCursor, cursorOf, encodeEvidenceCursor, decodeEvidenceCursor, hid, htime, hkey, hne, bind, Except.bind,
      pure, Except.pure]

variable {snapshot : Snapshot} {publication : Publication} {mode : EvidenceMode} {page pageSize : ℕ}

theorem preview_page (hid : Text.isSha256Hex snapshot.snapshotId = true) {c : Option (String × String)}
    (hc : ∀ k ∈ c, Named k) :
    pageOf (readPreviewNewsEvidencePage snapshot) mode page pageSize (c.map (cursorOf snapshot.snapshotId)) =
      some ((Paging.page jsBelow PreviewRow.key pageSize (previewRows snapshot mode) c).1.map (·.item),
        (Paging.page jsBelow PreviewRow.key pageSize (previewRows snapshot mode) c).2.map
          (cursorOf snapshot.snapshotId)) := by
  have hrest : (match c.map fun k => (⟨snapshot.snapshotId, k.1, k.2⟩ : Cursor) with
      | some c => (previewRows snapshot mode).filter fun row =>
          jsBelow (row.sortTime, row.eventKey) (c.sortTime, c.eventKey)
      | none => previewRows snapshot mode) = Paging.below jsBelow PreviewRow.key c (previewRows snapshot mode) := by
    cases c with
    | none => rw [Paging.below_none]; rfl
    | some k => rfl
  rw [pageOf, readPreviewNewsEvidencePage, readCursor_of_named hid hc, hid]
  simp only [Bool.not_true, Bool.false_eq_true, if_false, bind, Except.bind, pure, Except.pure, hrest, decide_eq_true_eq,
    Paging.take_take_succ, Paging.lt_length_take_succ]
  rw [Paging.page_next]
  rfl

/-- The rows of a mode in the order of the table. -/
def tableRows (publication : Publication) (mode : EvidenceMode) : List CurrentRow :=
  Stable.sortBy (fun row : CurrentRow => OrderDual.toDual (toLex (row.sortTime, row.eventKey)))
    (publication.current.filter (·.inMode mode))

theorem table_page {state : ActiveState} (hstate : publication.state = some state)
    (hid : Text.isSha256Hex state.activeSnapshotId = true) {c : Option (String × String)} (hc : ∀ k ∈ c, Named k) :
    pageOf (readNewsEvidencePage publication) mode page pageSize (c.map (cursorOf state.activeSnapshotId)) =
      some ((Paging.page sqlBelow CurrentRow.key pageSize (tableRows publication mode) c).1.map (·.payload),
        (Paging.page sqlBelow CurrentRow.key pageSize (tableRows publication mode) c).2.map
          (cursorOf state.activeSnapshotId)) := by
  have hrest : Stable.sortBy (fun row : CurrentRow => OrderDual.toDual (toLex (row.sortTime, row.eventKey)))
      (publication.current.filter fun row => row.inMode mode &&
        (c.map fun k => (⟨state.activeSnapshotId, k.1, k.2⟩ : Cursor)).all fun c =>
          sqlBelow (row.sortTime, row.eventKey) (c.sortTime, c.eventKey)) =
      Paging.below sqlBelow CurrentRow.key c (tableRows publication mode) := by
    rw [Paging.below, tableRows, ← Stable.sortBy_filter, List.filter_filter]
    congr 1
    refine List.filter_congr fun row _ => ?_
    rw [Bool.and_comm, Option.all_map]
    rfl
  rw [pageOf, readNewsEvidencePage, hstate]
  simp only [readCursor_of_named hid hc, bind, Except.bind, pure, Except.pure, hrest, decide_eq_true_eq,
    Paging.take_take_succ, Paging.lt_length_take_succ]
  rw [Paging.page_next]
  rfl

/-! ## The two orders of the items -/

section
variable {item other : EvidenceItem}

def EvidenceItem.key (item : EvidenceItem) : String × String := (item.sortTime, item.eventKey)

/-- The items in the order of the table. -/
def tableItems (snapshot : Snapshot) (mode : EvidenceMode) : List EvidenceItem :=
  Stable.sortBy (fun item => OrderDual.toDual (toLex item.key)) (snapshot.items.filter (·.inMode mode))

/-- The items in the order of the snapshot. -/
def previewItems (snapshot : Snapshot) (mode : EvidenceMode) : List EvidenceItem :=
  Stable.sortBy (fun item : EvidenceItem =>
      OrderDual.toDual (toLex (collationKey item.sortTime, collationKey item.eventKey)))
    (snapshot.items.filter (·.inMode mode))

theorem compareRows_iff (left right : PreviewRow) : compareRows left right ≠ .gt ↔
    OrderDual.toDual (toLex (collationKey left.sortTime, collationKey left.eventKey)) ≤
      OrderDual.toDual (toLex (collationKey right.sortTime, collationKey right.eventKey)) := by
  rw [OrderDual.toDual_le_toDual, Prod.Lex.toLex_le_toLex, compareRows, localeCompare, localeCompare]
  rcases lt_trichotomy (collationKey right.sortTime) (collationKey left.sortTime) with h | h | h
  · rw [if_pos h]
    exact ⟨fun _ => .inl h, fun _ hgt => by cases hgt⟩
  · rw [if_neg (by rw [h]; exact lt_irrefl _), if_neg (by rw [h]; exact lt_irrefl _), Ordering.then]
    constructor
    · intro hne
      refine .inr ⟨h, ?_⟩
      by_contra hlt
      rw [not_le] at hlt
      rw [if_neg (lt_asymm hlt), if_pos hlt] at hne
      exact hne rfl
    · rintro (hlt | ⟨-, hle⟩)
      · exact absurd hlt (by rw [h]; exact lt_irrefl _)
      · rw [if_neg (not_lt.2 hle)]
        split <;> decide
  · rw [if_neg (lt_asymm h), if_pos h]
    refine ⟨fun hgt => absurd rfl hgt, ?_⟩
    rintro (hlt | ⟨heq, -⟩)
    · exact absurd hlt (lt_asymm h)
    · exact absurd heq h.ne'

theorem ne_empty_of_iso {s : String} (h : IsoText s) : s ≠ "" := by
  rintro rfl
  obtain ⟨shape, hshape, h⟩ := h
  have hempty : ∀ shape ∈ isoShapes, shape ≠ [] := by decide
  rw [Collate.Shaped] at h
  cases h
  exact hempty [] hshape rfl

theorem ne_empty_of_sha {s : String} (h : Text.isSha256Hex s = true) : s ≠ "" := by
  rintro rfl
  exact absurd h (by decide)

theorem previewRows_eq (h : snapshot.Valid) :
    previewRows snapshot mode = (previewItems snapshot mode).map EvidenceItem.previewRow := by
  have hall : ((snapshot.items.filter (·.inMode mode)).map EvidenceItem.previewRow).filter (fun row =>
      row.sortTime ≠ "" && Text.isSha256Hex row.eventKey) =
      (snapshot.items.filter (·.inMode mode)).map EvidenceItem.previewRow := by
    refine List.filter_eq_self.2 fun row hrow => ?_
    obtain ⟨item, hitem, rfl⟩ := List.mem_map.1 hrow
    have hitem := (List.mem_filter.1 hitem).1
    rw [Bool.and_eq_true, decide_eq_true_eq]
    exact ⟨ne_empty_of_iso (h.times item hitem), h.eventKey item hitem⟩
  have hmap := Stable.sortBy_map
    (fun row : PreviewRow => OrderDual.toDual (toLex (collationKey row.sortTime, collationKey row.eventKey)))
    EvidenceItem.previewRow (snapshot.items.filter (·.inMode mode))
  rw [previewRows, hall]
  refine Eq.trans ?_ hmap
  rw [Stable.sortBy]
  congr 1
  funext left right
  exact propext (compareRows_iff left right)

/-- Items of a valid snapshot have keys of their own. -/
theorem item_ext (h : snapshot.Valid) (hitem : item ∈ snapshot.items) (hother : other ∈ snapshot.items)
    (heq : item.eventKey = other.eventKey) : item = other :=
  List.inj_on_of_nodup_map h.eventKeys hitem hother heq

theorem mem_tableItems : item ∈ tableItems snapshot mode ↔ item ∈ snapshot.items ∧ item.inMode mode = true := by
  rw [tableItems, Stable.mem_sortBy, List.mem_filter]

theorem mem_previewItems : item ∈ previewItems snapshot mode ↔ item ∈ snapshot.items ∧ item.inMode mode = true := by
  rw [previewItems, Stable.mem_sortBy, List.mem_filter]

theorem tableItems_perm : (tableItems snapshot mode).Perm (snapshot.items.filter (·.inMode mode)) :=
  Stable.sortBy_perm _ _

theorem previewItems_perm : (previewItems snapshot mode).Perm (snapshot.items.filter (·.inMode mode)) :=
  Stable.sortBy_perm _ _

/-- The rows of a table with the same items. -/
theorem tableRows_eq (h : snapshot.Valid) (hholds : Holds publication snapshot) :
    tableRows publication mode = (tableItems snapshot mode).map EvidenceItem.row := by
  rw [tableItems]
  have hmap := Stable.sortBy_map (fun row : CurrentRow => OrderDual.toDual (toLex (row.sortTime, row.eventKey)))
    EvidenceItem.row (snapshot.items.filter (·.inMode mode))
  refine Eq.trans ?_ hmap
  have hperm : (publication.current.filter (·.inMode mode)).Perm
      ((snapshot.items.filter (·.inMode mode)).map EvidenceItem.row) := by
    have hfilter := hholds.current.filter (CurrentRow.inMode mode)
    rw [List.filter_map] at hfilter
    refine hfilter.trans (List.Perm.of_eq (congrArg _ (List.filter_congr fun item _ => ?_)))
    cases mode <;> rfl
  rw [tableRows]
  refine Stable.eq_sortBy (Stable.sortBy_sorted _ _) ((Stable.sortBy_perm _ _).trans hperm) ?_
  intro row hrow row' hrow' heq
  obtain ⟨item, hitem, rfl⟩ := List.mem_map.1 (hperm.subset (Stable.mem_sortBy.1 hrow))
  obtain ⟨other, hother, rfl⟩ := List.mem_map.1 (hperm.subset (Stable.mem_sortBy.1 hrow'))
  have hkey := congrArg Prod.snd (toLex_inj.1 (OrderDual.toDual_inj.1 heq))
  rw [item_ext h (List.mem_filter.1 hitem).1 (List.mem_filter.1 hother).1 hkey]

/-- The items of the table, each below the one before. -/
theorem tableItems_desc (h : snapshot.Valid) :
    (tableItems snapshot mode).Pairwise fun a b => sqlBelow b.key a.key := by
  have hkeys : ((tableItems snapshot mode).map (·.eventKey)).Nodup := by
    refine (tableItems_perm.map _).nodup_iff.2 ?_
    exact (List.filter_sublist.map _).nodup h.eventKeys
  have hsorted := Stable.sortBy_sorted (fun item : EvidenceItem => OrderDual.toDual (toLex item.key))
    (snapshot.items.filter (·.inMode mode))
  refine (hsorted.and (List.pairwise_map.1 hkeys)).imp fun {a b} hab => ?_
  rw [OrderDual.toDual_le_toDual, Prod.Lex.toLex_le_toLex] at hab
  rcases hab with ⟨hlt | ⟨heq, hle⟩, hne⟩
  · exact .inl hlt
  · exact .inr ⟨heq, lt_of_le_of_ne hle (Ne.symm hne)⟩

theorem jsBelow_of_sqlBelow (h : snapshot.Valid) (hitem : item ∈ snapshot.items) (hother : other ∈ snapshot.items)
    (hbelow : sqlBelow item.key other.key) : jsBelow item.key other.key := by
  have htime := Text.utf16Less_iff (basic_of_iso (h.times item hitem)) (basic_of_iso (h.times other hother))
  have hkey := Text.utf16Less_iff (basic_of_sha (h.eventKey item hitem)) (basic_of_sha (h.eventKey other hother))
  rcases hbelow with hlt | ⟨heq, hlt⟩
  · exact .inl (htime.2 hlt)
  · exact .inr ⟨heq, hkey.2 hlt⟩

/-- One order of times that do not clash. -/
theorem key_le_of_preview (h : snapshot.Valid) (hitem : item ∈ snapshot.items) (hother : other ∈ snapshot.items)
    (hclash : ¬ Clash item.sortTime other.sortTime) (hclash' : ¬ Clash other.sortTime item.sortTime)
    (hle : toLex (collationKey item.sortTime, collationKey item.eventKey) ≤
      toLex (collationKey other.sortTime, collationKey other.eventKey)) : toLex item.key ≤ toLex other.key := by
  have htime := collationKey_lt_of_iso (h.times item hitem) (h.times other hother) hclash hclash'
  have hkey := collationKey_lt_of_sha (h.eventKey other hother) (h.eventKey item hitem)
  rw [Prod.Lex.toLex_le_toLex] at hle ⊢
  rcases hle with hlt | ⟨heq, hle⟩
  · exact .inl (String.lt_iff.2 (htime.1 hlt))
  · refine .inr ⟨collationKey_inj.1 heq, not_lt.1 fun hlt => ?_⟩
    exact absurd (hkey.2 (String.lt_iff.1 hlt)) (not_lt.2 hle)

/-- Not two given items, in neither order. -/
def Apart (item other a b : EvidenceItem) : Prop := (a = item → b ≠ other) ∧ (b = item → a ≠ other)

instance : Std.Symm (Apart item other) := ⟨fun _ _ h => h.symm⟩

/-- **The snapshot has the order of the table if no times clash, and only
    then.** -/
theorem previewItems_eq_iff (h : snapshot.Valid) : previewItems snapshot mode = tableItems snapshot mode ↔
    ∀ item ∈ snapshot.items, item.inMode mode = true → ∀ other ∈ snapshot.items, other.inMode mode = true →
      ¬ Clash item.sortTime other.sortTime := by
  have hpreview := Stable.sortBy_sorted (fun item : EvidenceItem =>
      OrderDual.toDual (toLex (collationKey item.sortTime, collationKey item.eventKey)))
    (snapshot.items.filter (·.inMode mode))
  have htable := Stable.sortBy_sorted (fun item : EvidenceItem => OrderDual.toDual (toLex item.key))
    (snapshot.items.filter (·.inMode mode))
  constructor
  · intro heq item hitem hmode other hother hmode' hclash
    obtain ⟨hlt, hgt⟩ := clash_orders hclash
    have hne : item ≠ other := by
      rintro rfl
      exact lt_irrefl _ hlt
    rw [← previewItems, heq] at hpreview
    -- one of the two stands first, and one of the orders denies it
    have hapart : (tableItems snapshot mode).Pairwise (Apart item other) := by
      refine (hpreview.and htable).imp fun {a b} hab => ?_
      simp only [OrderDual.toDual_le_toDual, Prod.Lex.toLex_le_toLex] at hab
      constructor
      · rintro rfl rfl
        rcases hab.2 with hlt' | ⟨heq', -⟩
        · exact lt_asymm hlt (String.lt_iff.1 hlt')
        · exact absurd hlt (by rw [show b.sortTime = a.sortTime from heq']; exact lt_irrefl _)
      · rintro rfl rfl
        rcases hab.1 with hlt' | ⟨heq', -⟩
        · exact lt_asymm hgt hlt'
        · exact absurd hgt (by rw [heq']; exact lt_irrefl _)
    exact (hapart.forall (mem_tableItems.2 ⟨hitem, hmode⟩) (mem_tableItems.2 ⟨hother, hmode'⟩) hne).1 rfl rfl
  · intro hclash
    refine Stable.eq_sortBy ?_ previewItems_perm ?_
    · refine hpreview.imp_of_mem fun {a b} ha hb hab => ?_
      obtain ⟨ha, hamode⟩ := mem_previewItems.1 ha
      obtain ⟨hb, hbmode⟩ := mem_previewItems.1 hb
      exact key_le_of_preview h hb ha (hclash b hb hbmode a ha hamode) (hclash a ha hamode b hb hbmode) hab
    · intro a ha b hb hab
      have hkey := congrArg Prod.snd (toLex_inj.1 (OrderDual.toDual_inj.1 hab))
      exact item_ext h (mem_previewItems.1 ha).1 (mem_previewItems.1 hb).1 hkey

theorem named_of_mem (h : snapshot.Valid) (hitem : item ∈ snapshot.items) : Named item.key :=
  ⟨ne_empty_of_iso (h.times item hitem), ne_empty_of_sha (h.eventKey item hitem)⟩

/-- A page of some items names its cursor. -/
theorem named_page {α : Type*} {lt : String × String → String × String → Prop} [DecidableRel lt]
    {key : α → String × String} {l : List α} (hl : ∀ a ∈ l, Named (key a)) {c : Option (String × String)} :
    ∀ k ∈ (Paging.page lt key pageSize l c).2, Named k := by
  intro k hk
  rw [Paging.page] at hk
  split at hk
  · obtain ⟨a, ha, rfl⟩ := Paging.lastKey_mem hk
    exact hl a (List.mem_of_mem_filter (List.mem_of_mem_take ha))
  · cases hk

/-- The pages of the table are all its items, in their order. -/
theorem table_follows (h : snapshot.Valid) (hholds : Holds publication snapshot) (hsize : 0 < pageSize)
    {items : List EvidenceItem} :
    Paging.Follows (pageOf (readNewsEvidencePage publication) mode page pageSize) none items ↔
      items = tableItems snapshot mode := by
  obtain ⟨state, hstate, hid⟩ := hholds.state
  have hsha : Text.isSha256Hex state.activeSnapshotId = true := by rw [hid, h.snapshotId]
  have hrows : tableRows publication mode = (tableItems snapshot mode).map EvidenceItem.row := tableRows_eq h hholds
  have hnamed : ∀ row ∈ tableRows publication mode, Named row.key := by
    rw [hrows]
    rintro row hrow
    obtain ⟨item, hitem, rfl⟩ := List.mem_map.1 hrow
    exact named_of_mem h (mem_tableItems.1 hitem).1
  have hdesc : (tableRows publication mode).Pairwise fun a b => sqlBelow b.key a.key := by
    rw [hrows]
    exact List.pairwise_map.2 (tableItems_desc h)
  have hitems : (tableRows publication mode).map (·.payload) = tableItems snapshot mode := by
    rw [hrows, List.map_map]
    exact List.map_id _
  show Paging.Follows _ ((none : Option (String × String)).map (cursorOf state.activeSnapshotId)) items ↔ _
  refine (Paging.follows_map (fun c hc => table_page hstate hsha hc) (fun c _ => named_page hnamed)
    (fun k hk => by cases hk)).trans ?_
  constructor
  · rintro ⟨rows, hfollows, rfl⟩
    rw [hfollows.unique (Paging.follows_of_sorted hsize hdesc), hitems]
  · rintro rfl
    exact ⟨_, Paging.follows_of_sorted hsize hdesc, hitems.symm⟩

/-- The pages of the snapshot are those of the table if its order is, and only
    then. -/
theorem pagesEqual_iff_order (h : snapshot.Valid) (hholds : Holds publication snapshot) (hsize : 0 < pageSize) :
    PagesEqual snapshot publication mode page pageSize ↔ previewItems snapshot mode = tableItems snapshot mode := by
  have hrows : previewRows snapshot mode = (previewItems snapshot mode).map EvidenceItem.previewRow := previewRows_eq h
  have hnamed : ∀ row ∈ previewRows snapshot mode, Named row.key := by
    rw [hrows]
    rintro row hrow
    obtain ⟨item, hitem, rfl⟩ := List.mem_map.1 hrow
    exact named_of_mem h (mem_previewItems.1 hitem).1
  have hfollows (items : List EvidenceItem) :
      Paging.Follows (pageOf (readPreviewNewsEvidencePage snapshot) mode page pageSize) none items ↔
        ∃ rows, Paging.Follows (fun c => some (Paging.page jsBelow PreviewRow.key pageSize
          (previewRows snapshot mode) c)) none rows ∧ items = rows.map (·.item) :=
    Paging.follows_map (c := none) (fun c hc => preview_page h.snapshotId hc) (fun c _ => named_page hnamed)
      (fun k hk => by cases hk)
  have hdesc : ((tableItems snapshot mode).map EvidenceItem.previewRow).Pairwise fun a b => jsBelow b.key a.key := by
    refine List.pairwise_map.2 ((tableItems_desc h).imp_of_mem fun ha hb hab => ?_)
    exact jsBelow_of_sqlBelow h (mem_tableItems.1 hb).1 (mem_tableItems.1 ha).1 hab
  have hitem (items : List EvidenceItem) : (items.map EvidenceItem.previewRow).map (·.item) = items := by
    rw [List.map_map]
    exact List.map_id _
  constructor
  · rintro ⟨items, hpreview, htable, -⟩
    obtain ⟨rows, hread, hrowsitems⟩ := (hfollows items).1 hpreview
    rw [(table_follows h hholds hsize).1 htable] at hrowsitems
    have hread' : rows = (tableItems snapshot mode).map EvidenceItem.previewRow := by
      rw [hrowsitems, List.map_map]
      refine (List.map_id rows).symm.trans (List.map_congr_left fun row hrow => ?_)
      have hmem := Paging.follows_subset hread hrow
      rw [hrows] at hmem
      obtain ⟨item, -, rfl⟩ := List.mem_map.1 hmem
      rfl
    have hperm : rows.Perm (previewRows snapshot mode) := by
      rw [hread', hrows]
      exact (tableItems_perm.trans previewItems_perm.symm).map _
    have heq := Paging.eq_of_follows hread (by rwa [Paging.below_none]) (by rwa [hread'])
    rw [Paging.below_none, hread', hrows] at heq
    have := congrArg (List.map (·.item)) heq
    rwa [hitem, hitem] at this
  · intro heq
    refine ⟨tableItems snapshot mode, (hfollows _).2 ?_, (table_follows h hholds hsize).2 rfl, tableItems_perm⟩
    rw [hrows, heq]
    exact ⟨_, Paging.follows_of_sorted hsize hdesc, (hitem _).symm⟩

end

/-- **The pages are equal if and only if no two times of the mode clash.** -/
theorem pagesEqual_iff (h : snapshot.Valid) (hholds : Holds publication snapshot) (hsize : 0 < pageSize) :
    PagesEqual snapshot publication mode page pageSize ↔
      ∀ item ∈ snapshot.items, item.inMode mode = true → ∀ other ∈ snapshot.items, other.inMode mode = true →
        ¬ Clash item.sortTime other.sortTime :=
  (pagesEqual_iff_order h hholds hsize).trans (previewItems_eq_iff h)

/-! ## A fraction of a second -/

def sampleId (c : Char) : String := String.ofList (List.replicate 64 c)

theorem sampleId_sha {c : Char} (h : c ∈ ['a', 'b', 'c']) : Text.isSha256Hex (sampleId c) = true := by
  rw [Text.isSha256Hex, sampleId, String.toList_ofList]
  simp only [List.mem_cons, List.not_mem_nil, or_false] at h
  rcases h with rfl | rfl | rfl <;> decide

def sampleItem (c : Char) (time : String) : EvidenceItem := ⟨sampleId c, some time, time, true, false, ""⟩

/-- Published on the second, and half a second later. -/
def sampleSnapshot : Snapshot :=
  ⟨sampleId 'c', "news-evidence-paged-v2", none,
    [sampleItem 'a' "2026-01-01T00:00:00+00:00", sampleItem 'b' "2026-01-01T00:00:00.500000+00:00"]⟩

def sampleTable (snapshot : Snapshot) : Publication :=
  ⟨some ⟨snapshot.snapshotId, "news-evidence-paged-v2", snapshot.items.length, "2026-01-01T00:01:00Z"⟩,
    snapshot.items.map EvidenceItem.row⟩

theorem sampleTable_holds (snapshot : Snapshot) : Holds (sampleTable snapshot) snapshot :=
  ⟨⟨_, rfl, rfl⟩, .refl _⟩

theorem sampleSnapshot_valid : sampleSnapshot.Valid where
  snapshotId := sampleId_sha (by decide)
  eventKeys := by
    have hne : sampleId 'a' ≠ sampleId 'b' := by
      intro h
      have := String.ofList_inj.1 h
      exact absurd this (by decide)
    simp [sampleSnapshot, sampleItem, hne]
  eventKey := by
    intro item hitem
    simp only [sampleSnapshot, List.mem_cons, List.not_mem_nil, or_false] at hitem
    rcases hitem with rfl | rfl
    · exact sampleId_sha (by decide)
    · exact sampleId_sha (by decide)
  times := by
    intro item hitem
    simp only [sampleSnapshot, List.mem_cons, List.not_mem_nil, or_false] at hitem
    rcases hitem with rfl | rfl
    · exact ⟨isoDate ++ '+' :: isoMinutes, by decide, by decide⟩
    · exact ⟨isoDate ++ isoFraction ++ '+' :: isoMinutes, by decide, by decide⟩

/-- **The item that was published half a second later is lost**, or stands in
    another place. -/
theorem fraction_lost : ¬ PagesEqual sampleSnapshot (sampleTable sampleSnapshot) .all 1 1 := by
  rw [pagesEqual_iff_order sampleSnapshot_valid (sampleTable_holds _) Nat.one_pos,
    previewItems_eq_iff sampleSnapshot_valid]
  intro hclash
  refine hclash (sampleItem 'a' "2026-01-01T00:00:00+00:00") List.mem_cons_self rfl
    (sampleItem 'b' "2026-01-01T00:00:00.500000+00:00") (List.mem_cons_of_mem _ List.mem_cons_self) rfl ?_
  exact ⟨"2026-01-01T00:00:00".toList, "00:00".toList, "500000+00:00".toList, by decide, .inl (by decide)⟩

/-- The condition for this snapshot. -/
theorem pagesEqual_iff_sample : PagesEqual sampleSnapshot (sampleTable sampleSnapshot) .all 1 1 ↔
    ∀ item ∈ sampleSnapshot.items, item.inMode .all = true → ∀ other ∈ sampleSnapshot.items,
      other.inMode .all = true → ¬ Clash item.sortTime other.sortTime :=
  pagesEqual_iff sampleSnapshot_valid (sampleTable_holds _) Nat.one_pos

end Xauusd.Evidence
