/-
  The canonical encoding of a receipt, in Python (`news_projection.py`) and in
  TypeScript (`news-projection-store.ts`).

  * `PyValue`: a JSON value of Python, `PyValue.toJson` the value that
    JavaScript reads for it;
  * `SameValue`: one JSON value, whatever the order of members, the spelling of
    numbers and the sign of zero;
  * `canonicalReceiptBytes`, `canonicalReceiptValue`: the encoders, with the
    orders that they sort keys in;
  * `receipt_canonical`: **both encoders give the same bytes, which are equal
    exactly for one value**.
-/
import Xauusd.Lib.Binary64
import Xauusd.Lib.Utf8
import Xauusd.Projection.Types

namespace Xauusd.Projection

/-! ## Values of Python -/

inductive PyValue where
  | none
  | bool (b : Bool)
  | int (n : ℤ)
  | float (bits : BitVec 64)
  | str (s : String)
  | list (items : List PyValue)
  | dict (members : List (String × PyValue))

namespace PyValue

@[elab_as_elim]
theorem induct {P : PyValue → Prop} (none : P none) (bool : ∀ b, P (bool b)) (int : ∀ n, P (int n))
    (float : ∀ bits, P (float bits)) (str : ∀ s, P (str s)) (list : ∀ items, (∀ v ∈ items, P v) → P (list items))
    (dict : ∀ members, (∀ m ∈ members, P m.2) → P (dict members)) (v : PyValue) : P v := by
  refine PyValue.rec (motive_1 := P) (motive_2 := fun items => ∀ v ∈ items, P v)
    (motive_3 := fun members => ∀ m ∈ members, P m.2) (motive_4 := fun m => P m.2)
    none bool int float str list dict ?_ ?_ ?_ ?_ ?_ v
  · intro v hv
    cases hv
  · intro v items hv hitems
    exact List.forall_mem_cons.2 ⟨hv, hitems⟩
  · intro m hm
    cases hm
  · intro m members hm hmembers
    exact List.forall_mem_cons.2 ⟨hm, hmembers⟩
  · intro key v hv
    exact hv

/-- The number that a value is. -/
def number : PyValue → Option ℚ
  | int n => some n
  | float bits => some (Binary64.value bits)
  | _ => Option.none

mutual

/-- Finite doubles, whole numbers that a double holds, and different keys. -/
def valid : PyValue → Bool
  | int n => decide (n.natAbs ≤ 9007199254740991)
  | float bits => Json.isFinite bits
  | list items => validItems items
  | dict members => (members.map (·.1)).Nodup && validMembers members
  | _ => true

def validItems : List PyValue → Bool
  | [] => true
  | v :: items => v.valid && validItems items

def validMembers : List (String × PyValue) → Bool
  | [] => true
  | (_, v) :: members => v.valid && validMembers members

end

mutual

/-- The value that JavaScript reads. -/
def toJson : PyValue → Json
  | none => .null
  | bool b => .bool b
  | int n => .num (Binary64.ofInt n)
  | float bits => .num bits
  | str s => .str s
  | list items => .arr (toItems items)
  | dict members => .obj (toMembers members)

def toItems : List PyValue → List Json
  | [] => []
  | v :: items => v.toJson :: toItems items

def toMembers : List (String × PyValue) → List (String × Json)
  | [] => []
  | (k, v) :: members => (k, v.toJson) :: toMembers members

end

end PyValue

/-- One JSON value: the order of members, the spelling of a number and the sign
    of zero aside. -/
inductive SameValue : PyValue → PyValue → Prop
  | none : SameValue .none .none
  | bool (b : Bool) : SameValue (.bool b) (.bool b)
  | number {v w : PyValue} {q : ℚ} (hv : v.number = some q) (hw : w.number = some q) : SameValue v w
  | str (s : String) : SameValue (.str s) (.str s)
  | list {items items' : List PyValue} (h : List.Forall₂ SameValue items items') :
      SameValue (.list items) (.list items')
  | dict {members arranged members' : List (String × PyValue)} (horder : arranged.Perm members')
      (hkeys : members.map (·.1) = arranged.map (·.1))
      (hvalues : List.Forall₂ SameValue (members.map (·.2)) (arranged.map (·.2))) :
      SameValue (.dict members) (.dict members')

/-! ## The encoder of Python -/

/-- `b"d" + struct.pack(">d", number).hex().encode("ascii") + b";"` -/
def receiptNumber (bits : BitVec 64) : List ℕ :=
  Utf8.encode ('d' :: Text.hexDigits 16 (if Json.isZero bits then 0 else bits.toNat) ++ [';'])

def receiptStr (s : String) : List ℕ :=
  let encoded := Utf8.encode s.toList
  Utf8.encode ('s' :: Nat.toDigits 10 encoded.length ++ [':']) ++ encoded ++ Utf8.encode [';']

/-- `sorted(…, key=lambda key: key.encode("utf-8"))` -/
def sortedByBytes {β : Type*} (members : List (String × β)) : List (String × β) :=
  members.insertionSort fun m m' => Utf8.encode m.1.toList ≤ Utf8.encode m'.1.toList

mutual

/-- `canonical_receipt_bytes`, none when it raises. -/
def canonicalReceiptBytes : PyValue → Option (List ℕ)
  | .none => some (Utf8.encode ['n', ';'])
  | .bool b => some (Utf8.encode [if b then 't' else 'f', ';'])
  | .int n => if 9007199254740991 < n.natAbs then none else some (receiptNumber (Binary64.ofInt n))
  | .float bits => if Json.isFinite bits then some (receiptNumber bits) else none
  | .str s => some (receiptStr s)
  | .list items => (receiptItems items).map fun body =>
      Utf8.encode ('a' :: Nat.toDigits 10 items.length ++ [':']) ++ body ++ Utf8.encode [';']
  | .dict members => (receiptMembers members).map fun encoded =>
      Utf8.encode ('o' :: Nat.toDigits 10 members.length ++ [':'])
        ++ (sortedByBytes encoded).flatMap (fun m => receiptStr m.1 ++ m.2) ++ Utf8.encode [';']

def receiptItems : List PyValue → Option (List ℕ)
  | [] => some []
  | v :: items => (canonicalReceiptBytes v).bind fun bytes => (receiptItems items).map fun body => bytes ++ body

def receiptMembers : List (String × PyValue) → Option (List (String × List ℕ))
  | [] => some []
  | (k, v) :: members => (canonicalReceiptBytes v).bind fun bytes =>
      (receiptMembers members).map fun encoded => (k, bytes) :: encoded

end

/-- `receipt_payload_hash` -/
def receiptPayloadHash (v : PyValue) : Option String := (canonicalReceiptBytes v).map sha256Bytes

/-! ## The encoder of TypeScript -/

/-- The loop of `utf8Compare`. -/
def compareBytes : List ℕ → List ℕ → ℤ
  | a :: left, b :: right => if a ≠ b then (a : ℤ) - b else compareBytes left right
  | left, right => (left.length : ℤ) - right.length

def utf8Compare (left right : String) : ℤ := compareBytes (Utf8.encode left.toList) (Utf8.encode right.toList)

/-- `Object.keys(row).sort(utf8Compare)` -/
def sortedByCompare {β : Type*} (members : List (String × β)) : List (String × β) :=
  members.insertionSort fun m m' => utf8Compare m.1 m'.1 ≤ 0

mutual

/-- `canonicalReceiptValue`, none when it throws. -/
def canonicalReceiptValue : Json → Option (List Char)
  | .null => some ['n', ';']
  | .bool b => some [if b then 't' else 'f', ';']
  | .num bits =>
    if Json.isFinite bits then some ('d' :: Text.hexDigits 16 (if Json.isZero bits then 0 else bits.toNat) ++ [';'])
    else none
  | .str s => some ('s' :: Nat.toDigits 10 (Utf8.encode s.toList).length ++ ':' :: s.toList ++ [';'])
  | .arr items => (canonicalReceiptItems items).map fun body =>
      'a' :: Nat.toDigits 10 items.length ++ ':' :: body ++ [';']
  | .obj members => (canonicalReceiptMembers members).map fun encoded =>
      'o' :: Nat.toDigits 10 members.length ++ ':' :: (sortedByCompare encoded).flatMap (fun m =>
        's' :: Nat.toDigits 10 (Utf8.encode m.1.toList).length ++ ':' :: m.1.toList ++ [';'] ++ m.2) ++ [';']

def canonicalReceiptItems : List Json → Option (List Char)
  | [] => some []
  | j :: items => (canonicalReceiptValue j).bind fun text => (canonicalReceiptItems items).map fun body => text ++ body

def canonicalReceiptMembers : List (String × Json) → Option (List (String × List Char))
  | [] => some []
  | (k, j) :: members => (canonicalReceiptValue j).bind fun text =>
      (canonicalReceiptMembers members).map fun encoded => (k, text) :: encoded

end

/-- `jsonValuesEqual`: `===` on the leaves, items in order, members by name. -/
def jsonValuesEqual (left right : Json) : Bool := left.same right

/-! ## The orders of keys -/

theorem insertionSort_congr {α : Type*} {r r' : α → α → Prop} [DecidableRel r] [DecidableRel r']
    (h : ∀ a b, r a b ↔ r' a b) (l : List α) : l.insertionSort r = l.insertionSort r' := by
  obtain rfl : r = r' := funext fun a => funext fun b => propext (h a b)
  congr!

theorem compareBytes_pos {l r : List ℕ} : 0 < compareBytes l r ↔ r < l := by
  induction l generalizing r with
  | nil => cases r <;> simp [compareBytes]
  | cons a l ih =>
    cases r with
    | nil => simp [compareBytes]
    | cons b r =>
      rw [compareBytes, List.cons_lt_cons_iff]
      split
      · omega
      · next h =>
        obtain rfl := not_not.1 h
        rw [ih]
        simp

theorem sortedByCompare_eq {β : Type*} (members : List (String × β)) : sortedByCompare members = Json.byKey members := by
  refine insertionSort_congr (fun m m' => ?_) members
  rw [utf8Compare, ← not_lt, compareBytes_pos, not_lt, Utf8.encode_le_iff, String.le_iff_toList_le]

theorem sortedByBytes_eq {β : Type*} (members : List (String × β)) : sortedByBytes members = Json.byKey members := by
  refine insertionSort_congr (fun m m' => ?_) members
  rw [Utf8.encode_le_iff, String.le_iff_toList_le]

/-! ## What TypeScript encodes -/

theorem length_encode (s : List Char) : (Utf8.encode s).length = Json.utf8Length s := Utf8.length_encode s

theorem canonicalReceiptItems_eq {items : List Json}
    (h : ∀ j ∈ items, canonicalReceiptValue j = if j.finite then some j.canonical else none) :
    canonicalReceiptItems items = if Json.finiteItems items then some (Json.canonicalItems items) else none := by
  induction items with
  | nil => rfl
  | cons j items ih =>
    rw [canonicalReceiptItems, h j List.mem_cons_self, ih fun j hj => h j (List.mem_cons_of_mem _ hj), Json.finiteItems]
    cases j.finite <;> cases Json.finiteItems items <;> simp [Json.canonicalItems]

theorem canonicalReceiptMembers_eq {members : List (String × Json)}
    (h : ∀ m ∈ members, canonicalReceiptValue m.2 = if m.2.finite then some m.2.canonical else none) :
    canonicalReceiptMembers members =
      if Json.finiteMembers members then some (Json.canonicalMembers members) else none := by
  induction members with
  | nil => rfl
  | cons m members ih =>
    obtain ⟨k, j⟩ := m
    have hj := h (k, j) List.mem_cons_self
    rw [canonicalReceiptMembers, hj, ih fun m hm => h m (List.mem_cons_of_mem _ hm), Json.finiteMembers]
    cases j.finite <;> cases Json.finiteMembers members <;> simp [Json.canonicalMembers]

/-- TypeScript encodes every value whose numbers are finite. -/
theorem canonicalReceiptValue_eq (j : Json) :
    canonicalReceiptValue j = if j.finite then some j.canonical else none := by
  induction j using Json.induct with
  | null => rfl
  | bool b => rfl
  | num bits =>
    rw [canonicalReceiptValue, Json.finite]
    rfl
  | str s =>
    rw [canonicalReceiptValue, length_encode]
    rfl
  | arr items ih =>
    rw [canonicalReceiptValue, canonicalReceiptItems_eq ih, Json.finite]
    split
    · rfl
    · rfl
  | obj members ih =>
    rw [canonicalReceiptValue, canonicalReceiptMembers_eq ih, Json.finite]
    split
    · rw [Option.map_some, sortedByCompare_eq]
      simp only [length_encode]
      rfl
    · rfl

/-! ## What Python encodes -/

namespace PyValue

theorem validItems_iff {items : List PyValue} : validItems items = true ↔ ∀ v ∈ items, v.valid = true := by
  induction items with
  | nil => simp [validItems]
  | cons v items ih => simp [validItems, ih]

theorem validMembers_iff {members : List (String × PyValue)} :
    validMembers members = true ↔ ∀ m ∈ members, m.2.valid = true := by
  induction members with
  | nil => simp [validMembers]
  | cons m members ih => simp [validMembers, ih]

theorem toItems_eq (items : List PyValue) : toItems items = items.map toJson := by
  induction items with
  | nil => rfl
  | cons v items ih => rw [toItems, ih, List.map_cons]

theorem toMembers_eq (members : List (String × PyValue)) : toMembers members = members.map fun m => (m.1, m.2.toJson) := by
  induction members with
  | nil => rfl
  | cons m members ih => rw [toMembers, ih, List.map_cons]

/-- JavaScript reads a valid value as a well-formed one, its numbers finite. -/
theorem wf_toJson {v : PyValue} (h : v.valid = true) : v.toJson.WF = true ∧ v.toJson.finite = true := by
  induction v using induct with
  | int n =>
    rw [valid, decide_eq_true_eq] at h
    exact ⟨rfl, Binary64.isFinite_ofInt (by omega)⟩
  | float bits => exact ⟨rfl, h⟩
  | list items ih =>
    rw [valid, validItems_iff] at h
    rw [toJson, Json.WF, Json.finite, Json.wfItems_iff, Json.finiteItems_iff, toItems_eq]
    constructor
    · rintro j hj
      obtain ⟨v, hv, rfl⟩ := List.mem_map.1 hj
      exact (ih v hv (h v hv)).1
    · rintro j hj
      obtain ⟨v, hv, rfl⟩ := List.mem_map.1 hj
      exact (ih v hv (h v hv)).2
  | dict members ih =>
    rw [valid, Bool.and_eq_true, decide_eq_true_eq, validMembers_iff] at h
    rw [toJson, Json.wf_obj, Json.finite, Json.finiteMembers_iff, toMembers_eq, List.map_map]
    refine ⟨⟨h.1, fun m hm => ?_⟩, fun m hm => ?_⟩
    · obtain ⟨m₀, hm₀, rfl⟩ := List.mem_map.1 hm
      exact (ih m₀ hm₀ (h.2 m₀ hm₀)).1
    · obtain ⟨m₀, hm₀, rfl⟩ := List.mem_map.1 hm
      exact (ih m₀ hm₀ (h.2 m₀ hm₀)).2
  | _ => exact ⟨rfl, rfl⟩

end PyValue

theorem encode_framed (tag : Char) (n : ℕ) (body : List Char) :
    Utf8.encode (Json.framed tag n body) =
      Utf8.encode (tag :: Nat.toDigits 10 n ++ [':']) ++ Utf8.encode body ++ Utf8.encode [';'] := by
  rw [Json.framed, ← Utf8.encode_append, ← Utf8.encode_append]
  congr 1
  simp

theorem receiptStr_eq (s : String) : receiptStr s = Utf8.encode (Json.canonicalStr s) := by
  rw [receiptStr, Json.canonicalStr, encode_framed, length_encode]

theorem receiptItems_eq {items : List PyValue}
    (h : ∀ v ∈ items, canonicalReceiptBytes v = some (Utf8.encode v.toJson.canonical)) :
    receiptItems items = some (Utf8.encode (Json.canonicalItems (PyValue.toItems items))) := by
  induction items with
  | nil => rfl
  | cons v items ih =>
    rw [receiptItems, h v List.mem_cons_self, ih fun v hv => h v (List.mem_cons_of_mem _ hv), PyValue.toItems,
      Json.canonicalItems, Utf8.encode_append]
    rfl

theorem receiptMembers_eq {members : List (String × PyValue)}
    (h : ∀ m ∈ members, canonicalReceiptBytes m.2 = some (Utf8.encode m.2.toJson.canonical)) :
    receiptMembers members =
      some ((Json.canonicalMembers (PyValue.toMembers members)).map fun m => (m.1, Utf8.encode m.2)) := by
  induction members with
  | nil => rfl
  | cons m members ih =>
    obtain ⟨k, v⟩ := m
    have hv := h (k, v) List.mem_cons_self
    rw [receiptMembers, hv, ih fun m hm => h m (List.mem_cons_of_mem _ hm), PyValue.toMembers,
      Json.canonicalMembers]
    rfl

/-- **Python encodes every valid value**, as the bytes of the canonical text. -/
theorem canonicalReceiptBytes_eq {v : PyValue} (h : v.valid = true) :
    canonicalReceiptBytes v = some (Utf8.encode v.toJson.canonical) := by
  induction v using PyValue.induct with
  | none => rfl
  | bool b => rfl
  | int n =>
    rw [PyValue.valid, decide_eq_true_eq] at h
    rw [canonicalReceiptBytes, if_neg (by omega)]
    rfl
  | float bits =>
    rw [canonicalReceiptBytes, if_pos (show Json.isFinite bits = true from h)]
    rfl
  | str s =>
    rw [canonicalReceiptBytes, receiptStr_eq]
    rfl
  | list items ih =>
    rw [PyValue.valid, PyValue.validItems_iff] at h
    rw [canonicalReceiptBytes, receiptItems_eq fun v hv => ih v hv (h v hv), Option.map_some, PyValue.toJson,
      Json.canonical, encode_framed, PyValue.toItems_eq, List.length_map]
  | dict members ih =>
    rw [PyValue.valid, Bool.and_eq_true, PyValue.validMembers_iff] at h
    rw [canonicalReceiptBytes, receiptMembers_eq fun m hm => ih m hm (h.2 m hm), Option.map_some, sortedByBytes_eq,
      Json.byKey_map, List.flatMap_map, PyValue.toJson, Json.canonical, encode_framed, Utf8.encode_flatMap,
      PyValue.toMembers_eq, List.length_map]
    simp only [receiptStr_eq, Utf8.encode_append]

/-! ## One value -/

theorem forall₂_of_mem {α β : Type*} {R S : α → β → Prop} {l : List α} {l' : List β} (h : List.Forall₂ R l l')
    (hS : ∀ a ∈ l, ∀ b ∈ l', R a b → S a b) : List.Forall₂ S l l' := by
  induction h with
  | nil => exact .nil
  | cons hab _ ih =>
    refine .cons (hS _ List.mem_cons_self _ List.mem_cons_self hab) (ih fun a ha b hb => ?_)
    exact hS a (List.mem_cons_of_mem _ ha) b (List.mem_cons_of_mem _ hb)

/-- JavaScript reads a number as bits that stand for it. -/
theorem toJson_number {v : PyValue} {q : ℚ} (hv : v.valid = true) (h : v.number = some q) :
    ∃ bits, v.toJson = .num bits ∧ Binary64.value bits = q := by
  cases v with
  | int n =>
    rw [PyValue.valid, decide_eq_true_eq] at hv
    cases h
    exact ⟨_, rfl, Binary64.value_ofInt (by omega)⟩
  | float bits =>
    cases h
    exact ⟨_, rfl, rfl⟩
  | _ => cases h

theorem number_toJson {v : PyValue} {bits : BitVec 64} (hv : v.valid = true) (h : v.toJson = .num bits) :
    v.number = some (Binary64.value bits) := by
  cases v with
  | int n =>
    rw [PyValue.valid, decide_eq_true_eq] at hv
    cases h
    rw [Binary64.value_ofInt (by omega)]
    rfl
  | float bits =>
    cases h
    rfl
  | _ => cases h

/-- One value has one reading, up to the order of members and the sign of zero. -/
theorem same_of_sameValue {v w : PyValue} (hv : v.valid = true) (hw : w.valid = true) (h : SameValue v w) :
    v.toJson.same w.toJson = true := by
  have hnumber : ∀ {v w : PyValue} {q : ℚ}, v.valid = true → w.valid = true → v.number = some q → w.number = some q →
      v.toJson.same w.toJson = true := by
    intro v w q hv hw hvq hwq
    obtain ⟨bits, hbits, rfl⟩ := toJson_number hv hvq
    obtain ⟨bits', hbits', hvalue⟩ := toJson_number hw hwq
    rw [hbits, hbits']
    simpa [Json.same] using Binary64.value_inj.1 hvalue.symm
  induction v using PyValue.induct generalizing w with
  | none =>
    cases h with
    | none => rfl
    | number hvq hwq => exact hnumber hv hw hvq hwq
  | bool b =>
    cases h with
    | bool => simp [PyValue.toJson, Json.same]
    | number hvq hwq => exact hnumber hv hw hvq hwq
  | int n =>
    cases h with
    | number hvq hwq => exact hnumber hv hw hvq hwq
  | float bits =>
    cases h with
    | number hvq hwq => exact hnumber hv hw hvq hwq
  | str s =>
    cases h with
    | str => simp [PyValue.toJson, Json.same]
    | number hvq hwq => exact hnumber hv hw hvq hwq
  | list items ih =>
    cases h with
    | list h =>
      rw [PyValue.valid, PyValue.validItems_iff] at hv hw
      simp only [PyValue.toJson, Json.same, PyValue.toItems_eq]
      rw [Json.sameItems_iff, List.forall₂_map_left_iff, List.forall₂_map_right_iff]
      exact forall₂_of_mem h fun v hmem w hmem' hsame => ih v hmem (hv v hmem) (hw w hmem') hsame
    | number hvq hwq => exact hnumber hv hw hvq hwq
  | dict members ih =>
    cases h with
    | @dict _ arranged members' horder hkeys hvalues =>
      rw [PyValue.valid, Bool.and_eq_true, decide_eq_true_eq, PyValue.validMembers_iff] at hv hw
      simp only [PyValue.toJson, Json.same, PyValue.toMembers_eq, List.length_map, Bool.and_eq_true, decide_eq_true_eq,
        Json.sameMembers_iff]
      have hlength := congrArg List.length hkeys
      rw [List.length_map, List.length_map] at hlength
      refine ⟨hlength.trans horder.length_eq, fun m hm => ?_⟩
      obtain ⟨m₀, hm₀, rfl⟩ := List.mem_map.1 hm
      obtain ⟨i, hi, rfl⟩ := List.getElem_of_mem hm₀
      have hi' : i < arranged.length := hlength ▸ hi
      have hkey : members[i].1 = arranged[i].1 := by
        have := List.getElem_of_eq hkeys (i := i) (by simpa using hi)
        simpa using this
      have hvalue : SameValue members[i].2 arranged[i].2 := by
        have := (List.forall₂_iff_get.1 hvalues).2 i (by simpa using hi) (by simpa using hi')
        simpa using this
      have hmem : arranged[i] ∈ members' := horder.mem_iff.1 (List.getElem_mem hi')
      refine ⟨arranged[i].2.toJson, ?_, ih _ (List.getElem_mem hi) (hv.2 _ (List.getElem_mem hi)) (hw.2 _ hmem) hvalue⟩
      have hkeys' : ((members'.map fun m => (m.1, m.2.toJson)).map (·.1)).Nodup := by
        rw [List.map_map]
        exact hw.1
      rw [hkey]
      exact Json.lookup_of_mem hkeys' (List.mem_map_of_mem hmem)
    | number hvq hwq => exact hnumber hv hw hvq hwq

/-- Values with equal readings are one value. -/
theorem sameValue_of_same {v w : PyValue} (hv : v.valid = true) (hw : w.valid = true)
    (h : v.toJson.same w.toJson = true) : SameValue v w := by
  have hnumber : ∀ {v w : PyValue} {bits : BitVec 64}, v.valid = true → w.valid = true → v.toJson = .num bits →
      v.toJson.same w.toJson = true → SameValue v w := by
    intro v w bits hv hw hbits h
    rw [hbits] at h
    cases hbits' : w.toJson with
    | num bits' =>
      rw [hbits'] at h
      have hvalue : Binary64.value bits = Binary64.value bits' := Binary64.value_inj.2 (by simpa [Json.same] using h)
      exact .number (number_toJson hv hbits) (hvalue ▸ number_toJson hw hbits')
    | _ => simp [hbits', Json.same] at h
  induction v using PyValue.induct generalizing w with
  | none =>
    cases w with
    | none => exact .none
    | _ => simp [PyValue.toJson, Json.same] at h
  | bool b =>
    cases w with
    | bool b' =>
      simp only [PyValue.toJson, Json.same, decide_eq_true_eq] at h
      exact h ▸ .bool b
    | _ => simp [PyValue.toJson, Json.same] at h
  | int n => exact hnumber hv hw rfl h
  | float bits => exact hnumber hv hw rfl h
  | str s =>
    cases w with
    | str s' =>
      simp only [PyValue.toJson, Json.same, decide_eq_true_eq] at h
      exact h ▸ .str s
    | _ => simp [PyValue.toJson, Json.same] at h
  | list items ih =>
    cases w with
    | list items' =>
      rw [PyValue.valid, PyValue.validItems_iff] at hv hw
      simp only [PyValue.toJson, Json.same, PyValue.toItems_eq] at h
      rw [Json.sameItems_iff, List.forall₂_map_left_iff, List.forall₂_map_right_iff] at h
      exact .list (forall₂_of_mem h fun v hmem w hmem' hsame => ih v hmem (hv v hmem) (hw w hmem') hsame)
    | _ => simp [PyValue.toJson, Json.same] at h
  | dict members ih =>
    cases w with
    | dict members' =>
      rw [PyValue.valid, Bool.and_eq_true, decide_eq_true_eq, PyValue.validMembers_iff] at hv hw
      simp only [PyValue.toJson, Json.same, PyValue.toMembers_eq, List.length_map, Bool.and_eq_true, decide_eq_true_eq,
        Json.sameMembers_iff] at h
      have hmember : ∀ m ∈ members, ∃ m', m' ∈ members' ∧ m.1 = m'.1 ∧ SameValue m.2 m'.2 := by
        intro m hm
        obtain ⟨j, hj, hsame⟩ := h.2 _ (List.mem_map_of_mem hm)
        obtain ⟨m', hm', heq⟩ := List.mem_map.1 (Json.mem_of_lookup hj)
        obtain ⟨hkey, rfl⟩ := Prod.mk.inj heq
        exact ⟨m', hm', hkey.symm, ih m hm (hv.2 m hm) (hw.2 m' hm') hsame⟩
      have harranged : ∀ l : List (String × PyValue), (∀ m ∈ l, m ∈ members) → ∃ arranged : List (String × PyValue),
          (∀ m' ∈ arranged, m' ∈ members') ∧ l.map (·.1) = arranged.map (·.1) ∧
            List.Forall₂ SameValue (l.map (·.2)) (arranged.map (·.2)) := by
        intro l
        induction l with
        | nil => exact fun _ => ⟨[], fun _ hm => absurd hm List.not_mem_nil, rfl, .nil⟩
        | cons m l ihl =>
          intro hl
          obtain ⟨m', hm', hkey, hsame⟩ := hmember m (hl m List.mem_cons_self)
          obtain ⟨arranged, hsub, hkeys, hvalues⟩ := ihl fun m hm => hl m (List.mem_cons_of_mem _ hm)
          refine ⟨m' :: arranged, List.forall_mem_cons.2 ⟨hm', hsub⟩, ?_, .cons hsame hvalues⟩
          rw [List.map_cons, List.map_cons, hkey, hkeys]
      obtain ⟨arranged, hsub, hkeys, hvalues⟩ := harranged members fun _ hm => hm
      have hnodup : arranged.Nodup := List.Nodup.of_map _ (hkeys ▸ hv.1)
      have hlength := congrArg List.length hkeys
      rw [List.length_map, List.length_map] at hlength
      exact .dict ((List.subperm_of_subset hnodup hsub).perm_of_length_le (by omega)) hkeys hvalues
    | _ => simp [PyValue.toJson, Json.same] at h

/-! ## The encodings -/

/-- **Both encoders give the same bytes, which are equal exactly for one
    value**: for the values that `jsonValuesEqual` holds equal, and where the
    digests of the two do not collide, for those whose digests are equal. -/
theorem receipt_canonical {v w : PyValue} (hv : v.valid = true) (hw : w.valid = true) :
    ∃ bytes bytes', canonicalReceiptBytes v = some bytes ∧ canonicalReceiptBytes w = some bytes' ∧
      (bytes = bytes' ↔ SameValue v w) ∧
      (canonicalReceiptValue v.toJson).map Utf8.encode = some bytes ∧
      (jsonValuesEqual v.toJson w.toJson = true ↔ bytes = bytes') ∧
      receiptPayloadHash v = newsProjectionPayloadHash v.toJson ∧
      ((sha256Bytes bytes = sha256Bytes bytes' → bytes = bytes') →
        receiptPayloadHash v = receiptPayloadHash w → SameValue v w) := by
  obtain ⟨hwf, hfinite⟩ := PyValue.wf_toJson hv
  obtain ⟨hwf', -⟩ := PyValue.wf_toJson hw
  have hbytes : Utf8.encode v.toJson.canonical = Utf8.encode w.toJson.canonical ↔ v.toJson.same w.toJson = true := by
    rw [Utf8.encode_injective.eq_iff, Json.same_iff hwf hwf']
  have hsame : Utf8.encode v.toJson.canonical = Utf8.encode w.toJson.canonical ↔ SameValue v w :=
    hbytes.trans ⟨sameValue_of_same hv hw, same_of_sameValue hv hw⟩
  refine ⟨_, _, canonicalReceiptBytes_eq hv, canonicalReceiptBytes_eq hw, hsame, ?_, hbytes.symm, ?_, fun hinj h => ?_⟩
  · rw [canonicalReceiptValue_eq, if_pos hfinite]
    rfl
  · rw [receiptPayloadHash, canonicalReceiptBytes_eq hv, newsProjectionPayloadHash, if_pos hfinite, sha256_eq,
      String.toList_ofList]
    rfl
  · rw [receiptPayloadHash, receiptPayloadHash, canonicalReceiptBytes_eq hv, canonicalReceiptBytes_eq hw] at h
    exact hsame.1 (hinj (Option.some.inj h))

/-- Two spellings of one object. -/
theorem receipt_canonical_sample :
    SameValue (.dict [("b", .int 1), ("a", .float 0)]) (.dict [("a", .float 0x8000000000000000), ("b", .int 1)]) := by
  have hv : (PyValue.dict [("b", .int 1), ("a", .float 0)]).valid = true := by decide
  have hw : (PyValue.dict [("a", .float 0x8000000000000000), ("b", .int 1)]).valid = true := by decide
  obtain ⟨bytes, bytes', -, -, hsame, -, hequal, -⟩ := receipt_canonical hv hw
  exact hsame.1 (hequal.1 (by decide))

end Xauusd.Projection
