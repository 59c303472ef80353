/-
  JSON values as Python reads them, and the text that `json.dumps` writes.

  A string is a list of code points. A JSON text can name a surrogate without
  its other half, and no such string has a UTF-8 encoding.

  * `PyStr.encode`: the encoding, none when it raises;
  * `PyJson.first`, `item`, `get`: subscripts, with the class of the error they
    raise on a value of another shape;
  * `PyJson.dumps`: the compact text with sorted keys;
  * `wellFormed_dumps`: **the text of a value can be encoded if and only if all
    strings of the value can**.
-/
import Xauusd.Lib.Json
import Xauusd.Lib.JsonText
import Xauusd.Lib.Sha256

inductive CodePoint where
  | char (c : Char)
  | surrogate (n : Fin 2048)
  deriving DecidableEq, Repr

namespace CodePoint

def toNat : CodePoint → ℕ
  | char c => c.toNat
  | surrogate n => 0xD800 + n

def isChar : CodePoint → Bool
  | char _ => true
  | surrogate _ => false

end CodePoint

abbrev PyStr := List CodePoint

namespace PyStr

def ofChars (s : List Char) : PyStr := s.map .char

def of (s : String) : PyStr := ofChars s.toList

/-- `encode("utf-8")`, none when it raises. -/
def encode : PyStr → Option (List ℕ)
  | [] => some []
  | .char c :: s => (encode s).map (Sha256.utf8 c ++ ·)
  | .surrogate _ :: _ => none

def wellFormed (s : PyStr) : Bool := s.all CodePoint.isChar

def isSpace : CodePoint → Bool
  | .char c => Text.isSpace c
  | .surrogate _ => false

def strip (s : PyStr) : PyStr := ((s.dropWhile isSpace).reverse.dropWhile isSpace).reverse

theorem encode_isSome (s : PyStr) : (encode s).isSome = wellFormed s := by
  induction s with
  | nil => rfl
  | cons c s ih =>
    cases c with
    | char c => simpa [encode, wellFormed, CodePoint.isChar] using ih
    | surrogate n => rfl

@[simp] theorem wellFormed_ofChars (s : List Char) : wellFormed (ofChars s) = true := by
  simp [wellFormed, ofChars, CodePoint.isChar]

@[simp] theorem wellFormed_append (s t : PyStr) :
    wellFormed (s ++ t) = (wellFormed s && wellFormed t) := List.all_append

/-- Texts with commas between them. -/
def commas : List PyStr → PyStr
  | [] => []
  | [t] => t
  | t :: u :: l => t ++ .char ',' :: commas (u :: l)

theorem wellFormed_commas (l : List PyStr) : wellFormed (commas l) = l.all wellFormed := by
  induction l with
  | nil => rfl
  | cons t l ih =>
    cases l with
    | nil => simp [commas]
    | cons u l =>
      rw [commas, wellFormed_append, List.all_cons, ← ih]
      rfl

/-- A string of a JSON text. -/
def quote (s : PyStr) : PyStr :=
  .char '"' :: s.flatMap (fun
    | .char c => ofChars (JsonText.escape c)
    | .surrogate n => [.surrogate n]) ++ [.char '"']

theorem wellFormed_quote (s : PyStr) : wellFormed (quote s) = wellFormed s := by
  induction s with
  | nil => rfl
  | cons c s ih =>
    cases c with
    | char c =>
      have hc := wellFormed_ofChars (JsonText.escape c)
      simp only [quote, wellFormed, List.flatMap_cons, List.all_append, List.all_cons,
        CodePoint.isChar, Bool.true_and] at ih hc ⊢
      rw [hc, Bool.true_and, ih]
    | surrogate n => simp [quote, wellFormed, CodePoint.isChar]

/-- Order of texts by their code points, as `sorted` compares them. -/
def le (s t : PyStr) : Prop := s.map CodePoint.toNat ≤ t.map CodePoint.toNat

instance lawfulBEq : LawfulBEq PyStr := inferInstance

instance : DecidableRel le := fun s t => inferInstanceAs (Decidable (s.map CodePoint.toNat ≤ t.map CodePoint.toNat))

end PyStr

inductive PyJson where
  | none
  | bool (b : Bool)
  | int (n : ℤ)
  | float (bits : BitVec 64)
  | str (s : PyStr)
  | list (items : List PyJson)
  | dict (members : List (PyStr × PyJson))
  deriving Repr

namespace PyJson

/-- Induction on the nesting: a list of items, or of members, all of which the
    property holds of. -/
@[elab_as_elim]
theorem induct {P : PyJson → Prop} (none : P none) (bool : ∀ b, P (bool b)) (int : ∀ n, P (int n))
    (float : ∀ bits, P (float bits)) (str : ∀ s, P (str s))
    (list : ∀ items, (∀ v ∈ items, P v) → P (list items))
    (dict : ∀ members, (∀ m ∈ members, P m.2) → P (dict members)) (v : PyJson) : P v := by
  refine PyJson.rec (motive_1 := P) (motive_2 := fun items => ∀ v ∈ items, P v)
    (motive_3 := fun members => ∀ m ∈ members, P m.2) (motive_4 := fun m => P m.2)
    none bool int float str list dict ?_ ?_ ?_ ?_ ?_ v
  · intro v hv
    cases hv
  · intro v items hv hitems
    exact List.forall_mem_cons.2 ⟨hv, hitems⟩
  · intro m hm
    cases hm
  · intro m members hm hmembers
    exact List.forall_mem_cons.2 ⟨hm, hmembers⟩
  · intro key v hv
    exact hv

/-- `bool(value)` -/
def truthy : PyJson → Bool
  | none => false
  | bool b => b
  | int n => n ≠ 0
  | float bits => !Json.isZero bits
  | str s => s ≠ []
  | list items => !items.isEmpty
  | dict members => !members.isEmpty

/-- `value[0]`, or the class of its error. -/
def first : PyJson → Except String PyJson
  | list (v :: _) => .ok v
  | list [] => .error "IndexError"
  | str (c :: _) => .ok (str [c])
  | str [] => .error "IndexError"
  | dict _ => .error "KeyError"
  | _ => .error "TypeError"

/-- `value[key]`, or the class of its error. -/
def item (key : String) : PyJson → Except String PyJson
  | dict members => match members.lookup (PyStr.of key) with
    | some v => .ok v
    | .none => .error "KeyError"
  | _ => .error "TypeError"

/-- `value.get(key)`, or the class of its error. -/
def get (key : String) : PyJson → Except String (Option PyJson)
  | dict members => .ok (members.lookup (PyStr.of key))
  | _ => .error "AttributeError"

/-! ## Texts -/

mutual

/-- `json.dumps(value, ensure_ascii=False, sort_keys=True, separators=(",", ":"))`,
    where `floatText` writes a float. -/
def dumps (floatText : BitVec 64 → List Char) : PyJson → PyStr
  | none => PyStr.of "null"
  | bool b => PyStr.of (if b then "true" else "false")
  | int n => PyStr.of (toString n)
  | float bits => PyStr.ofChars (floatText bits)
  | str s => PyStr.quote s
  | list items => .char '[' :: PyStr.commas (dumpsItems floatText items) ++ [.char ']']
  | dict members =>
    let texts := (dumpsMembers floatText members).insertionSort fun m m' => PyStr.le m.1 m'.1
    .char '{' :: PyStr.commas (texts.map fun m => PyStr.quote m.1 ++ .char ':' :: m.2) ++ [.char '}']

def dumpsItems (floatText : BitVec 64 → List Char) : List PyJson → List PyStr
  | [] => []
  | v :: items => dumps floatText v :: dumpsItems floatText items

def dumpsMembers (floatText : BitVec 64 → List Char) : List (PyStr × PyJson) → List (PyStr × PyStr)
  | [] => []
  | (key, v) :: members => (key, dumps floatText v) :: dumpsMembers floatText members

end

mutual

/-- No string of the value has a lone surrogate. -/
def wellFormed : PyJson → Bool
  | str s => PyStr.wellFormed s
  | list items => wellFormedItems items
  | dict members => wellFormedMembers members
  | _ => true

def wellFormedItems : List PyJson → Bool
  | [] => true
  | v :: items => wellFormed v && wellFormedItems items

def wellFormedMembers : List (PyStr × PyJson) → Bool
  | [] => true
  | (key, v) :: members => PyStr.wellFormed key && wellFormed v && wellFormedMembers members

end

variable {floatText : BitVec 64 → List Char}

theorem wellFormed_dumpsItems {items : List PyJson}
    (h : ∀ v ∈ items, PyStr.wellFormed (dumps floatText v) = wellFormed v) :
    (dumpsItems floatText items).all PyStr.wellFormed = wellFormedItems items := by
  induction items with
  | nil => rfl
  | cons v items ih =>
    obtain ⟨hv, hitems⟩ := List.forall_mem_cons.1 h
    rw [dumpsItems, wellFormedItems, List.all_cons, hv, ih hitems]

theorem wellFormed_dumpsMembers {members : List (PyStr × PyJson)}
    (h : ∀ m ∈ members, PyStr.wellFormed (dumps floatText m.2) = wellFormed m.2) :
    (dumpsMembers floatText members).all (fun m => PyStr.wellFormed m.1 && PyStr.wellFormed m.2) =
      wellFormedMembers members := by
  induction members with
  | nil => rfl
  | cons m members ih =>
    obtain ⟨hm, hmembers⟩ := List.forall_mem_cons.1 h
    rw [dumpsMembers, wellFormedMembers, List.all_cons, hm, ih hmembers]

/-- A text can be encoded iff the strings of its value can. -/
theorem wellFormed_dumps (v : PyJson) : PyStr.wellFormed (dumps floatText v) = wellFormed v := by
  induction v using induct with
  | none => rfl
  | bool b => simp [dumps, PyStr.of, wellFormed]
  | int n => simp [dumps, PyStr.of, wellFormed]
  | float bits => simp [dumps, wellFormed]
  | str s => exact PyStr.wellFormed_quote s
  | list items ih =>
    rw [dumps, wellFormed, ← wellFormed_dumpsItems ih, ← PyStr.wellFormed_commas]
    simp [PyStr.wellFormed, CodePoint.isChar]
  | dict members ih =>
    rw [dumps, wellFormed, ← wellFormed_dumpsMembers ih]
    have hsorted := List.perm_insertionSort
      (fun m m' : PyStr × PyStr => PyStr.le m.1 m'.1) (dumpsMembers floatText members)
    have hmember (m : PyStr × PyStr) : PyStr.wellFormed (PyStr.quote m.1 ++ .char ':' :: m.2) =
        (PyStr.wellFormed m.1 && PyStr.wellFormed m.2) := by
      rw [PyStr.wellFormed_append, PyStr.wellFormed_quote]
      rfl
    have htexts (l : List (PyStr × PyStr)) :
        PyStr.wellFormed (PyStr.commas (l.map fun m => PyStr.quote m.1 ++ .char ':' :: m.2)) =
          l.all fun m => PyStr.wellFormed m.1 && PyStr.wellFormed m.2 := by
      rw [PyStr.wellFormed_commas, List.all_map]
      exact congrArg l.all (funext hmember)
    rw [← hsorted.all_eq, ← htexts]
    simp [PyStr.wellFormed, CodePoint.isChar]

end PyJson
