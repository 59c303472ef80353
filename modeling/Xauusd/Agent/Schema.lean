/-
  The values that the Assistant's tools take and return (`assistant/tools.py`).

  * `Python`: what the standard library computes of texts;
  * `Schema`: what `_validate_schema_definition` accepts, with its JSON and its
    remaining checks;
  * `validateJsonValue`: `_validate_json_value`, with `validateItems_ok` and
    `validateMembers_ok` for what it accepts of a list and of an object.

  The texts of a rejected value are left out, as every caller drops them.
-/
import Xauusd.Lib.Binary64
import Xauusd.Lib.PyCompact
import Xauusd.Lib.Raises
import Xauusd.Routing.Plan

namespace PyStr

/-- The text of a string without a lone surrogate. -/
def text? (s : PyStr) : Option String :=
  (s.mapM fun c : CodePoint => match c with
    | .char c => some c
    | .surrogate _ => none).map String.ofList

/-- What follows a head, none for a text without it. -/
def dropHead? (head s : PyStr) : Option PyStr := if head <+: s then some (s.drop head.length) else none

/-- `" ".join(value.split())` -/
def joinWords (s : PyStr) : PyStr :=
  [CodePoint.char ' '].intercalate ((s.splitOnP isSpace).filter (· ≠ []))

theorem eq_false_of_mem_splitOnP {p : CodePoint → Bool} {s word : PyStr} (h : word ∈ s.splitOnP p) {c : CodePoint}
    (hc : c ∈ word) : p c = false := by
  induction s generalizing word with
  | nil =>
    rw [List.splitOnP_nil, List.mem_singleton] at h
    rw [h] at hc
    cases hc
  | cons d s ih =>
    rw [List.splitOnP_cons_eq_if_modifyHead] at h
    split at h
    · rcases List.mem_cons.1 h with rfl | h
      · cases hc
      · exact ih h hc
    · next hd =>
      obtain ⟨first, rest, hsplit⟩ := List.exists_cons_of_ne_nil (List.splitOnP_ne_nil p s)
      rw [hsplit] at ih
      rw [hsplit, List.modifyHead_cons] at h
      rcases List.mem_cons.1 h with rfl | h
      · rcases List.mem_cons.1 hc with rfl | hc
        · exact eq_false_of_ne_true hd
        · exact ih List.mem_cons_self hc
      · exact ih (List.mem_cons_of_mem _ h) hc

theorem mem_intercalate {sep : CodePoint} {words : List PyStr} {c : CodePoint} (h : c ∈ [sep].intercalate words) :
    c = sep ∨ ∃ word ∈ words, c ∈ word := by
  induction words with
  | nil => cases h
  | cons word words ih =>
    cases words with
    | nil =>
      rw [List.intercalate_singleton] at h
      exact .inr ⟨word, List.mem_cons_self, h⟩
    | cons word' words =>
      rw [List.intercalate_cons_cons, List.mem_append, List.mem_append, List.mem_singleton] at h
      rcases h with (h | h) | h
      · exact .inr ⟨word, List.mem_cons_self, h⟩
      · exact .inl h
      · rcases ih h with h | ⟨w, hw, h⟩
        · exact .inl h
        · exact .inr ⟨w, List.mem_cons_of_mem _ hw, h⟩

/-- A text of words has no other space between them. -/
theorem eq_blank_of_mem_joinWords {s : PyStr} {c : CodePoint} (h : c ∈ s.joinWords) (hc : isSpace c = true) :
    c = .char ' ' := by
  rcases mem_intercalate h with h | ⟨word, hword, h⟩
  · exact h
  · have hspace := eq_false_of_mem_splitOnP (List.mem_of_mem_filter hword) h
    rw [hc] at hspace
    cases hspace

end PyStr

namespace Xauusd.Agent

open Raises (raiseIf orRaise)
open Routing (alphanumeric identifier)

/-! ## The standard library -/

/-- `urllib.parse.urlsplit` -/
structure Url where
  scheme : PyStr
  hostname : Option PyStr
  username : Option PyStr
  password : Option PyStr

/-- What the standard library computes of texts. -/
structure Python where
  floatText : BitVec 64 → List Char
  /-- `str(value)`, of a value that is not a string -/
  repr : PyJson → List Char
  /-- `re.fullmatch(pattern, value) is not None` -/
  fullmatch : String → PyStr → Bool
  /-- `re.compile` does not raise -/
  compiles : String → Bool
  /-- `unicodedata.normalize("NFC", value)` -/
  nfc : PyStr → PyStr
  /-- `json.loads`, or the class of its error -/
  loads : PyStr → Except String PyJson
  /-- `datetime.fromisoformat`: none when it raises, else the instant of a text
      with a zone -/
  fromIsoformat : PyStr → Option (Option ℤ)
  /-- `date.fromisoformat` does not raise -/
  isDate : PyStr → Bool
  /-- none for a `ValueError` -/
  urlsplit : PyStr → Option Url

def pyString (s : String) : PyJson := .str (PyStr.of s)

def pyDict (members : List (String × PyJson)) : PyJson := .dict (members.map fun m => (PyStr.of m.1, m.2))

/-- `str(value)` -/
def Python.str (P : Python) : PyJson → PyStr
  | .str s => s
  | v => PyStr.ofChars (P.repr v)

/-- `str(value or "")`, of what `get` returned -/
def Python.strOr (P : Python) (v : Option PyJson) : PyStr :=
  match v with
  | some v => if v.truthy then P.str v else []
  | none => []

/-- `_json_bytes`, none for a `ValueError` -/
def Python.jsonBytes (P : Python) (v : PyJson) : Option (List ℕ) :=
  if v.finite then PyStr.encode (v.dumps P.floatText) else none

/-- `hashlib.sha256(value.encode("utf-8")).hexdigest()`, none for a `ValueError` -/
def sha256Text (s : PyStr) : Option String := (PyStr.encode s).map sha256Bytes

/-! ## Numbers and equality -/

/-- The numbers of floats, with the infinite ones. -/
abbrev Extended := WithBot (WithTop ℚ)

def rational (q : ℚ) : Extended := ((q : WithTop ℚ) : WithBot (WithTop ℚ))

/-- The number of a float, none for one that is not a number. -/
def extended (bits : BitVec 64) : Option Extended :=
  if Json.isFinite bits then some (rational (Binary64.value bits))
  else if Binary64.fraction bits ≠ 0 then none
  else if Binary64.sign bits = 0 then some ⊤
  else some ⊥

/-- The whole number of `float(n)`, rounded half to even, none for an
    `OverflowError`. -/
def floatOf (n : ℤ) : Option ℤ :=
  let unit := 2 ^ (Nat.log2 n.natAbs - 52)
  let q := n.natAbs / unit
  let r := n.natAbs % unit
  let rounded := (if unit < 2 * r ∨ (2 * r = unit ∧ q % 2 = 1) then q + 1 else q) * unit
  if 2 ^ 1024 ≤ rounded then none else some (n.sign * rounded)

/-- A number of a schema. -/
inductive Number where
  | int (n : ℤ)
  | float (bits : BitVec 64)
  deriving DecidableEq, Repr

def Number.json : Number → PyJson
  | int n => .int n
  | float bits => .float bits

/-- Why a value is rejected. -/
inductive Fault where
  /-- `ValueError` -/
  | value
  /-- `OverflowError`, of an integer that is too large for a float -/
  | overflow
  deriving DecidableEq, Repr

/-- `float(value)`, none for one that is not a number -/
def Number.toFloat : Number → Except Fault (Option Extended)
  | int n => match floatOf n with
    | some m => .ok (some (rational m))
    | none => .error .overflow
  | float bits => .ok (extended bits)

/-- `float(a) < float(b)` -/
def Number.less (a b : Number) : Except Fault Bool := do
  let x ← a.toFloat
  let y ← b.toFloat
  return match x, y with
    | some x, some y => decide (x < y)
    | _, _ => false

/-- The number of a value in a comparison, none for a value of another type. -/
def number? : PyJson → Option (Option Extended)
  | .bool b => some (some (rational (if b then 1 else 0)))
  | .int n => some (some (rational n))
  | .float bits => some (extended bits)
  | _ => none

mutual

/-- `a == b` -/
def pyEq : PyJson → PyJson → Bool
  | .none, b => match b with
    | .none => true
    | _ => false
  | .bool x, b => (number? b).any fun y => decide (y = some (rational (if x then 1 else 0)))
  | .int x, b => (number? b).any fun y => decide (y = some (rational x))
  | .float x, b => (extended x).any fun x => (number? b).any fun y => decide (y = some x)
  | .str x, b => match b with
    | .str y => x = y
    | _ => false
  | .list x, b => match b with
    | .list y => pyEqItems x y
    | _ => false
  | .dict x, b => match b with
    | .dict y => x.length = y.length && pyEqMembers x y
    | _ => false

def pyEqItems : List PyJson → List PyJson → Bool
  | [], b => b.isEmpty
  | x :: l, b => match b with
    | [] => false
    | y :: l' => pyEq x y && pyEqItems l l'

/-- Every member is in `b`, with an equal value. -/
def pyEqMembers : List (PyStr × PyJson) → List (PyStr × PyJson) → Bool
  | [], _ => true
  | (k, x) :: l, b => (match b.lookup k with
    | none => false
    | some y => pyEq x y) && pyEqMembers l b

end

/-! ## Schemas -/

/-- `_COMMON_SCHEMA_KEYS`, without the type -/
structure Common where
  description : Option String := none
  enum : Option (List PyJson) := none

/-- A schema of one of `_SCHEMA_TYPES`, with the keywords of its type. -/
inductive Schema where
  | object (common : Common) (properties : List (String × Schema)) (required : Option (List String))
      (minProperties maxProperties : Option ℕ)
  | array (common : Common) (items : Schema) (minItems maxItems : Option ℕ) (uniqueItems : Option Bool)
  | string (common : Common) (minLength maxLength : Option ℕ) (pattern : Option String)
  | integer (common : Common) (minimum maximum : Option Number)
  | number (common : Common) (minimum maximum : Option Number)
  | boolean (common : Common)

def Common.members (c : Common) : List (String × PyJson) :=
  (c.description.map fun d => ("description", pyString d)).toList ++
    (c.enum.map fun vs => ("enum", PyJson.list vs)).toList

def keyword (name : String) (n : Option ℕ) : List (String × PyJson) := (n.map fun n => (name, PyJson.int n)).toList

def bound (name : String) (n : Option Number) : List (String × PyJson) := (n.map fun n => (name, n.json)).toList

mutual

/-- The JSON of a schema, with the keywords in one order. -/
def Schema.json : Schema → PyJson
  | object common properties required minProperties maxProperties => pyDict <|
    ("type", pyString "object") :: ("additionalProperties", .bool false) :: common.members ++
      (required.map fun names => ("required", PyJson.list (names.map pyString))).toList ++
      keyword "minProperties" minProperties ++ keyword "maxProperties" maxProperties ++
      [("properties", .dict (Schema.jsonMembers properties))]
  | array common items minItems maxItems uniqueItems => pyDict <|
    ("type", pyString "array") :: ("items", items.json) :: common.members ++
      keyword "minItems" minItems ++ keyword "maxItems" maxItems ++
      (uniqueItems.map fun b => ("uniqueItems", PyJson.bool b)).toList
  | string common minLength maxLength pattern => pyDict <|
    ("type", pyString "string") :: common.members ++
      keyword "minLength" minLength ++ keyword "maxLength" maxLength ++
      (pattern.map fun p => ("pattern", pyString p)).toList
  | integer common minimum maximum => pyDict <|
    ("type", pyString "integer") :: common.members ++ bound "minimum" minimum ++ bound "maximum" maximum
  | number common minimum maximum => pyDict <|
    ("type", pyString "number") :: common.members ++ bound "minimum" minimum ++ bound "maximum" maximum
  | boolean common => pyDict (("type", pyString "boolean") :: common.members)

def Schema.jsonMembers : List (String × Schema) → List (PyStr × PyJson)
  | [] => []
  | (name, schema) :: properties => (PyStr.of name, schema.json) :: Schema.jsonMembers properties

end

/-- `_PROVENANCE_FIELD` -/
def isFieldName (s : String) : Bool :=
  match s.toList with
  | [] => false
  | c :: cs => ('a' ≤ c && c ≤ 'z') && cs.all (fun c => ('a' ≤ c && c ≤ 'z') || ('0' ≤ c && c ≤ '9') || c = '_') &&
      decide (cs.length ≤ 63)

/-- A keyword of a schema that counts something. -/
def inBounds (n : Option ℕ) : Bool := n.all (· ≤ 100000)

def Common.valid (c : Common) : Bool :=
  c.description.all (fun d => decide (1 ≤ Text.len d ∧ Text.len d ≤ 500)) &&
    c.enum.all fun vs => decide (vs ≠ [] ∧ vs.length ≤ 64)

mutual

/-- The remaining checks of `_validate_schema_definition`, where a pattern has
    to compile. -/
def Schema.valid (compiles : String → Bool) : Schema → Bool
  | object common properties required minProperties maxProperties =>
    common.valid && decide (properties.length ≤ 32) && decide ((properties.map (·.1)).Nodup) &&
      decide ((required.getD []).Nodup) && (required.getD []).all (· ∈ properties.map (·.1)) &&
      Schema.validMembers compiles properties && inBounds minProperties && inBounds maxProperties
  | array common items minItems maxItems _ =>
    common.valid && items.valid compiles && inBounds minItems && inBounds maxItems
  | string common minLength maxLength pattern =>
    common.valid && pattern.all compiles && inBounds minLength && inBounds maxLength
  | integer common _ _ => common.valid
  | number common _ _ => common.valid
  | boolean common => common.valid

def Schema.validMembers (compiles : String → Bool) : List (String × Schema) → Bool
  | [] => true
  | (name, schema) :: properties => isFieldName name && schema.valid compiles && Schema.validMembers compiles properties

end

/-! ## Validation -/

/-- `properties[name]`, none when the name is not among them -/
def property (properties : List (String × Schema)) (name : PyStr) : Option Schema :=
  (properties.find? (PyStr.of ·.1 = name)).map (·.2)

/-- `"enum" in schema and value not in schema["enum"]` raises. -/
def Common.check (c : Common) (v : PyJson) : Except Fault Unit :=
  match c.enum with
  | some vs => raiseIf (¬ vs.any (pyEq v)) .value
  | none => .ok ()

/-- The bounds of a length. -/
def checkLength (n : ℕ) (minimum : Option ℕ) (maximum : ℕ) : Except Fault Unit :=
  raiseIf (n < minimum.getD 0 ∨ maximum < n) .value

def checkBelow (n : Number) : Option Number → Except Fault Unit
  | some m => do
    let below ← n.less m
    raiseIf below .value
  | none => .ok ()

def checkAbove (n : Number) : Option Number → Except Fault Unit
  | some m => do
    let above ← m.less n
    raiseIf above .value
  | none => .ok ()

/-- `len({_json_bytes(item) for item in value}) != len(value)`, if the schema
    asks for it -/
def Python.checkUnique (P : Python) (uniqueItems : Option Bool) (items : List PyJson) : Except Fault Unit :=
  if uniqueItems = some true then do
    let texts ← orRaise (items.mapM P.jsonBytes) .value
    raiseIf (¬ texts.Nodup) .value
  else .ok ()

mutual

/-- `_validate_json_value` -/
def validateJsonValue (P : Python) : PyJson → Schema → Except Fault Unit
  | .dict members, schema => match schema with
    | .object common properties required minProperties maxProperties => do
      raiseIf ((required.getD []).any (fun name => PyStr.of name ∉ members.map (·.1)) ||
        members.any fun m => (property properties m.1).isNone) .value
      checkLength members.length minProperties (maxProperties.getD properties.length)
      validateMembers P members properties
      common.check (.dict members)
    | _ => .error .value
  | .list items, schema => match schema with
    | .array common child minItems maxItems uniqueItems => do
      checkLength items.length minItems (maxItems.getD 100000)
      P.checkUnique uniqueItems items
      validateItems P items child
      common.check (.list items)
    | _ => .error .value
  | .str s, schema => match schema with
    | .string common minLength maxLength pattern => do
      checkLength s.length minLength (maxLength.getD 100000)
      raiseIf (pattern.any fun p => !P.fullmatch p s) .value
      common.check (.str s)
    | _ => .error .value
  | .int n, schema => match schema with
    | .integer common minimum maximum | .number common minimum maximum => do
      common.check (.int n)
      checkBelow (.int n) minimum
      checkAbove (.int n) maximum
    | _ => .error .value
  | .float bits, schema => match schema with
    | .number common minimum maximum => do
      common.check (.float bits)
      checkBelow (.float bits) minimum
      checkAbove (.float bits) maximum
    | _ => .error .value
  | .bool b, schema => match schema with
    | .boolean common => common.check (.bool b)
    | _ => .error .value
  | .none, _ => .error .value

def validateItems (P : Python) : List PyJson → Schema → Except Fault Unit
  | [], _ => .ok ()
  | v :: items, schema => do
    validateJsonValue P v schema
    validateItems P items schema

def validateMembers (P : Python) : List (PyStr × PyJson) → List (String × Schema) → Except Fault Unit
  | [], _ => .ok ()
  | (name, v) :: members, properties => do
    let schema ← orRaise (property properties name) .value
    validateJsonValue P v schema
    validateMembers P members properties

end

/-! ## What an accepted value is -/

open Raises (bind_eq_ok orRaise_eq_ok)

section
variable {P : Python}

theorem validateItems_ok {items : List PyJson} {schema : Schema} :
    validateItems P items schema = .ok () ↔ ∀ v ∈ items, validateJsonValue P v schema = .ok () := by
  induction items with
  | nil => simp [validateItems]
  | cons v items ih =>
    rw [validateItems, List.forall_mem_cons, ← ih, bind_eq_ok]
    constructor
    · rintro ⟨u, hv, hitems⟩
      exact ⟨hv, hitems⟩
    · rintro ⟨hv, hitems⟩
      exact ⟨(), hv, hitems⟩

theorem validateMembers_ok {members : List (PyStr × PyJson)} {properties : List (String × Schema)} :
    validateMembers P members properties = .ok () ↔
      ∀ m ∈ members, ∃ schema, property properties m.1 = some schema ∧ validateJsonValue P m.2 schema = .ok () := by
  induction members with
  | nil => simp [validateMembers]
  | cons m members ih =>
    obtain ⟨name, v⟩ := m
    rw [validateMembers, List.forall_mem_cons, ← ih, bind_eq_ok]
    constructor
    · rintro ⟨schema, hproperty, h⟩
      obtain ⟨u, hv, hmembers⟩ := bind_eq_ok.1 h
      exact ⟨⟨schema, orRaise_eq_ok.1 hproperty, hv⟩, hmembers⟩
    · rintro ⟨⟨schema, hproperty, hv⟩, hmembers⟩
      exact ⟨schema, orRaise_eq_ok.2 hproperty, bind_eq_ok.2 ⟨(), hv, hmembers⟩⟩

end

end Xauusd.Agent
