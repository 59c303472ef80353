/-
  JSON texts, as `JSON.stringify` and `json.dumps(…, ensure_ascii=False,
  separators=(",", ":"))` write them.

  A text is the list of its characters.

  * `quote`, `array`, `object`: a string, and the texts of several values
    together;
  * `bytes`: the length of a text in UTF-8;
  * `bytes_array`, `bytes_object`: the brackets, the parts and the commas;
  * `bytes_array_perm`, `bytes_array_sublist`, `bytes_array_append`,
    `bytes_object_sublist`: parts in another order, fewer parts, one part more.
-/
import Mathlib
import Xauusd.Lib.Text

namespace JsonText

/-- A character inside a string. -/
def escape (c : Char) : List Char :=
  if c = '"' then ['\\', '"']
  else if c = '\\' then ['\\', '\\']
  else if c = '\n' then ['\\', 'n']
  else if c = '\r' then ['\\', 'r']
  else if c = '\t' then ['\\', 't']
  else if c.toNat = 8 then ['\\', 'b']
  else if c.toNat = 12 then ['\\', 'f']
  else if c.toNat < 32 then '\\' :: 'u' :: Text.hexDigits 4 c.toNat
  else [c]

def quote (s : String) : List Char := '"' :: s.toList.flatMap escape ++ ['"']

/-- Texts with commas between them. -/
def commas : List (List Char) → List Char
  | [] => []
  | [t] => t
  | t :: u :: l => t ++ ',' :: commas (u :: l)

def array (items : List (List Char)) : List Char := '[' :: commas items ++ [']']

def member (m : String × List Char) : List Char := quote m.1 ++ ':' :: m.2

def object (members : List (String × List Char)) : List Char := '{' :: commas (members.map member) ++ ['}']

def number (n : ℕ) : List Char := (toString n).toList

def null : List Char := ['n', 'u', 'l', 'l']

/-! ## Sizes -/

def bytes (text : List Char) : ℕ := (text.map Char.utf8Size).sum

@[simp] theorem bytes_nil : bytes [] = 0 := rfl

@[simp] theorem bytes_cons (c : Char) (t : List Char) : bytes (c :: t) = c.utf8Size + bytes t := by
  simp [bytes]

@[simp] theorem bytes_append (t u : List Char) : bytes (t ++ u) = bytes t + bytes u := by
  simp [bytes]

theorem bytes_commas (items : List (List Char)) :
    bytes (commas items) = (items.map bytes).sum + (items.length - 1) := by
  induction items with
  | nil => rfl
  | cons t l ih =>
    cases l with
    | nil => simp [commas]
    | cons u l =>
      have hcomma : Char.utf8Size ',' = 1 := rfl
      rw [commas, bytes_append, bytes_cons, ih, hcomma]
      simp only [List.map_cons, List.sum_cons, List.length_cons]
      omega

theorem bytes_array (items : List (List Char)) :
    bytes (array items) = 2 + (items.map bytes).sum + (items.length - 1) := by
  have hopen : Char.utf8Size '[' = 1 := rfl
  have hclose : Char.utf8Size ']' = 1 := rfl
  simp only [array, List.cons_append, bytes_cons, bytes_append, bytes_nil, bytes_commas, hopen, hclose]
  omega

theorem bytes_object (members : List (String × List Char)) :
    bytes (object members) = 2 + (members.map fun m => bytes (member m)).sum + (members.length - 1) := by
  have hopen : Char.utf8Size '{' = 1 := rfl
  have hclose : Char.utf8Size '}' = 1 := rfl
  simp only [object, List.cons_append, bytes_cons, bytes_append, bytes_nil, bytes_commas, hopen, hclose,
    List.map_map, List.length_map]
  have hmap : members.map (bytes ∘ member) = members.map fun m => bytes (member m) := rfl
  rw [hmap]
  omega

theorem bytes_array_perm {l l' : List (List Char)} (h : l.Perm l') : bytes (array l) = bytes (array l') := by
  rw [bytes_array, bytes_array, (h.map bytes).sum_eq, h.length_eq]

theorem bytes_array_sublist {l l' : List (List Char)} (h : l.Sublist l') : bytes (array l) ≤ bytes (array l') := by
  have hsum := (h.map bytes).sum_le_sum (fun _ _ => Nat.zero_le _)
  have hlength := h.length_le
  rw [bytes_array, bytes_array]
  omega

/-- Parts that are no longer, one by one. -/
theorem bytes_array_le {α : Type*} {l : List α} {f g : α → List Char} (h : ∀ a ∈ l, bytes (f a) ≤ bytes (g a)) :
    bytes (array (l.map f)) ≤ bytes (array (l.map g)) := by
  have hsum : ((l.map f).map bytes).sum ≤ ((l.map g).map bytes).sum := by
    rw [List.map_map, List.map_map]
    exact List.sum_le_sum h
  rw [bytes_array, bytes_array, List.length_map, List.length_map]
  omega

/-- The parts of a second list, some of them longer. -/
theorem bytes_array_append {α : Type*} (l : List (List Char)) {m : List α} {f g : α → List Char} {d : ℕ}
    (h : ∀ a ∈ m, bytes (g a) = bytes (f a) + d) :
    bytes (array (l ++ m.map g)) = bytes (array (l ++ m.map f)) + d * m.length := by
  have hsum : ((m.map g).map bytes).sum = ((m.map f).map bytes).sum + d * m.length := by
    induction m with
    | nil => rfl
    | cons a m ih =>
      simp only [List.map_cons, List.sum_cons, List.length_cons, h a List.mem_cons_self,
        ih fun b hb => h b (List.mem_cons_of_mem _ hb)]
      ring
  rw [bytes_array, bytes_array, List.map_append, List.map_append, List.sum_append, List.sum_append, hsum]
  simp only [List.length_append, List.length_map]
  omega

theorem bytes_object_sublist {l l' : List (String × List Char)} (h : l.Sublist l') :
    bytes (object l) ≤ bytes (object l') := by
  have hsum := (h.map fun m => bytes (member m)).sum_le_sum (fun _ _ => Nat.zero_le _)
  have hlength := h.length_le
  rw [bytes_object, bytes_object]
  omega

end JsonText
