/-
  Text operations of Python, SQLite and JavaScript, on lists of characters.

  * `strip`, `words`, `joinWords`, `upper`: `str.strip()`, `str.split()`,
    `" ".join(..)` and `str.upper()`;
  * `trimBlanks`, `sqlLength`, `like`: SQLite's `trim`, `length` and `LIKE`;
  * `jsTrim`, `jsJoinWords`, `utf16Length`, `utf16Less`: `trim()`,
    `trim().replace(/\s+/g," ")`, `.length` and `<` of JavaScript;
  * `hexDigits`: hexadecimal digits;
  * `strip_idem`: stripping is idempotent;
  * `len_trimBy_le`: trimming more leaves less.
-/
import Mathlib

namespace Text

/-- `str.isspace` of one character. -/
def isSpace (c : Char) : Bool :=
  c.toNat ∈ [0x20, 0x85, 0xA0, 0x1680, 0x2028, 0x2029, 0x202F, 0x205F, 0x3000] ||
    (0x09 ≤ c.toNat && c.toNat ≤ 0x0D) || (0x1C ≤ c.toNat && c.toNat ≤ 0x1F) ||
    (0x2000 ≤ c.toNat && c.toNat ≤ 0x200A)

/-- Drop the characters satisfying `p` at both ends. -/
def trimBy (p : Char → Bool) (s : String) : String :=
  String.ofList ((s.toList.dropWhile p).rdropWhile p)

/-- `str.strip()` -/
def strip : String → String := trimBy isSpace

/-- SQLite's `trim(s)` -/
def trimBlanks : String → String := trimBy (· = ' ')

/-- `str.split()` -/
def words (s : String) : List (List Char) := (s.toList.splitOnP isSpace).filter (· ≠ [])

/-- `" ".join(s.split())` -/
def joinWords (s : String) : String := String.ofList ([' '].intercalate (words s))

/-- `str.upper()` of one character, exact for the characters whose upper case
    is ASCII; the others have no ASCII upper case, and stay. -/
def upperChar (c : Char) : List Char :=
  if c.toNat < 0x80 then [c.toUpper] else
    match c.toNat with
    | 0xDF => ['S', 'S']
    | 0x131 => ['I']
    | 0x17F => ['S']
    | 0xFB00 => ['F', 'F']
    | 0xFB01 => ['F', 'I']
    | 0xFB02 => ['F', 'L']
    | 0xFB03 => ['F', 'F', 'I']
    | 0xFB04 => ['F', 'F', 'L']
    | 0xFB05 | 0xFB06 => ['S', 'T']
    | _ => [c]

/-- `str.upper()` -/
def upper (s : String) : String := String.ofList (s.toList.flatMap upperChar)

/-- `s LIKE pattern`, on the characters of both -/
def likeChars : List Char → List Char → Bool
  | [], s => s.isEmpty
  | '%' :: p, s => s.tails.any (likeChars p)
  | '_' :: p, s => match s with
    | [] => false
    | _ :: s => likeChars p s
  | c :: p, s => match s with
    | [] => false
    | d :: s => c.toLower = d.toLower && likeChars p s

/-- `s LIKE pattern`: `%` stands for any text, `_` for one character, and
    ASCII letters match in either case. -/
def like (pattern s : String) : Bool := likeChars pattern.toList s.toList

/-- Python's `len(s)` -/
def len (s : String) : ℕ := s.toList.length

/-- SQLite's `length(s)`: the characters before the first NUL -/
def sqlLength (s : String) : ℕ := (s.toList.takeWhile fun c => c.toNat ≠ 0).length

/-! ## JavaScript -/

/-- JavaScript's white space: that of `trim` and of `\s`. -/
def jsSpace (c : Char) : Bool :=
  c.toNat ∈ [0x20, 0xA0, 0x1680, 0x2028, 0x2029, 0x202F, 0x205F, 0x3000, 0xFEFF] ||
    (0x09 ≤ c.toNat && c.toNat ≤ 0x0D) || (0x2000 ≤ c.toNat && c.toNat ≤ 0x200A)

/-- `s.trim()` -/
def jsTrim : String → String := trimBy jsSpace

/-- `s.trim().replace(/\s+/g, " ")` -/
def jsJoinWords (s : String) : String :=
  String.ofList ([' '].intercalate ((s.toList.splitOnP jsSpace).filter (· ≠ [])))

/-- `s.toLowerCase()`, of its ASCII letters; the lower case of other characters
    holds no hexadecimal digit. -/
def lower (s : String) : String := String.ofList (s.toList.map Char.toLower)

/-- `s.length`: the UTF-16 code units -/
def utf16Length (s : String) : ℕ := (s.toList.map fun c => if c.toNat < 0x10000 then 1 else 2).sum

/-- The UTF-16 code units of a text. -/
def utf16Units (s : String) : List ℕ :=
  s.toList.flatMap fun c =>
    if c.toNat < 0x10000 then [c.toNat]
    else [0xD800 + (c.toNat - 0x10000) / 0x400, 0xDC00 + (c.toNat - 0x10000) % 0x400]

/-- `s < t` of JavaScript: the order of code units. -/
def utf16Less (s t : String) : Bool := utf16Units s < utf16Units t

/-- The text has the shape: a digit for each `#`, every other character as it is. -/
def shaped (shape s : String) : Bool :=
  s.toList.length = shape.toList.length
    && (s.toList.zip shape.toList).all fun m => if m.2 = '#' then '0' ≤ m.1 && m.1 ≤ '9' else m.1 = m.2

def hexDigit (n : ℕ) : Char := Char.ofNat (if n < 10 then 48 + n else 87 + n)

/-- The last `k` hexadecimal digits. -/
def hexDigits : ℕ → ℕ → List Char
  | 0, _ => []
  | k + 1, n => hexDigits k (n / 16) ++ [hexDigit (n % 16)]

/-- `/^[a-f0-9]{64}$/` -/
def isSha256Hex (s : String) : Bool :=
  s.toList.length = 64 && s.toList.all fun c => ('0' ≤ c && c ≤ '9') || ('a' ≤ c && c ≤ 'f')

/-! ## Laws -/

theorem trimBy_idem (p : Char → Bool) (s : String) : trimBy p (trimBy p s) = trimBy p s := by
  have h : ((s.toList.dropWhile p).rdropWhile p).dropWhile p = (s.toList.dropWhile p).rdropWhile p := by
    rw [List.dropWhile_eq_self_iff]
    intro hl
    have hp : (s.toList.dropWhile p).rdropWhile p <+: s.toList.dropWhile p :=
      List.rdropWhile_prefix _ _
    have h₀ : 0 < (s.toList.dropWhile p).length := hl.trans_le hp.length_le
    rw [hp.getElem hl]
    exact List.dropWhile_get_zero_not p s.toList h₀
  rw [trimBy, trimBy, String.toList_ofList, h, List.rdropWhile_idempotent]

theorem trimBy_eq_self {p : Char → Bool} {s : String} (h : ∀ c ∈ s.toList, p c = false) :
    trimBy p s = s := by
  have hleft : s.toList.dropWhile p = s.toList := by
    rw [List.dropWhile_eq_self_iff]
    intro hl
    simpa using h _ (List.getElem_mem hl)
  have hright : s.toList.rdropWhile p = s.toList := by
    rw [List.rdropWhile_eq_self_iff]
    intro hl
    simpa using h _ (List.getLast_mem hl)
  rw [trimBy, hleft, hright, String.ofList_toList]

theorem strip_idem (s : String) : strip (strip s) = strip s := trimBy_idem _ _

theorem length_dropWhile_le {p q : Char → Bool} (h : ∀ c, p c = true → q c = true) (l : List Char) :
    (l.dropWhile q).length ≤ (l.dropWhile p).length := by
  induction l with
  | nil => exact le_rfl
  | cons c l ih =>
    by_cases hp : p c = true
    · rw [List.dropWhile_cons_of_pos hp, List.dropWhile_cons_of_pos (h c hp)]
      exact ih
    · rw [List.dropWhile_cons_of_neg hp]
      exact (List.dropWhile_suffix q).length_le

theorem dropWhile_dropWhile {p q : Char → Bool} (h : ∀ c, p c = true → q c = true) (l : List Char) :
    (l.dropWhile p).dropWhile q = l.dropWhile q := by
  induction l with
  | nil => rfl
  | cons c l ih =>
    by_cases hp : p c = true
    · rw [List.dropWhile_cons_of_pos hp, List.dropWhile_cons_of_pos (h c hp), ih]
    · rw [List.dropWhile_cons_of_neg hp]

/-- What stands before a text keeps no more of its end away. -/
theorem length_rdropWhile_le (p : Char → Bool) (l m : List Char) :
    (m.rdropWhile p).length ≤ ((l ++ m).rdropWhile p).length := by
  rw [List.rdropWhile, List.rdropWhile, List.length_reverse, List.length_reverse, List.reverse_append,
    List.dropWhile_append]
  split
  · next hnil =>
    rw [List.isEmpty_iff.1 hnil]
    exact Nat.zero_le _
  · rw [List.length_append]
    exact Nat.le_add_right _ _

/-- Trimming more leaves less. -/
theorem len_trimBy_le {p q : Char → Bool} (h : ∀ c, p c = true → q c = true) (s : String) :
    len (trimBy q s) ≤ len (trimBy p s) := by
  rw [len, len, trimBy, trimBy, String.toList_ofList, String.toList_ofList]
  obtain ⟨l, hl⟩ := List.dropWhile_suffix (l := s.toList.dropWhile p) q
  rw [dropWhile_dropWhile h] at hl
  have hstart := length_rdropWhile_le p l (s.toList.dropWhile q)
  have hend := length_dropWhile_le h (s.toList.dropWhile q).reverse
  rw [hl] at hstart
  refine le_trans ?_ hstart
  rw [List.rdropWhile, List.rdropWhile, List.length_reverse, List.length_reverse]
  exact hend

/-- A text has a number of characters in SQLite if it has them and no NUL is
    among the first. -/
theorem le_sqlLength_iff {n : ℕ} {s : String} :
    n ≤ sqlLength s ↔ n ≤ len s ∧ ∀ c ∈ s.toList.take n, c.toNat ≠ 0 := by
  rw [sqlLength, len]
  generalize s.toList = l
  induction l generalizing n with
  | nil => simp
  | cons c l ih =>
    cases n with
    | zero => simp
    | succ n =>
      rw [List.take_succ_cons, List.forall_mem_cons, List.length_cons, Nat.succ_le_succ_iff]
      by_cases hc : c.toNat = 0
      · simp [hc]
      · rw [List.takeWhile_cons_of_pos (by simpa using hc), List.length_cons, Nat.succ_le_succ_iff, ih]
        simp [hc]

theorem length_hexDigits (k n : ℕ) : (hexDigits k n).length = k := by
  induction k generalizing n with
  | zero => rfl
  | succ k ih => rw [hexDigits, List.length_append, ih, List.length_singleton]

theorem hexDigit_injective {n m : ℕ} (hn : n < 16) (hm : m < 16) (h : hexDigit n = hexDigit m) : n = m := by
  have hall : ∀ a : Fin 16, ∀ b : Fin 16, hexDigit a = hexDigit b → a = b := by decide
  exact congrArg Fin.val (hall ⟨n, hn⟩ ⟨m, hm⟩ h)

theorem hexDigits_injective {k n m : ℕ} (hn : n < 16 ^ k) (hm : m < 16 ^ k)
    (h : hexDigits k n = hexDigits k m) : n = m := by
  induction k generalizing n m with
  | zero => simp at hn hm; omega
  | succ k ih =>
    obtain ⟨hhigh, hlow⟩ := List.append_inj h (by rw [length_hexDigits, length_hexDigits])
    have hdigit := hexDigit_injective (Nat.mod_lt n (by decide)) (Nat.mod_lt m (by decide))
      (List.singleton_inj.1 hlow)
    have hdiv := ih (by rw [Nat.pow_succ] at hn; omega) (by rw [Nat.pow_succ] at hm; omega) hhigh
    omega

/-- The digits of a number. -/
theorem hexDigits_range {k n : ℕ} {c : Char} (hc : c ∈ hexDigits k n) :
    ('0' ≤ c ∧ c ≤ '9') ∨ ('a' ≤ c ∧ c ≤ 'f') := by
  have hdigit : ∀ a : Fin 16, ('0' ≤ hexDigit a ∧ hexDigit a ≤ '9') ∨
      ('a' ≤ hexDigit a ∧ hexDigit a ≤ 'f') := by decide
  induction k generalizing n with
  | zero => cases hc
  | succ k ih =>
    rcases List.mem_append.1 hc with hc | hc
    · exact ih hc
    · rw [List.mem_singleton.1 hc]
      exact hdigit ⟨n % 16, Nat.mod_lt n (by decide)⟩

/-- Of texts without surrogate pairs the code units are the code points. -/
theorem utf16Units_of_basic {s : String} (h : ∀ c ∈ s.toList, c.toNat < 0x10000) :
    utf16Units s = s.toList.map Char.toNat := by
  unfold utf16Units
  generalize s.toList = l at h ⊢
  induction l with
  | nil => rfl
  | cons c l ih =>
    obtain ⟨hc, hl⟩ := List.forall_mem_cons.1 h
    rw [List.flatMap_cons, if_pos hc, ih hl]
    rfl

theorem map_toNat_lt_iff {l m : List Char} : l.map Char.toNat < m.map Char.toNat ↔ l < m := by
  induction l generalizing m with
  | nil => cases m <;> simp
  | cons c l ih =>
    cases m with
    | nil => simp
    | cons d m =>
      have hlt : c.toNat < d.toNat ↔ c < d := Iff.rfl
      have heq : c.toNat = d.toNat ↔ c = d := Char.toNat_inj
      simp only [List.map_cons, List.cons_lt_cons_iff, ih, hlt, heq]

theorem utf16Less_iff {s t : String} (hs : ∀ c ∈ s.toList, c.toNat < 0x10000)
    (ht : ∀ c ∈ t.toList, c.toNat < 0x10000) : utf16Less s t = true ↔ s < t := by
  rw [utf16Less, decide_eq_true_eq, utf16Units_of_basic hs, utf16Units_of_basic ht, map_toNat_lt_iff,
    String.lt_iff]

end Text
