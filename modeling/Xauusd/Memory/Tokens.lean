/-
  The terms of a memory (`tokenize_assistant_memory` of
  `assistant/memory_index.py`, on code points, and `tokenizeAssistantMemory` of
  `assistant-memory-index.ts`, on UTF-16 code units).

  * `tokenize`, `Js.tokenize`: the two scanners;
  * `TermAt`: what a term is, and where it starts;
  * `termAt_iff`, `candidates_eq`: the scanner meets the terms of the text in
    the order of their starts;
  * `tokens_agree`: **both scanners return the same list, the distinct terms of
    the text in the order of first occurrence up to the bound**.
-/
import Xauusd.Lib.Distinct
import Xauusd.Lib.Utf16

namespace Xauusd.Memory.Tokens

def ASSISTANT_MEMORY_MAX_INDEX_TERMS : ℤ := 64

/-- `/^[A-Za-z0-9]$/` -/
def isAlnum (n : ℕ) : Bool := (48 ≤ n && n ≤ 57) || (65 ≤ n && n ≤ 90) || (97 ≤ n && n ≤ 122)

def isHan (codepoint : ℕ) : Bool :=
  (0x3400 ≤ codepoint && codepoint ≤ 0x4DBF) || (0x4E00 ≤ codepoint && codepoint ≤ 0x9FFF) ||
    (0xF900 ≤ codepoint && codepoint ≤ 0xFAFF)

/-- `"Assistant memory term bound is invalid"` -/
inductive TokenError where
  | termBound
  deriving DecidableEq

/-! ## On code points -/

/-- `character.isascii() and character.isalnum()` -/
def isWord (character : Char) : Bool := isAlnum character.toNat

def isHanChar (character : Char) : Bool := isHan character.toNat

/-- `str.lower()` of letters and digits of ASCII -/
def lower (run : List Char) : List Char := run.map Char.toLower

def add (maximumTerms : ℕ) (terms : List (List Char)) (term : List Char) : List (List Char) :=
  if term ≠ [] ∧ term.length ≤ 64 ∧ term ∉ terms ∧ terms.length < maximumTerms then terms ++ [term] else terms

/-- The pairs of neighbours of a run, until the bound is reached. -/
def addPairs (maximumTerms : ℕ) : List Char → List (List Char) → List (List Char)
  | a :: b :: run, terms =>
    let terms := add maximumTerms terms [a, b]
    if maximumTerms ≤ terms.length then terms else addPairs maximumTerms (b :: run) terms
  | _, terms => terms

def addRun (maximumTerms : ℕ) (run : List Char) (terms : List (List Char)) : List (List Char) :=
  if run.length = 1 then add maximumTerms terms run else addPairs maximumTerms run terms

theorem length_dropWhile_lt {α : Type*} (p : α → Bool) (c : α) (l : List α) :
    (l.dropWhile p).length < (c :: l).length :=
  Nat.lt_succ_of_le (List.length_dropWhile_le p l)

def scan (maximumTerms : ℕ) : List Char → List (List Char) → List (List Char)
  | [], terms => terms
  | character :: rest, terms =>
    if terms.length < maximumTerms then
      if isWord character then
        scan maximumTerms (rest.dropWhile isWord)
          (add maximumTerms terms (lower (character :: rest.takeWhile isWord)))
      else if isHanChar character then
        scan maximumTerms (rest.dropWhile isHanChar)
          (addRun maximumTerms (character :: rest.takeWhile isHanChar) terms)
      else scan maximumTerms rest terms
    else terms
termination_by text => text.length
decreasing_by
  · exact length_dropWhile_lt _ _ _
  · exact length_dropWhile_lt _ _ _
  · exact Nat.lt_succ_self _

/-- `tokenize_assistant_memory`, where `nfkc` is `unicodedata.normalize`. -/
def tokenize (nfkc : List Char → List Char) (value : List Char) (maximumTerms : ℤ) :
    Except TokenError (List (List Char)) :=
  if 1 ≤ maximumTerms ∧ maximumTerms ≤ ASSISTANT_MEMORY_MAX_INDEX_TERMS then
    .ok (scan maximumTerms.toNat (nfkc value) [])
  else .error .termBound

/-! ## On code units -/

namespace Js

def isWord (character : List ℕ) : Bool :=
  match character with
  | [u] => isAlnum u
  | _ => false

def isHanChar (character : List ℕ) : Bool := isHan (Utf16.codePointAt character)

/-- `toLowerCase()` of letters and digits of ASCII -/
def lower (run : List ℕ) : List ℕ := run.map fun u => if 65 ≤ u ∧ u ≤ 90 then u + 32 else u

def add (maximumTerms : ℕ) (terms : List (List ℕ)) (term : List ℕ) : List (List ℕ) :=
  if term ≠ [] ∧ term.length ≤ 64 ∧ term ∉ terms ∧ terms.length < maximumTerms then terms ++ [term] else terms

def addPairs (maximumTerms : ℕ) : List (List ℕ) → List (List ℕ) → List (List ℕ)
  | a :: b :: run, terms =>
    let terms := add maximumTerms terms (a ++ b)
    if maximumTerms ≤ terms.length then terms else addPairs maximumTerms (b :: run) terms
  | _, terms => terms

def addRun (maximumTerms : ℕ) (run : List (List ℕ)) (terms : List (List ℕ)) : List (List ℕ) :=
  match run with
  | [character] => add maximumTerms terms character
  | _ => addPairs maximumTerms run terms

def scan (maximumTerms : ℕ) : List (List ℕ) → List (List ℕ) → List (List ℕ)
  | [], terms => terms
  | character :: rest, terms =>
    if terms.length < maximumTerms then
      if isWord character then
        scan maximumTerms (rest.dropWhile isWord)
          (add maximumTerms terms (lower (character :: rest.takeWhile isWord).flatten))
      else if isHanChar character then
        scan maximumTerms (rest.dropWhile isHanChar)
          (addRun maximumTerms (character :: rest.takeWhile isHanChar) terms)
      else scan maximumTerms rest terms
    else terms
termination_by characters => characters.length
decreasing_by
  · exact length_dropWhile_lt _ _ _
  · exact length_dropWhile_lt _ _ _
  · exact Nat.lt_succ_self _

/-- `tokenizeAssistantMemory`, where `normalize` is `normalize("NFKC")`. -/
def tokenize (normalize : List ℕ → List ℕ) (value : List ℕ) (maximumTerms : ℤ) :
    Except TokenError (List (List ℕ)) :=
  if maximumTerms < 1 ∨ ASSISTANT_MEMORY_MAX_INDEX_TERMS < maximumTerms then .error .termBound
  else .ok (scan maximumTerms.toNat (Utf16.arrayFrom (normalize value)) [])

end Js

/-! ## Terms -/

/-- The terms of a text, and where they start: a run of ASCII letters and digits
    that is not part of a longer one, a Han character on its own, or two that
    stand side by side. -/
inductive TermAt (text : List Char) : ℕ → List Char → Prop where
  | word (before run after : List Char) : text = before ++ run ++ after → run ≠ [] →
      (∀ c ∈ run, isWord c = true) → (∀ c ∈ before.getLast?, isWord c = false) →
      (∀ c ∈ after.head?, isWord c = false) → run.length ≤ 64 → TermAt text before.length (lower run)
  | single (before : List Char) (c : Char) (after : List Char) : text = before ++ c :: after →
      isHanChar c = true → (∀ d ∈ before.getLast?, isHanChar d = false) →
      (∀ d ∈ after.head?, isHanChar d = false) → TermAt text before.length [c]
  | pair (before : List Char) (c d : Char) (after : List Char) : text = before ++ c :: d :: after →
      isHanChar c = true → isHanChar d = true → TermAt text before.length [c, d]

/-- The term that starts a text, if one does: none does inside a run. -/
def startTerm (previous : Option Char) : List Char → Option (List Char)
  | [] => none
  | c :: rest =>
    if isWord c then
      if previous.any isWord then none else some (lower (c :: rest.takeWhile isWord))
    else if isHanChar c then
      match rest.head? with
      | some d => if isHanChar d then some [c, d] else if previous.any isHanChar then none else some [c]
      | none => if previous.any isHanChar then none else some [c]
    else none

/-- The terms of a text in the order of their starts. -/
def terms (previous : Option Char) : List Char → List (List Char)
  | [] => []
  | c :: rest => (startTerm previous (c :: rest)).toList ++ terms (some c) rest

variable {c d : Char} {rest : List Char} {maximumTerms : ℕ} {kept : List (List Char)}

theorem not_han_of_word (h : isWord c = true) : isHanChar c = false := by
  simp only [isWord, isAlnum, isHanChar, isHan, Bool.or_eq_true, Bool.and_eq_true, decide_eq_true_eq,
    Bool.or_eq_false_iff, Bool.and_eq_false_iff, decide_eq_false_iff_not] at h ⊢
  omega

theorem not_word_of_han (h : isHanChar c = true) : isWord c = false := by
  by_contra hc
  rw [Bool.not_eq_false] at hc
  rw [not_han_of_word hc] at h
  cases h

/-- The character before matters only inside a run. -/
theorem startTerm_boundary (hword : isWord c = true → ∀ d ∈ rest.head?, isWord d = false)
    (hhan : isHanChar c = true → ∀ d ∈ rest.head?, isHanChar d = false) :
    startTerm (some c) rest = startTerm none rest := by
  cases rest with
  | nil => rfl
  | cons d rest =>
    simp only [List.head?_cons, Option.mem_some, forall_eq'] at hword hhan
    rw [startTerm, startTerm]
    by_cases hd : isWord d = true
    · have hc : isWord c = false := by
        by_contra hc
        rw [Bool.not_eq_false] at hc
        rw [hword hc] at hd
        cases hd
      simp [hd, hc]
    · by_cases hd' : isHanChar d = true
      · have hc : isHanChar c = false := by
          by_contra hc
          rw [Bool.not_eq_false] at hc
          rw [hhan hc] at hd'
          cases hd'
        simp [hd, hd', hc]
      · simp [hd, hd']

theorem terms_boundary (hword : isWord c = true → ∀ d ∈ rest.head?, isWord d = false)
    (hhan : isHanChar c = true → ∀ d ∈ rest.head?, isHanChar d = false) :
    terms (some c) rest = terms none rest := by
  cases rest with
  | nil => rfl
  | cons d rest => rw [terms, terms, startTerm_boundary hword hhan]

/-- No term starts inside a run of letters and digits. -/
theorem terms_after_word (hc : isWord c = true) :
    terms (some c) rest = terms none (rest.dropWhile isWord) := by
  induction rest generalizing c with
  | nil => rfl
  | cons d rest ih =>
    cases hd : isWord d with
    | true =>
      rw [List.dropWhile_cons_of_pos hd, terms, startTerm, if_pos hd, Option.any_some, if_pos hc, Option.toList_none,
        List.nil_append, ih hd]
    | false =>
      rw [List.dropWhile_cons_of_neg (by rw [hd]; decide)]
      refine terms_boundary (fun _ e he => ?_) (fun hhan => ?_)
      · rw [List.head?_cons, Option.mem_some] at he
        rw [← he, hd]
      · rw [not_han_of_word hc] at hhan
        cases hhan

theorem terms_word (hc : isWord c = true) :
    terms none (c :: rest) = lower (c :: rest.takeWhile isWord) :: terms none (rest.dropWhile isWord) := by
  rw [terms, startTerm, if_pos hc, terms_after_word hc]
  rfl

/-- The terms of a run of two Han characters or more. -/
def pairs : List Char → List (List Char)
  | a :: b :: run => [a, b] :: pairs (b :: run)
  | _ => []

theorem terms_han {previous : Option Char} (hc : isHanChar c = true) (hd : isHanChar d = true) :
    terms previous (c :: d :: rest) =
      pairs (c :: d :: rest.takeWhile isHanChar) ++ terms none (rest.dropWhile isHanChar) := by
  induction rest generalizing previous c d with
  | nil =>
    simp [terms, startTerm, not_word_of_han hc, not_word_of_han hd, hc, hd, pairs]
  | cons e rest ih =>
    have hstart : startTerm previous (c :: d :: e :: rest) = some [c, d] := by
      simp [startTerm, not_word_of_han hc, hc, hd]
    rw [terms, hstart, pairs]
    cases he : isHanChar e with
    | true =>
      rw [List.takeWhile_cons_of_pos he, List.dropWhile_cons_of_pos he, ih hd he]
      rfl
    | false =>
      have hnone : startTerm (some c) (d :: e :: rest) = none := by
        simp [startTerm, not_word_of_han hd, hd, he, hc]
      have hboundary : terms (some d) (e :: rest) = terms none (e :: rest) := by
        refine terms_boundary (fun hword => ?_) (fun _ e' he' => ?_)
        · rw [not_word_of_han hd] at hword
          cases hword
        · rw [List.head?_cons, Option.mem_some] at he'
          rw [← he', he]
      rw [List.takeWhile_cons_of_neg (by rw [he]; decide), List.dropWhile_cons_of_neg (by rw [he]; decide), terms,
        hnone, hboundary]
      rfl

/-- A Han character on its own. -/
theorem terms_single (hc : isHanChar c = true) (hrest : ∀ d ∈ rest.head?, isHanChar d = false) :
    terms none (c :: rest) = [c] :: terms none rest := by
  have hstart : startTerm none (c :: rest) = some [c] := by
    cases rest with
    | nil => simp [startTerm, not_word_of_han hc, hc]
    | cons d rest => simp [startTerm, not_word_of_han hc, hc, hrest d rfl]
  rw [terms, hstart, terms_boundary (fun hword => ?_) (fun _ => hrest)]
  · rfl
  · rw [not_word_of_han hc] at hword
    cases hword

/-! ## The scanner -/

/-- What `add` asks of a term. -/
def wanted (term : List Char) : Bool := term ≠ [] ∧ term.length ≤ 64

theorem add_eq (term : List Char) : add maximumTerms kept term = Distinct.add wanted maximumTerms kept term := by
  simp only [add, Distinct.add, wanted, decide_eq_true_eq, and_assoc]

theorem addPairs_eq (run : List Char) :
    addPairs maximumTerms run kept = (pairs run).foldl (Distinct.add wanted maximumTerms) kept := by
  induction run generalizing kept with
  | nil => rfl
  | cons a run ih =>
    cases run with
    | nil => rfl
    | cons b run =>
      rw [addPairs, pairs, List.foldl_cons, ← add_eq]
      split
      · next h => rw [Distinct.foldl_add_of_full h]
      · rw [ih]

theorem scan_eq (text : List Char) :
    scan maximumTerms text kept = (terms none text).foldl (Distinct.add wanted maximumTerms) kept := by
  fun_induction scan maximumTerms text kept with
  | case1 kept => rfl
  | case2 c rest kept hless hc ih => rw [ih, terms_word hc, List.foldl_cons, add_eq]
  | case3 c rest kept hless hword hc ih =>
    rw [ih]
    cases rest with
    | nil =>
      rw [terms_single hc (by simp), List.foldl_cons, ← add_eq]
      rfl
    | cons d rest =>
      cases hd : isHanChar d with
      | true =>
        rw [List.takeWhile_cons_of_pos hd, List.dropWhile_cons_of_pos hd, terms_han hc hd, List.foldl_append,
          addRun, if_neg (by simp), addPairs_eq]
      | false =>
        have hsingle : ∀ e ∈ (d :: rest).head?, isHanChar e = false := by
          intro e he
          rw [List.head?_cons, Option.mem_some] at he
          rw [← he, hd]
        rw [List.takeWhile_cons_of_neg (by rw [hd]; decide), List.dropWhile_cons_of_neg (by rw [hd]; decide),
          terms_single hc hsingle, List.foldl_cons, ← add_eq]
        rfl
  | case4 c rest kept hless hword hhan ih =>
    have hstart : startTerm none (c :: rest) = none := by
      simp [startTerm, hword, hhan]
    rw [ih, terms, hstart, terms_boundary (fun h => absurd h hword) (fun h => absurd h hhan)]
    rfl
  | case5 c rest kept hfull => rw [Distinct.foldl_add_of_full (not_lt.1 hfull)]

/-! ## Code units -/

theorem basic_of_word (h : isWord c = true) : c.toNat < 128 := by
  simp only [isWord, isAlnum, Bool.or_eq_true, Bool.and_eq_true, decide_eq_true_eq] at h
  omega

theorem basic_of_han (h : isHanChar c = true) : c.toNat < 0x10000 := by
  simp only [isHanChar, isHan, Bool.or_eq_true, Bool.and_eq_true, decide_eq_true_eq] at h
  omega

theorem isWord_units (c : Char) : Js.isWord (Utf16.units c) = isWord c := by
  by_cases h : c.toNat < 0x10000
  · rw [Utf16.units_of_basic h]
    rfl
  · obtain ⟨u, v, hunits, -⟩ := Utf16.units_of_not_basic h
    rw [hunits]
    show false = isWord c
    cases hc : isWord c with
    | false => rfl
    | true =>
      have := basic_of_word hc
      omega

theorem isHan_units (c : Char) : Js.isHanChar (Utf16.units c) = isHanChar c := by
  rw [Js.isHanChar, Utf16.codePointAt_units]
  rfl

theorem toNat_toLower (h : isWord c = true) :
    c.toLower.toNat = if 65 ≤ c.toNat ∧ c.toNat ≤ 90 then c.toNat + 32 else c.toNat := by
  have hall : ∀ n < 128, (Char.ofNat n).toLower.toNat = if 65 ≤ n ∧ n ≤ 90 then n + 32 else n := by decide
  have hc := hall c.toNat (basic_of_word h)
  rwa [Char.ofNat_toNat] at hc

/-- Lower case of a run of letters and digits. -/
theorem lower_encode {run : List Char} (h : ∀ c ∈ run, isWord c = true) :
    Js.lower (Utf16.encode run) = Utf16.encode (lower run) := by
  have hrun : ∀ c ∈ run, c.toNat < 0x10000 := fun c hc => (basic_of_word (h c hc)).trans (by decide)
  have hlower : ∀ c ∈ lower run, c.toNat < 0x10000 := by
    intro c hc
    obtain ⟨d, hd, rfl⟩ := List.mem_map.1 hc
    rw [toNat_toLower (h d hd)]
    have := basic_of_word (h d hd)
    split <;> omega
  rw [Utf16.encode_of_basic hrun, Utf16.encode_of_basic hlower, Js.lower, lower, List.map_map, List.map_map]
  exact List.map_congr_left fun c hc => (toNat_toLower (h c hc)).symm

/-- A term of characters of one unit each. -/
theorem add_encode {term : List Char} (h : ∀ c ∈ term, c.toNat < 0x10000) :
    Js.add maximumTerms (kept.map Utf16.encode) (Utf16.encode term) =
      (add maximumTerms kept term).map Utf16.encode := by
  have hlength : (Utf16.encode term).length = term.length := by
    rw [Utf16.encode_of_basic h, List.length_map]
  have hmem : Utf16.encode term ∈ kept.map Utf16.encode ↔ term ∈ kept :=
    List.mem_map_of_injective Utf16.encode_injective
  have hempty : Utf16.encode term = [] ↔ term = [] := by
    rw [← List.length_eq_zero_iff, hlength, List.length_eq_zero_iff]
  simp only [Js.add, add, hlength, hmem, ne_eq, hempty, List.length_map]
  split
  · rw [List.map_append, List.map_singleton]
  · rfl

theorem addPairs_encode {run : List Char} (h : ∀ c ∈ run, isHanChar c = true) :
    Js.addPairs maximumTerms (run.map Utf16.units) (kept.map Utf16.encode) =
      (addPairs maximumTerms run kept).map Utf16.encode := by
  induction run generalizing kept with
  | nil => rfl
  | cons a run ih =>
    cases run with
    | nil => rfl
    | cons b run =>
      obtain ⟨ha, hrest⟩ := List.forall_mem_cons.1 h
      have hb := hrest b List.mem_cons_self
      have hpair : ∀ c ∈ [a, b], c.toNat < 0x10000 := by
        rintro c (_ | ⟨_, _ | ⟨_, hc⟩⟩)
        · exact basic_of_han ha
        · exact basic_of_han hb
        · cases hc
      have hunits : Utf16.units a ++ Utf16.units b = Utf16.encode [a, b] := by
        rw [Utf16.encode, List.flatMap_cons, List.flatMap_singleton]
      rw [List.map_cons, List.map_cons, Js.addPairs, addPairs, hunits, add_encode hpair, List.length_map]
      split
      · rfl
      · exact ih hrest

theorem addRun_encode {run : List Char} (h : ∀ c ∈ run, isHanChar c = true) :
    Js.addRun maximumTerms (run.map Utf16.units) (kept.map Utf16.encode) =
      (addRun maximumTerms run kept).map Utf16.encode := by
  match run with
  | [] => rfl
  | [a] =>
    have ha : ∀ c ∈ [a], c.toNat < 0x10000 := fun c hc => basic_of_han (h c hc)
    have hunits : Utf16.units a = Utf16.encode [a] := by rw [Utf16.encode, List.flatMap_singleton]
    rw [List.map_singleton, Js.addRun, addRun, if_pos List.length_singleton, hunits, add_encode ha]
  | a :: b :: run =>
    rw [addRun, if_neg (by simp)]
    exact addPairs_encode h

theorem map_takeWhile {p : Char → Bool} {q : List ℕ → Bool} (h : ∀ c, q (Utf16.units c) = p c) (l : List Char) :
    (l.map Utf16.units).takeWhile q = (l.takeWhile p).map Utf16.units := by
  rw [List.takeWhile_map]
  exact congrArg _ (congrArg (List.takeWhile · l) (funext h))

theorem map_dropWhile {p : Char → Bool} {q : List ℕ → Bool} (h : ∀ c, q (Utf16.units c) = p c) (l : List Char) :
    (l.map Utf16.units).dropWhile q = (l.dropWhile p).map Utf16.units := by
  rw [List.dropWhile_map]
  exact congrArg _ (congrArg (List.dropWhile · l) (funext h))

theorem all_takeWhile {p : Char → Bool} (hc : p c = true) : ∀ d ∈ c :: rest.takeWhile p, p d = true := by
  intro d hd
  rcases List.mem_cons.1 hd with rfl | hd
  · exact hc
  · exact List.mem_takeWhile_imp hd

/-- **Code units are scanned as code points are.** -/
theorem scan_encode (text : List Char) :
    Js.scan maximumTerms (text.map Utf16.units) (kept.map Utf16.encode) =
      (scan maximumTerms text kept).map Utf16.encode := by
  fun_induction scan maximumTerms text kept with
  | case1 kept => rw [List.map_nil, Js.scan]
  | case2 c rest kept hless hc ih =>
    have hflat : (Utf16.units c :: (rest.takeWhile isWord).map Utf16.units).flatten =
        Utf16.encode (c :: rest.takeWhile isWord) := rfl
    have hbasic : ∀ d ∈ lower (c :: rest.takeWhile isWord), d.toNat < 0x10000 := by
      intro d hd
      obtain ⟨e, he, rfl⟩ := List.mem_map.1 hd
      have hword := all_takeWhile hc e he
      have := basic_of_word hword
      rw [toNat_toLower hword]
      split <;> omega
    rw [List.map_cons, Js.scan, List.length_map, if_pos hless, isWord_units, if_pos hc, map_takeWhile isWord_units,
      map_dropWhile isWord_units, hflat, lower_encode (all_takeWhile hc), add_encode hbasic, ih]
  | case3 c rest kept hless hword hc ih =>
    have hrun : Js.addRun maximumTerms ((c :: rest.takeWhile isHanChar).map Utf16.units) (kept.map Utf16.encode) = _ :=
      addRun_encode (all_takeWhile hc)
    rw [List.map_cons] at hrun
    rw [List.map_cons, Js.scan, List.length_map, if_pos hless, isWord_units, if_neg hword, isHan_units, if_pos hc,
      map_takeWhile isHan_units, map_dropWhile isHan_units, hrun, ih]
  | case4 c rest kept hless hword hhan ih =>
    rw [List.map_cons, Js.scan, List.length_map, if_pos hless, isWord_units, if_neg hword, isHan_units, if_neg hhan,
      ih]
  | case5 c rest kept hfull => rw [List.map_cons, Js.scan, List.length_map, if_neg hfull]

/-! ## Where terms start -/

/-- The terms of the rest of a text, by where they start. -/
theorem terms_eq (before rest : List Char) : terms before.getLast? rest =
    (List.range' before.length rest.length).filterMap fun i =>
      startTerm ((before ++ rest).take i).getLast? ((before ++ rest).drop i) := by
  induction rest generalizing before with
  | nil => rfl
  | cons c rest ih =>
    have hnext := ih (before ++ [c])
    rw [List.getLast?_append, List.getLast?_singleton, Option.some_or, List.append_assoc, List.length_append,
      List.singleton_append, List.length_singleton] at hnext
    rw [terms, List.length_cons, List.range'_succ, List.filterMap_cons, List.take_left, List.drop_left, hnext]
    cases startTerm before.getLast? (c :: rest) <;> rfl

theorem takeWhile_maximal {p : Char → Bool} {run after : List Char} (hrun : ∀ c ∈ run, p c = true)
    (hafter : ∀ c ∈ after.head?, p c = false) : (run ++ after).takeWhile p = run := by
  rw [List.takeWhile_append_of_pos hrun]
  cases after with
  | nil => simp
  | cons d after => rw [List.takeWhile_cons_of_neg (by rw [hafter d rfl]; decide), List.append_nil]

theorem startTerm_pair {previous : Option Char} (hc : isHanChar c = true) (hd : isHanChar d = true) :
    startTerm previous (c :: d :: rest) = some [c, d] := by
  simp [startTerm, not_word_of_han hc, hc, hd]

theorem startTerm_single {previous : Option Char} (hc : isHanChar c = true)
    (hrest : ∀ d ∈ rest.head?, isHanChar d = false) :
    startTerm previous (c :: rest) = if previous.any isHanChar then none else some [c] := by
  cases rest with
  | nil => simp [startTerm, not_word_of_han hc, hc]
  | cons d rest => simp [startTerm, not_word_of_han hc, hc, hrest d rfl]

theorem any_eq_false {p : Char → Bool} {previous : Option Char} :
    previous.any p = false ↔ ∀ d ∈ previous, p d = false := by
  cases previous with
  | none => simp
  | some d => simp

theorem head?_dropWhile_isWord : ∀ d ∈ (rest.dropWhile isWord).head?, isWord d = false := by
  intro d hd
  have hnot := List.head?_dropWhile_not isWord rest
  rwa [Option.mem_def.1 hd] at hnot

/-- A term starts where the scanner meets it. -/
theorem termAt_iff {text t : List Char} {i : ℕ} : TermAt text i t ↔
    startTerm (text.take i).getLast? (text.drop i) = some t ∧ wanted t = true := by
  have hlength {run : List Char} : (lower run).length = run.length := List.length_map _
  constructor
  · intro h
    cases h with
    | word before run after htext hrun hword hbefore hafter hlong =>
      obtain ⟨c, run, rfl⟩ := List.exists_cons_of_ne_nil hrun
      obtain ⟨hc, hrest⟩ := List.forall_mem_cons.1 hword
      rw [htext, List.append_assoc, List.take_left, List.drop_left, List.cons_append, startTerm, if_pos hc,
        any_eq_false.2 hbefore, takeWhile_maximal hrest hafter]
      exact ⟨rfl, decide_eq_true ⟨by simp [lower], hlength.trans_le hlong⟩⟩
    | single before c after htext hc hbefore hafter =>
      rw [htext, List.take_left, List.drop_left, startTerm_single hc hafter, any_eq_false.2 hbefore]
      exact ⟨rfl, decide_eq_true ⟨List.cons_ne_nil _ _, by simp⟩⟩
    | pair before c d after htext hc hd =>
      rw [htext, List.take_left, List.drop_left, startTerm_pair hc hd]
      exact ⟨rfl, decide_eq_true ⟨List.cons_ne_nil _ _, by simp⟩⟩
  · rintro ⟨hstart, hwanted⟩
    cases hdrop : text.drop i with
    | nil =>
      rw [hdrop] at hstart
      cases hstart
    | cons c rest =>
      have hlt : i < text.length := by
        by_contra hge
        rw [List.drop_eq_nil_of_le (not_lt.1 hge)] at hdrop
        cases hdrop
      have hi : (text.take i).length = i := List.length_take_of_le hlt.le
      have htext : text = text.take i ++ c :: rest := by rw [← hdrop, List.take_append_drop]
      rw [hdrop] at hstart
      by_cases hc : isWord c = true
      · rw [startTerm, if_pos hc] at hstart
        cases hprevious : (text.take i).getLast?.any isWord with
        | true =>
          rw [hprevious, if_pos rfl] at hstart
          cases hstart
        | false =>
          rw [hprevious, if_neg Bool.false_ne_true, Option.some_inj] at hstart
          rw [← hstart] at hwanted ⊢
          have hsplit : text = text.take i ++ (c :: rest.takeWhile isWord) ++ rest.dropWhile isWord := by
            rw [List.append_assoc, List.cons_append, List.takeWhile_append_dropWhile]
            exact htext
          have hword := TermAt.word _ _ _ hsplit (List.cons_ne_nil _ _) (all_takeWhile hc)
            (any_eq_false.1 hprevious) head?_dropWhile_isWord
            (hlength.symm.trans_le (of_decide_eq_true hwanted).2)
          rwa [hi] at hword
      · by_cases hhan : isHanChar c = true
        · by_cases hrest : ∀ d ∈ rest.head?, isHanChar d = false
          · rw [startTerm_single hhan hrest] at hstart
            cases hprevious : (text.take i).getLast?.any isHanChar with
            | true =>
              rw [hprevious, if_pos rfl] at hstart
              cases hstart
            | false =>
              rw [hprevious, if_neg Bool.false_ne_true, Option.some_inj] at hstart
              have hsingle := TermAt.single _ c rest htext hhan (any_eq_false.1 hprevious) hrest
              rwa [hi, hstart] at hsingle
          · push Not at hrest
            obtain ⟨d, hd, hdhan⟩ := hrest
            rw [ne_eq, Bool.not_eq_false] at hdhan
            obtain ⟨after, rfl⟩ : ∃ after, rest = d :: after := by
              cases rest with
              | nil => cases hd
              | cons e after =>
                rw [List.head?_cons, Option.mem_some] at hd
                exact ⟨after, by rw [hd]⟩
            rw [startTerm_pair hhan hdhan, Option.some_inj] at hstart
            have hpair := TermAt.pair _ c d after htext hhan hdhan
            rwa [hi, hstart] at hpair
        · rw [startTerm, if_neg hc, if_neg hhan] at hstart
          cases hstart

/-- The wanted terms of a text are the ones that start somewhere. -/
theorem mem_terms {text t : List Char} : (t ∈ terms none text ∧ wanted t = true) ↔ ∃ i, TermAt text i t := by
  have heq := terms_eq [] text
  rw [List.getLast?_nil, List.length_nil, List.nil_append] at heq
  rw [heq, List.mem_filterMap]
  constructor
  · rintro ⟨⟨i, -, hstart⟩, hwanted⟩
    exact ⟨i, termAt_iff.2 ⟨hstart, hwanted⟩⟩
  · rintro ⟨i, hterm⟩
    obtain ⟨hstart, hwanted⟩ := termAt_iff.1 hterm
    refine ⟨⟨i, ?_, hstart⟩, hwanted⟩
    rw [List.mem_range'_1]
    refine ⟨Nat.zero_le _, ?_⟩
    by_contra hge
    rw [List.drop_eq_nil_of_le (by omega)] at hstart
    cases hstart

/-- What stands first in the list of terms starts first in the text. -/
theorem starts_before {text t u : List Char} (h : Distinct.Before (terms none text) t u) (ht : wanted t = true) :
    ∃ i, TermAt text i t ∧ ∀ j, TermAt text j u → i < j := by
  obtain ⟨xs, ys, hsplit, hu, hne⟩ := h
  have heq := terms_eq [] text
  rw [List.getLast?_nil, List.length_nil, List.nil_append] at heq
  rw [heq, List.filterMap_eq_append_iff] at hsplit
  obtain ⟨l₁, l₂, hrange, hxs, hrest⟩ := hsplit
  rw [List.filterMap_eq_cons_iff] at hrest
  obtain ⟨m₁, i, m₂, rfl, hnone, hstart, -⟩ := hrest
  refine ⟨i, termAt_iff.2 ⟨hstart, ht⟩, fun j hj => ?_⟩
  obtain ⟨hstartj, -⟩ := termAt_iff.1 hj
  have hsorted : (List.range' 0 text.length).Pairwise (· < ·) := List.pairwise_lt_range' _
  rw [hrange] at hsorted
  have hi : i ∈ List.range' 0 text.length := by
    rw [hrange]
    simp
  by_contra hle
  have hlt : j < i := by
    refine lt_of_le_of_ne (not_lt.1 hle) fun heq => hne ?_
    rw [← Option.some_inj, ← hstart, ← hstartj, heq]
  have hj : j ∈ List.range' 0 text.length := by
    rw [List.mem_range'_1] at hi ⊢
    omega
  rw [hrange, List.mem_append, List.mem_append, List.mem_cons] at hj
  rcases hj with hj | hj | rfl | hj
  · refine hu ?_
    rw [← hxs]
    exact List.mem_filterMap.2 ⟨j, hj, hstartj⟩
  · rw [hnone j hj] at hstartj
    cases hstartj
  · exact absurd hlt (lt_irrefl _)
  · have hafter := (List.pairwise_append.1 (List.pairwise_append.1 hsorted).2.1).2.1
    exact absurd (List.rel_of_pairwise_cons hafter hj) (not_lt.2 hlt.le)

/-- **Both scanners return the distinct terms of the text, in the order of first
    occurrence, up to the bound.** -/
theorem tokens_agree (nfkc : List Char → List Char) (normalize : List ℕ → List ℕ)
    (hnfkc : ∀ s, normalize (Utf16.encode s) = Utf16.encode (nfkc s)) (value : List Char) (maximumTerms : ℤ) :
    Js.tokenize normalize (Utf16.encode value) maximumTerms =
        (tokenize nfkc value maximumTerms).map (List.map Utf16.encode) ∧
      ∀ terms, tokenize nfkc value maximumTerms = .ok terms →
        terms.Nodup ∧ (terms.length : ℤ) ≤ maximumTerms ∧ (∀ t ∈ terms, ∃ i, TermAt (nfkc value) i t) ∧
        ((terms.length : ℤ) < maximumTerms → ∀ i t, TermAt (nfkc value) i t → t ∈ terms) ∧
        terms.Pairwise fun t u => ∃ i, TermAt (nfkc value) i t ∧ ∀ j, TermAt (nfkc value) j u → i < j := by
  by_cases hbound : 1 ≤ maximumTerms ∧ maximumTerms ≤ ASSISTANT_MEMORY_MAX_INDEX_TERMS
  · have hjs : ¬ (maximumTerms < 1 ∨ ASSISTANT_MEMORY_MAX_INDEX_TERMS < maximumTerms) := by omega
    rw [Js.tokenize, tokenize, if_neg hjs, if_pos hbound, hnfkc, Utf16.arrayFrom_encode]
    refine ⟨congrArg Except.ok (@scan_encode maximumTerms.toNat [] (nfkc value)), ?_⟩
    rintro terms' ⟨⟩
    rw [scan_eq]
    have hkept := Distinct.keep_spec wanted maximumTerms.toNat (terms none (nfkc value))
    rw [Distinct.keep] at hkept
    generalize (terms none (nfkc value)).foldl (Distinct.add wanted maximumTerms.toNat) [] = kept at hkept ⊢
    have hlength := hkept.length_le
    refine ⟨hkept.nodup, by omega, fun t ht => ?_, fun hless i t hterm => ?_, ?_⟩
    · exact mem_terms.1 ⟨(hkept.fit t ht).2, (hkept.fit t ht).1⟩
    · obtain ⟨hmem, hwanted⟩ := mem_terms.2 ⟨i, hterm⟩
      exact hkept.complete (by omega) t hmem hwanted
    · exact hkept.ordered.imp_of_mem fun ht _ hbefore => starts_before hbefore (hkept.fit _ ht).1
  · have hjs : maximumTerms < 1 ∨ ASSISTANT_MEMORY_MAX_INDEX_TERMS < maximumTerms := by omega
    rw [Js.tokenize, tokenize, if_pos hjs, if_neg hbound]
    exact ⟨rfl, fun terms h => by cases h⟩

/-- A text that is its own normal form. -/
theorem tokens_agree_sample : Js.tokenize id (Utf16.encode "XAU 黄金价 xau".toList) 3 =
    (tokenize id "XAU 黄金价 xau".toList 3).map (List.map Utf16.encode) :=
  (tokens_agree id id (fun _ => rfl) "XAU 黄金价 xau".toList 3).1

end Xauusd.Memory.Tokens
