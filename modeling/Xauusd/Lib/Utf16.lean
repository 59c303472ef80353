/-
  Texts as JavaScript stores them, in UTF-16 code units.

  * `units`: one or two units of a character;
  * `encode`: the units of a text;
  * `arrayFrom`: a text cut into code points, two units only where a leading
    surrogate stands before a trailing one;
  * `codePointAt`: the code point at the start;
  * `arrayFrom_encode`: **cutting the units of a text gives its characters**.
-/
import Mathlib

namespace Utf16

def units (c : Char) : List ℕ :=
  if c.toNat < 0x10000 then [c.toNat]
  else [0xD800 + (c.toNat - 0x10000) / 0x400, 0xDC00 + (c.toNat - 0x10000) % 0x400]

def encode (s : List Char) : List ℕ := s.flatMap units

def leading (n : ℕ) : Bool := 0xD800 ≤ n && n < 0xDC00

def trailing (n : ℕ) : Bool := 0xDC00 ≤ n && n < 0xE000

/-- `Array.from(s)` -/
def arrayFrom : List ℕ → List (List ℕ)
  | [] => []
  | [u] => [[u]]
  | u :: v :: s => if leading u && trailing v then [u, v] :: arrayFrom s else [u] :: arrayFrom (v :: s)

/-- `s.codePointAt(0) ?? 0` -/
def codePointAt : List ℕ → ℕ
  | [] => 0
  | [u] => u
  | u :: v :: _ => if leading u && trailing v then 0x10000 + (u - 0xD800) * 0x400 + (v - 0xDC00) else u

theorem units_of_basic {c : Char} (h : c.toNat < 0x10000) : units c = [c.toNat] := if_pos h

/-- A character is no surrogate. -/
theorem not_leading (c : Char) : leading c.toNat = false := by
  have hvalid := c.valid
  rw [UInt32.isValidChar, Nat.isValidChar] at hvalid
  have hn : c.val.toNat = c.toNat := rfl
  rw [hn] at hvalid
  rw [leading, Bool.and_eq_false_iff, decide_eq_false_iff_not, decide_eq_false_iff_not]
  omega

theorem units_of_not_basic {c : Char} (h : ¬ c.toNat < 0x10000) : ∃ u v, units c = [u, v] ∧
    leading u = true ∧ trailing v = true ∧ 0x10000 + (u - 0xD800) * 0x400 + (v - 0xDC00) = c.toNat := by
  have hvalid := c.valid
  rw [UInt32.isValidChar, Nat.isValidChar] at hvalid
  have hn : c.val.toNat = c.toNat := rfl
  rw [hn] at hvalid
  refine ⟨_, _, if_neg h, ?_, ?_, ?_⟩
  · rw [leading, Bool.and_eq_true, decide_eq_true_eq, decide_eq_true_eq]
    omega
  · rw [trailing, Bool.and_eq_true, decide_eq_true_eq, decide_eq_true_eq]
    omega
  · omega

@[simp] theorem codePointAt_units (c : Char) : codePointAt (units c) = c.toNat := by
  by_cases h : c.toNat < 0x10000
  · rw [units_of_basic h, codePointAt]
  · obtain ⟨u, v, hunits, hu, hv, hcode⟩ := units_of_not_basic h
    rw [hunits, codePointAt, hu, hv, Bool.and_self, if_pos rfl, hcode]

theorem arrayFrom_cons (c : Char) (s : List ℕ) : arrayFrom (units c ++ s) = units c :: arrayFrom s := by
  by_cases h : c.toNat < 0x10000
  · rw [units_of_basic h]
    cases s with
    | nil => rfl
    | cons v s =>
      rw [List.singleton_append, arrayFrom, not_leading, Bool.false_and]
      rfl
  · obtain ⟨u, v, hunits, hu, hv, -⟩ := units_of_not_basic h
    rw [hunits, List.cons_append, List.singleton_append, arrayFrom, hu, hv, Bool.and_self, if_pos rfl]

/-- **Cutting the units of a text gives its characters.** -/
theorem arrayFrom_encode (s : List Char) : arrayFrom (encode s) = s.map units := by
  induction s with
  | nil => rfl
  | cons c s ih => rw [encode, List.flatMap_cons, arrayFrom_cons, List.map_cons, ← ih, encode]

theorem units_injective : Function.Injective units := by
  intro c d h
  have hcode := congrArg codePointAt h
  rw [codePointAt_units, codePointAt_units] at hcode
  exact Char.toNat_inj.1 hcode

theorem encode_injective : Function.Injective encode := by
  intro s t h
  have hcut := congrArg arrayFrom h
  rw [arrayFrom_encode, arrayFrom_encode] at hcut
  exact List.map_injective_iff.2 units_injective hcut

theorem encode_of_basic {s : List Char} (h : ∀ c ∈ s, c.toNat < 0x10000) : encode s = s.map Char.toNat := by
  induction s with
  | nil => rfl
  | cons c s ih =>
    obtain ⟨hc, hs⟩ := List.forall_mem_cons.1 h
    rw [encode, List.flatMap_cons, units_of_basic hc, ← encode, ih hs]
    rfl

end Utf16
