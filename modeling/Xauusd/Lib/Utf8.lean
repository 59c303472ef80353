/-
  The UTF-8 bytes of a text.

  * `encode`: the bytes;
  * `encode_lt_iff`: the lexicographic order of the bytes is that of the
    characters;
  * `encode_injective`: different texts have different bytes.
-/
import Mathlib
import Xauusd.Lib.Sha256

namespace Utf8

def encode (s : List Char) : List ℕ := s.flatMap Sha256.utf8

@[simp] theorem encode_nil : encode [] = [] := rfl

@[simp] theorem encode_cons (c : Char) (s : List Char) : encode (c :: s) = Sha256.utf8 c ++ encode s := rfl

@[simp] theorem encode_append (s t : List Char) : encode (s ++ t) = encode s ++ encode t := List.flatMap_append

theorem encode_flatMap {α : Type*} (l : List α) (f : α → List Char) :
    encode (l.flatMap f) = l.flatMap fun a => encode (f a) := List.flatMap_assoc

theorem utf8_ne_nil (c : Char) : Sha256.utf8 c ≠ [] := by
  simp only [Sha256.utf8]
  split_ifs <;> simp

/-- Characters are told apart by their bytes, whatever follows. -/
theorem utf8_lt {c d : Char} (h : c < d) (x y : List ℕ) : Sha256.utf8 c ++ x < Sha256.utf8 d ++ y := by
  have hval : c.toNat < d.toNat := h
  simp only [Sha256.utf8]
  split_ifs
  all_goals simp only [List.cons_append, List.nil_append, List.cons_lt_cons_iff]
  all_goals omega

theorem encode_lt {s t : List Char} (h : s < t) : encode s < encode t := by
  induction h with
  | nil =>
    rename_i c t
    cases hbytes : Sha256.utf8 c with
    | nil => exact absurd hbytes (utf8_ne_nil c)
    | cons b bytes =>
      rw [encode_cons, hbytes]
      exact List.nil_lt_cons _ _
  | @cons c s t _ ih =>
    rw [encode_cons, encode_cons]
    exact List.append_left_lt ih
  | rel h => exact utf8_lt h _ _

theorem encode_injective : Function.Injective encode := by
  intro s t h
  rcases lt_trichotomy s t with hlt | heq | hlt
  · exact absurd h (encode_lt hlt).ne
  · exact heq
  · exact absurd h.symm (encode_lt hlt).ne

theorem encode_lt_iff {s t : List Char} : encode s < encode t ↔ s < t := by
  refine ⟨fun h => ?_, encode_lt⟩
  rcases lt_trichotomy s t with hlt | rfl | hlt
  · exact hlt
  · exact absurd h (lt_irrefl _)
  · exact absurd h (lt_asymm (encode_lt hlt))

theorem encode_le_iff {s t : List Char} : encode s ≤ encode t ↔ s ≤ t := by
  rw [← not_lt, encode_lt_iff, not_lt]

/-! ## ASCII -/

theorem utf8_ascii {c : Char} (h : c.toNat < 0x80) : Sha256.utf8 c = [c.toNat] := by
  simp only [Sha256.utf8]
  rw [if_pos h]

theorem encode_ascii {s : List Char} (h : ∀ c ∈ s, c.toNat < 0x80) : encode s = s.map Char.toNat := by
  induction s with
  | nil => rfl
  | cons c s ih =>
    rw [encode_cons, utf8_ascii (h c List.mem_cons_self), ih fun c hc => h c (List.mem_cons_of_mem _ hc)]
    rfl

theorem length_utf8 (c : Char) : (Sha256.utf8 c).length = c.utf8Size := by
  have hval : c.val.toNat = c.toNat := rfl
  simp only [Sha256.utf8, Char.utf8Size, UInt32.le_iff_toNat_le, hval, UInt32.toNat_ofNatLT]
  split_ifs <;> first | rfl | omega

theorem length_encode (s : List Char) : (encode s).length = (s.map Char.utf8Size).sum := by
  induction s with
  | nil => rfl
  | cons c s ih => rw [encode_cons, List.length_append, length_utf8, ih, List.map_cons, List.sum_cons]

end Utf8
