/-
  Texts compared by weights of their characters, and by the characters.

  * `firstDiff`: the first characters in which two texts differ;
  * `map_lt_iff`: **two orders of the characters order two texts alike if they
    order their first difference alike**;
  * `Shaped`: a text has a digit where its shape has `#`, and the shape's
    character elsewhere;
  * `firstDiff_shaped`: two texts of shapes that part only at some characters
    differ first in two digits, or in two of these.
-/
import Mathlib

namespace Collate

section
variable {α β : Type*} [DecidableEq α] {x y : List α} {a b : α}

def firstDiff : List α → List α → Option (α × α)
  | a :: x, b :: y => if a = b then firstDiff x y else some (a, b)
  | _, _ => none

theorem firstDiff_eq_some : firstDiff x y = some (a, b) ↔
    a ≠ b ∧ ∃ start x' y', x = start ++ a :: x' ∧ y = start ++ b :: y' := by
  constructor
  · intro h
    induction x generalizing y with
    | nil => cases h
    | cons c x ih =>
      cases y with
      | nil => cases h
      | cons d y =>
        rw [firstDiff] at h
        split at h
        · next hcd =>
          subst hcd
          obtain ⟨hne, start, x', y', rfl, rfl⟩ := ih h
          exact ⟨hne, c :: start, x', y', rfl, rfl⟩
        · next hcd =>
          cases h
          exact ⟨hcd, [], x, y, rfl, rfl⟩
  · rintro ⟨hne, start, x', y', rfl, rfl⟩
    induction start with
    | nil => exact if_neg hne
    | cons c start ih => rw [List.cons_append, List.cons_append, firstDiff, if_pos rfl, ih]

theorem firstDiff_map [DecidableEq β] {w : α → β} (hw : Function.Injective w) (x y : List α) :
    firstDiff (x.map w) (y.map w) = (firstDiff x y).map (Prod.map w w) := by
  induction x generalizing y with
  | nil => rfl
  | cons a x ih =>
    cases y with
    | nil => rfl
    | cons b y =>
      rw [List.map_cons, List.map_cons, firstDiff, firstDiff]
      by_cases hab : a = b
      · rw [if_pos hab, if_pos (congrArg w hab), ih]
      · rw [if_neg hab, if_neg fun h => hab (hw h)]
        rfl

end

section
variable {α β : Type*} [LinearOrder α] [LinearOrder β] {x y : List α}

theorem lt_iff_of_firstDiff {a b : α} (h : firstDiff x y = some (a, b)) : x < y ↔ a < b := by
  obtain ⟨hne, start, x', y', rfl, rfl⟩ := firstDiff_eq_some.1 h
  clear h
  induction start with
  | nil =>
    rw [List.nil_append, List.nil_append, List.cons_lt_cons_iff]
    exact ⟨fun h => h.resolve_right fun h => hne h.1, .inl⟩
  | cons c start ih =>
    rw [List.cons_append, List.cons_append, List.cons_lt_cons_iff]
    simp only [lt_irrefl, true_and, false_or]
    exact ih

theorem lt_iff_of_none (h : firstDiff x y = none) : x < y ↔ x.length < y.length := by
  induction x generalizing y with
  | nil => cases y <;> simp
  | cons a x ih =>
    cases y with
    | nil => simp
    | cons b y =>
      rw [firstDiff] at h
      split at h
      · next hab =>
        rw [List.cons_lt_cons_iff, hab]
        simp only [lt_irrefl, true_and, false_or, List.length_cons, Nat.add_lt_add_iff_right]
        exact ih h
      · cases h

/-- Two orders of the characters order two texts alike if they order their first
    difference alike. -/
theorem map_lt_iff {w : α → β} (hw : Function.Injective w)
    (h : ∀ d ∈ firstDiff x y, (w d.1 < w d.2 ↔ d.1 < d.2)) : x.map w < y.map w ↔ x < y := by
  have hmap := firstDiff_map hw x y
  cases hd : firstDiff x y with
  | none =>
    rw [hd] at hmap
    rw [lt_iff_of_none hd, lt_iff_of_none hmap, List.length_map, List.length_map]
  | some d =>
    obtain ⟨a, b⟩ := d
    rw [hd] at hmap
    rw [lt_iff_of_firstDiff hd, lt_iff_of_firstDiff hmap]
    exact h (a, b) (by rw [hd]; rfl)

end

/-! ## Shapes -/

def isDigit (c : Char) : Bool := '0' ≤ c && c ≤ '9'

/-- The text has the shape. -/
def Shaped (shape s : List Char) : Prop := List.Forall₂ (fun p c => if p = '#' then isDigit c = true else c = p) shape s

instance (shape s : List Char) : Decidable (Shaped shape s) := inferInstanceAs (Decidable (List.Forall₂ _ shape s))

/-- The shapes part only where both have one of some characters, if at all. -/
def partsAt (marks : List Char) : List Char → List Char → Bool
  | p :: shape, q :: shape' =>
    if p = q then partsAt marks shape shape' else p ∈ marks && q ∈ marks && p ≠ '#' && q ≠ '#'
  | _, _ => true

theorem firstDiff_shaped {marks shape shape' s t : List Char} (hs : Shaped shape s) (ht : Shaped shape' t)
    (h : partsAt marks shape shape' = true) :
    ∀ d ∈ firstDiff s t, isDigit d.1 ∧ isDigit d.2 ∨ d.1 ∈ marks ∧ d.2 ∈ marks := by
  induction hs generalizing shape' t with
  | nil => cases t <;> simp [firstDiff]
  | @cons p c shape s hc _ ih =>
    cases ht with
    | nil => simp [firstDiff]
    | @cons q e shape' t he ht =>
      rw [partsAt] at h
      intro d hd
      rw [firstDiff] at hd
      split at hd
      · next hce =>
        split at h
        · exact ih ht h d hd
        · next hpq =>
          -- the shapes part here, so these are two marks, which the texts repeat
          simp only [Bool.and_eq_true, decide_eq_true_eq, ne_eq, decide_not, Bool.not_eq_true',
            decide_eq_false_iff_not] at h
          rw [if_neg h.1.2] at hc
          rw [if_neg h.2] at he
          exact absurd (hc.symm.trans (hce.trans he)) hpq
      · next hce =>
        cases hd
        split at h
        · next hpq =>
          subst hpq
          by_cases hp : p = '#'
          · rw [if_pos hp] at hc he
            exact .inl ⟨hc, he⟩
          · rw [if_neg hp] at hc he
            exact absurd (hc.trans he.symm) hce
        · simp only [Bool.and_eq_true, decide_eq_true_eq, ne_eq, decide_not, Bool.not_eq_true',
            decide_eq_false_iff_not] at h
          rw [if_neg h.1.2] at hc
          rw [if_neg h.2] at he
          rw [hc, he]
          exact .inr h.1.1

end Collate
