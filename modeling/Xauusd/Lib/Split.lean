/-
  Properties of every element of a list, given the elements before it.

  * `Splits X l`: `X` holds of each element and its prefix;
  * `splits_concat`: one more element.
-/
import Mathlib.Data.List.Induction

variable {α : Type*} {X Y : List α → α → Prop}

/-- The property holds of every element and the elements before it. -/
def Splits (X : List α → α → Prop) (l : List α) : Prop :=
  ∀ before a after, l = before ++ a :: after → X before a

theorem splits_nil : Splits X [] := by
  intro before a after h
  simp at h

theorem splits_concat {l : List α} {a : α} : Splits X (l ++ [a]) ↔ Splits X l ∧ X l a := by
  constructor
  · intro h
    refine ⟨fun before b after hl => h before b (after ++ [a]) (by simp [hl]), h l a [] rfl⟩
  · rintro ⟨hl, ha⟩ before b after heq
    rcases List.eq_nil_or_concat after with rfl | ⟨after', c, rfl⟩
    · obtain ⟨rfl, hb⟩ := List.append_inj' heq rfl
      cases hb
      exact ha
    · rw [List.concat_eq_append, ← List.cons_append, ← List.append_assoc] at heq
      exact hl before b after' (List.append_inj_left' heq rfl)

/-- Two properties that agree wherever the invariant of the prefix holds, and
    the second of which keeps the invariant, hold of the same lists. -/
theorem splits_iff {I : List α → Prop} (hnil : I []) (hiff : ∀ l a, I l → (X l a ↔ Y l a))
    (hkeep : ∀ l a, I l → Y l a → I (l ++ [a])) (l : List α) : Splits X l ↔ Splits Y l := by
  have hboth : (Splits X l ↔ Splits Y l) ∧ (Splits Y l → I l) := by
    induction l using List.reverseRecOn with
    | nil => exact ⟨⟨fun _ => splits_nil, fun _ => splits_nil⟩, fun _ => hnil⟩
    | append_singleton l a ih =>
      obtain ⟨ihXY, ihI⟩ := ih
      rw [splits_concat, splits_concat]
      refine ⟨⟨fun h => ?_, fun h => ?_⟩, fun h => hkeep l a (ihI h.1) h.2⟩
      · have hY := ihXY.1 h.1
        exact ⟨hY, (hiff l a (ihI hY)).1 h.2⟩
      · exact ⟨ihXY.2 h.1, (hiff l a (ihI h.1)).2 h.2⟩
  exact hboth.1
