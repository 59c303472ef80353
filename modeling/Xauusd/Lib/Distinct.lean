/-
  The first occurrences in a list, up to a bound on their number.

  * `add`: an entry joins the ones kept unless it is not wanted, there already,
    or one too many;
  * `keep`: what is kept of a list;
  * `Before`: the first occurrence of an entry stands before any of another;
  * `keep_spec`: **what is kept is wanted, without duplicates and in the order
    of first occurrence, and is all that is wanted unless the bound is reached**.
-/
import Mathlib

namespace Distinct

variable {α : Type*}

section
variable [DecidableEq α] (wanted : α → Bool) (bound : ℕ)

def add (kept : List α) (a : α) : List α :=
  if wanted a ∧ a ∉ kept ∧ kept.length < bound then kept ++ [a] else kept

def keep (l : List α) : List α := l.foldl (add wanted bound) []

end

/-- Some occurrence of `a` has none of `b` before it. -/
def Before (l : List α) (a b : α) : Prop := ∃ xs ys, l = xs ++ a :: ys ∧ b ∉ xs ∧ a ≠ b

structure Kept (wanted : α → Bool) (bound : ℕ) (l kept : List α) : Prop where
  nodup : kept.Nodup
  length_le : kept.length ≤ bound
  fit : ∀ a ∈ kept, wanted a = true ∧ a ∈ l
  complete : kept.length < bound → ∀ a ∈ l, wanted a = true → a ∈ kept
  ordered : kept.Pairwise (Before l)

variable {wanted : α → Bool} {bound : ℕ} {l kept : List α} {a b : α}

theorem Before.append (h : Before l a b) (m : List α) : Before (l ++ m) a b := by
  obtain ⟨xs, ys, rfl, hb, hne⟩ := h
  exact ⟨xs, ys ++ m, by rw [List.append_assoc, List.cons_append], hb, hne⟩

/-- An entry of a list stands before one that is new to it. -/
theorem before_of_notMem (ha : a ∈ l) (hb : b ∉ l) : Before l a b := by
  obtain ⟨xs, ys, rfl⟩ := List.append_of_mem ha
  exact ⟨xs, ys, rfl, fun h => hb (List.mem_append_left _ h), fun h => hb (h ▸ ha)⟩

variable [DecidableEq α]

/-- A full list takes nothing. -/
theorem add_of_full (h : bound ≤ kept.length) : add wanted bound kept a = kept :=
  if_neg fun hc => absurd hc.2.2 (not_lt.2 h)

theorem foldl_add_of_full (h : bound ≤ kept.length) : l.foldl (add wanted bound) kept = kept := by
  induction l with
  | nil => rfl
  | cons a l ih => rw [List.foldl_cons, add_of_full h, ih]

theorem Kept.skip (h : Kept wanted bound l kept) (ha : ¬ (wanted a ∧ a ∉ kept ∧ kept.length < bound)) :
    Kept wanted bound (l ++ [a]) kept where
  nodup := h.nodup
  length_le := h.length_le
  fit b hb := ⟨(h.fit b hb).1, List.mem_append_left _ (h.fit b hb).2⟩
  complete := by
    intro hless b hb hwanted
    rcases List.mem_append.1 hb with hb | hb
    · exact h.complete hless b hb hwanted
    · rw [List.mem_singleton.1 hb] at hwanted ⊢
      by_contra hnew
      exact ha ⟨hwanted, hnew, hless⟩
  ordered := h.ordered.imp fun hab => hab.append _

omit [DecidableEq α] in
theorem Kept.take (h : Kept wanted bound l kept) (ha : wanted a ∧ a ∉ kept ∧ kept.length < bound) :
    Kept wanted bound (l ++ [a]) (kept ++ [a]) where
  nodup := by
    rw [← List.concat_eq_append]
    exact h.nodup.concat ha.2.1
  length_le := by
    rw [List.length_append, List.length_singleton]
    exact ha.2.2
  fit := by
    intro b hb
    rcases List.mem_append.1 hb with hb | hb
    · exact ⟨(h.fit b hb).1, List.mem_append_left _ (h.fit b hb).2⟩
    · rw [List.mem_singleton.1 hb]
      exact ⟨ha.1, List.mem_append_right _ List.mem_cons_self⟩
  complete := by
    intro hless b hb hwanted
    rcases List.mem_append.1 hb with hb | hb
    · exact List.mem_append_left _ (h.complete ha.2.2 b hb hwanted)
    · exact List.mem_append_right _ hb
  ordered := by
    refine List.pairwise_append.2 ⟨h.ordered.imp fun hab => hab.append _, List.pairwise_singleton _ _, ?_⟩
    intro b hb c hc
    rw [List.mem_singleton.1 hc]
    -- what is new to the kept ones is new to the list, for they are not full
    have hnew : a ∉ l := fun hal => ha.2.1 (h.complete ha.2.2 a hal ha.1)
    exact (before_of_notMem (h.fit b hb).2 hnew).append _

/-- **What is kept of a list.** -/
theorem keep_spec (wanted : α → Bool) (bound : ℕ) (l : List α) :
    Kept wanted bound l (keep wanted bound l) := by
  induction l using List.reverseRecOn with
  | nil => exact ⟨List.nodup_nil, Nat.zero_le _, by simp [keep], by simp, .nil⟩
  | append_singleton l a ih =>
    rw [keep, List.foldl_concat, ← keep, add]
    split
    · next h => exact ih.take h
    · next h => exact ih.skip h

end Distinct
