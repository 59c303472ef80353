/-
  A list cut into batches, greedily: a row joins the open batch unless the
  longer batch would be over a limit, and opens the next one then.

  * `push`, `finish`, `cut`: one row, the end of the rows, and the whole list;
  * `Greedy`: nothing is lost or moved, a batch is over the limit only if it is
    a single row, and none could have taken the first row of the next one;
  * `greedy_cut`: **the cut is greedy**, whatever the limit.
-/
import Mathlib

namespace Batching

variable {α : Type*}

/-- The closed batches, and the open one. -/
structure State (α : Type*) where
  batches : List (List α)
  current : List α

def State.finish (s : State α) : List (List α) :=
  if s.current ≠ [] then s.batches ++ [s.current] else s.batches

section
variable (full : List α → Bool)

def push (s : State α) (row : α) : State α :=
  if s.current ≠ [] ∧ full (s.current ++ [row]) then ⟨s.batches ++ [s.current], [row]⟩
  else ⟨s.batches, s.current ++ [row]⟩

def cut (rows : List α) : List (List α) := (rows.foldl (push full) ⟨[], []⟩).finish

structure Greedy (rows : List α) (batches : List (List α)) : Prop where
  nonempty : ∀ b ∈ batches, b ≠ []
  flatten : batches.flatten = rows
  fits : ∀ b ∈ batches, full b = false ∨ b.length = 1
  tight : batches.IsChain fun b c => ∃ row ∈ c.head?, full (b ++ [row])

end

variable {full : List α → Bool} {rows : List α} {s : State α}

/-- Before a row opens a batch, there is none. -/
def Opened (s : State α) : Prop := s.current = [] → s.batches = []

theorem opened_push (s : State α) (row : α) : (push full s row).current ≠ [] := by
  rw [push]
  split
  · exact List.cons_ne_nil _ _
  · exact List.append_ne_nil_of_right_ne_nil _ (List.cons_ne_nil _ _)

theorem finish_of_ne (h : s.current ≠ []) : s.finish = s.batches ++ [s.current] := if_pos h

/-- A row that the open batch cannot take closes it. -/
theorem Greedy.close (h : Greedy full rows (s.batches ++ [s.current])) {row : α}
    (hfull : full (s.current ++ [row]) = true) :
    Greedy full (rows ++ [row]) (s.batches ++ [s.current] ++ [[row]]) where
  nonempty := by
    intro b hb
    rcases List.mem_append.1 hb with hb | hb
    · exact h.nonempty b hb
    · rw [List.mem_singleton.1 hb]
      exact List.cons_ne_nil _ _
  flatten := by rw [List.flatten_append, h.flatten, List.flatten_singleton]
  fits := by
    intro b hb
    rcases List.mem_append.1 hb with hb | hb
    · exact h.fits b hb
    · rw [List.mem_singleton.1 hb]
      exact .inr rfl
  tight := by
    refine List.isChain_append.2 ⟨h.tight, List.isChain_singleton _, ?_⟩
    intro b hb c hc
    rw [List.getLast?_append, List.getLast?_singleton, Option.some_or, Option.mem_some] at hb
    rw [List.head?_cons, Option.mem_some] at hc
    subst hb
    subst hc
    exact ⟨row, rfl, hfull⟩

/-- A row that the open batch can take joins it. -/
theorem Greedy.join (h : Greedy full rows (s.batches ++ [s.current])) {row : α}
    (hfull : full (s.current ++ [row]) = false) :
    Greedy full (rows ++ [row]) (s.batches ++ [s.current ++ [row]]) where
  nonempty := by
    intro b hb
    rcases List.mem_append.1 hb with hb | hb
    · exact h.nonempty b (List.mem_append_left _ hb)
    · rw [List.mem_singleton.1 hb]
      exact List.append_ne_nil_of_right_ne_nil _ (List.cons_ne_nil _ _)
  flatten := by
    have hflat := h.flatten
    rw [List.flatten_append, List.flatten_singleton] at hflat ⊢
    rw [← List.append_assoc, hflat]
  fits := by
    intro b hb
    rcases List.mem_append.1 hb with hb | hb
    · exact h.fits b (List.mem_append_left _ hb)
    · rw [List.mem_singleton.1 hb]
      exact .inl hfull
  tight := by
    have htight := h.tight
    obtain ⟨hchain, -, hlast⟩ := List.isChain_append.1 htight
    refine List.isChain_append.2 ⟨hchain, List.isChain_singleton _, ?_⟩
    intro b hb c hc
    rw [List.head?_cons, Option.mem_some] at hc
    subst hc
    obtain ⟨first, hfirst, hnext⟩ := hlast b hb s.current rfl
    exact ⟨first, by rw [List.head?_append, Option.mem_def.1 hfirst]; rfl, hnext⟩

theorem Greedy.push (hopened : Opened s) (h : Greedy full rows s.finish) (row : α) :
    Greedy full (rows ++ [row]) (push full s row).finish := by
  rw [finish_of_ne (opened_push s row)]
  by_cases hcurrent : s.current = []
  · have hrows := h.flatten
    rw [State.finish, if_neg (not_not.2 hcurrent), hopened hcurrent] at hrows
    rw [Batching.push, if_neg fun hc => hc.1 hcurrent, hcurrent, hopened hcurrent, ← hrows]
    exact ⟨by simp, by simp, by simp, List.isChain_singleton _⟩
  · rw [finish_of_ne hcurrent] at h
    rw [Batching.push]
    split
    · next hc => exact h.close hc.2
    · next hc =>
      refine h.join ?_
      rcases Bool.eq_false_or_eq_true (full (s.current ++ [row])) with ho | ho
      · exact absurd ⟨hcurrent, ho⟩ hc
      · exact ho

/-- **The cut is greedy.** -/
theorem greedy_cut (full : List α → Bool) (rows : List α) : Greedy full rows (cut full rows) := by
  suffices h : Opened (rows.foldl (Batching.push full) ⟨[], []⟩) ∧ Greedy full rows (cut full rows) from h.2
  induction rows using List.reverseRecOn with
  | nil => exact ⟨fun _ => rfl, by simp [cut, State.finish], rfl, by simp [cut, State.finish], .nil⟩
  | append_singleton rows row ih =>
    rw [cut, List.foldl_concat]
    exact ⟨fun h => absurd h (opened_push _ row), ih.2.push ih.1 row⟩

end Batching
