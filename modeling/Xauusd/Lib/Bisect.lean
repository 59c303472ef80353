/-
  Bisection: the loop that finds where a predicate of the positions turns false.

  * `bisect_spec`: of a predicate that holds up to some position and not from
    there on, the loop finds that position;
  * `bisect_eq_countP`: **over a list whose entries that satisfy a predicate come
    first, it counts them**.
-/
import Mathlib

/-- `while (low < high)` of a binary search. -/
def bisect (p : ℕ → Bool) (low high : ℕ) : ℕ :=
  if low < high then
    let middle := (low + high) / 2
    if p middle then bisect p (middle + 1) high else bisect p low middle
  else low
termination_by high - low

theorem bisect_spec {p : ℕ → Bool} {low high : ℕ} (h : low ≤ high)
    (hp : ∀ i j, i ≤ j → j < high → p j = true → p i = true) :
    low ≤ bisect p low high ∧ bisect p low high ≤ high ∧
      (∀ i, low ≤ i → i < bisect p low high → p i = true) ∧
      ∀ i, bisect p low high ≤ i → i < high → p i = false := by
  fun_induction bisect p low high with
  | case1 low high hlt middle hmiddle ih =>
    have hin : middle < high := by omega
    obtain ⟨hle, hge, hbelow, habove⟩ := ih (by omega) hp
    refine ⟨by omega, hge, fun i hi hlt => ?_, habove⟩
    rcases Nat.lt_or_ge middle i with hi | hi
    · exact hbelow i hi hlt
    · exact hp i middle hi hin hmiddle
  | case2 low high hlt middle hmiddle ih =>
    have hin : middle < high := by omega
    obtain ⟨hle, hge, hbelow, habove⟩ := ih (by omega) fun i j hij hj => hp i j hij (hj.trans hin)
    refine ⟨hle, by omega, hbelow, fun i hi hlt => ?_⟩
    rcases Nat.lt_or_ge i middle with hi' | hi'
    · exact habove i hi hi'
    · by_contra hnot
      exact hmiddle (hp middle i hi' hlt (by simpa using hnot))
  | case3 low high hge =>
    exact ⟨le_rfl, h, fun i hi hlt => absurd hlt (by omega), fun i hi hlt => absurd hlt (by omega)⟩

/-- The entries of a list that satisfy a predicate, if they come first. -/
theorem bisect_eq_countP {α : Type*} {l : List α} {p : ℕ → Bool} {q : α → Bool}
    (hpq : ∀ i (hi : i < l.length), p i = q l[i]) (hl : l.Pairwise fun a b => q b = true → q a = true) :
    bisect p 0 l.length = l.countP q := by
  have hmono : ∀ i j, i ≤ j → j < l.length → p j = true → p i = true := by
    intro i j hij hj hpj
    rw [hpq i (by omega)]
    rcases Nat.lt_or_eq_of_le hij with hlt | rfl
    · exact List.pairwise_iff_getElem.1 hl i j (by omega) hj hlt (hpq j hj ▸ hpj)
    · rw [← hpq i hj]
      exact hpj
  obtain ⟨-, hle, hbelow, habove⟩ := bisect_spec (Nat.zero_le _) hmono
  have htake : (l.take (bisect p 0 l.length)).countP q = bisect p 0 l.length := by
    have hlength : (l.take (bisect p 0 l.length)).length = bisect p 0 l.length := by
      rw [List.length_take]
      omega
    refine Eq.trans (List.countP_eq_length.2 fun a ha => ?_) hlength
    obtain ⟨i, hi, rfl⟩ := List.getElem_of_mem ha
    rw [hlength] at hi
    rw [List.getElem_take, ← hpq _ (by omega)]
    exact hbelow i (Nat.zero_le _) hi
  have hdrop : (l.drop (bisect p 0 l.length)).countP q = 0 := by
    rw [List.countP_eq_zero]
    intro a ha
    obtain ⟨i, hi, rfl⟩ := List.getElem_of_mem ha
    rw [List.length_drop] at hi
    rw [List.getElem_drop, ← hpq _ (by omega), habove _ (by omega) (by omega)]
    exact Bool.false_ne_true
  conv_rhs => rw [← List.take_append_drop (bisect p 0 l.length) l, List.countP_append, hdrop]
  exact htake.symm
