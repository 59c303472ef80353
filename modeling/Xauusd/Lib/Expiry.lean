/-
  Entries that expire, and the first expiry after which what is left of them
  is admitted.

  An entry counts before its expiry and no longer at it.  `firstAdmitted` tries
  the expiries in the order of the entries, as a program does that has the
  entries sorted.

  * `remaining_eq`: between two expiries nothing changes;
  * `firstAdmitted_exact`: of sorted entries, the expiry found admits and no
    earlier instant does;
  * `firstAdmitted_isSome`: there is one when nothing left is admitted.
-/
import Mathlib

namespace Expiry

variable {α θ : Type*} [LinearOrder θ] {expires : α → θ} {admits : List α → Bool} {rows : List α}
  {s t : θ}

/-- The entries that have not expired at `t`. -/
def remaining (expires : α → θ) (rows : List α) (t : θ) : List α :=
  rows.filter fun e => t < expires e

/-- The first expiry after which what remains is admitted. -/
def firstAdmitted (expires : α → θ) (admits : List α → Bool) (rows : List α) : Option θ :=
  (rows.map expires).find? fun t => admits (remaining expires rows t)

theorem remaining_eq_self (h : ∀ e ∈ rows, t < expires e) : remaining expires rows t = rows :=
  List.filter_eq_self.2 fun e he => decide_eq_true (h e he)

/-- When some entry has expired at `s`, what remains is what remained at the
    latest expiry before. -/
theorem remaining_eq (hsorted : rows.Pairwise fun d e => expires d ≤ expires e)
    (h : ∃ e ∈ rows, expires e ≤ s) :
    ∃ e ∈ rows, expires e ≤ s ∧ remaining expires rows (expires e) = remaining expires rows s := by
  have hne : (rows.filter fun e => expires e ≤ s) ≠ [] := by
    obtain ⟨e, he, hs⟩ := h
    exact List.ne_nil_of_mem (List.mem_filter.2 ⟨he, decide_eq_true hs⟩)
  have hlast := List.mem_filter.1 (List.getLast_mem hne)
  refine ⟨_, hlast.1, of_decide_eq_true hlast.2, List.filter_congr fun e he => ?_⟩
  have hlatest : expires e ≤ s →
      expires e ≤ expires ((rows.filter fun e => expires e ≤ s).getLast hne) := by
    intro hs
    exact (hsorted.filter _).rel_getLast_of_rel_getLast_getLast
      (List.mem_filter.2 ⟨he, decide_eq_true hs⟩) le_rfl
  simp only [decide_eq_decide]
  constructor
  · intro hlt
    by_contra hs
    exact absurd (hlatest (not_lt.1 hs)) (not_le.2 hlt)
  · intro hlt
    exact (of_decide_eq_true hlast.2).trans_lt hlt

/-- **The first expiry that admits.** No instant before it admits what then
    remains, if the entries altogether are not admitted. -/
theorem firstAdmitted_exact (hsorted : rows.Pairwise fun d e => expires d ≤ expires e)
    (hrows : admits rows = false) (ht : firstAdmitted expires admits rows = some t) :
    (∃ e ∈ rows, expires e = t) ∧ admits (remaining expires rows t) = true ∧
      ∀ s < t, admits (remaining expires rows s) = false := by
  obtain ⟨hadmits, before, after, hsplit, hbefore⟩ := List.find?_eq_some_iff_append.1 ht
  refine ⟨List.mem_map.1 (hsplit ▸ by simp), hadmits, fun s hs => ?_⟩
  by_cases hexpired : ∃ e ∈ rows, expires e ≤ s
  · obtain ⟨e, he, hes, hremaining⟩ := remaining_eq hsorted hexpired
    have hmem : expires e ∈ before := by
      have hin : expires e ∈ before ++ t :: after := hsplit ▸ List.mem_map_of_mem he
      have hmap : (before ++ t :: after).Pairwise (· ≤ ·) := hsplit ▸ List.pairwise_map.2 hsorted
      have hlate := (List.pairwise_append.1 hmap).2.1
      rcases List.mem_append.1 hin with hin | hin
      · exact hin
      · rcases List.mem_cons.1 hin with heq | hin
        · exact absurd (heq ▸ hes) (not_le.2 hs)
        · exact absurd ((List.rel_of_pairwise_cons hlate hin).trans hes) (not_le.2 hs)
    rw [← hremaining]
    simpa using hbefore _ hmem
  · rw [remaining_eq_self fun e he => not_le.1 fun hes => hexpired ⟨e, he, hes⟩]
    exact hrows

/-- The last expiry leaves nothing. -/
theorem firstAdmitted_isSome (hsorted : rows.Pairwise fun d e => expires d ≤ expires e)
    (hnil : admits [] = true) (hne : rows ≠ []) :
    ∃ t, firstAdmitted expires admits rows = some t := by
  refine Option.isSome_iff_exists.1 (List.find?_isSome.2 ?_)
  refine ⟨_, List.mem_map_of_mem (List.getLast_mem hne), ?_⟩
  have hleft : remaining expires rows (expires (rows.getLast hne)) = [] := by
    refine List.filter_eq_nil_iff.2 fun e he => ?_
    have := hsorted.rel_getLast_of_rel_getLast_getLast he le_rfl
    simpa using this
  rw [hleft]
  exact hnil

end Expiry
