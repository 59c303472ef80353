/-
  A total divided among parts as `divmod` divides it: equal shares, with one
  more for the first parts while the remainder lasts.

  * `share`: what one part gets;
  * `sum_share`: the shares of all parts make up the total;
  * `sum_share_le`: **different parts together get no more than the total**.
-/
import Mathlib

namespace Shares

/-- What the part at `order` gets of a total. -/
def share (total parts order : ℕ) : ℕ := total / parts + if order < total % parts then 1 else 0

theorem sum_remainder {parts r : ℕ} (h : r ≤ parts) :
    ((List.range parts).map fun i => if i < r then 1 else 0).sum = r := by
  induction parts generalizing r with
  | zero =>
    have hr : r = 0 := by omega
    simp [hr]
  | succ n ih =>
    rw [List.range_succ, List.map_append, List.sum_append]
    rcases Nat.lt_or_ge n r with hn | hn
    · have hr : r = n + 1 := by omega
      subst hr
      have hfull : ((List.range n).map fun i => if i < n + 1 then 1 else 0) =
          (List.range n).map fun i => if i < n then 1 else 0 := by
        refine List.map_congr_left fun i hi => ?_
        have hi := List.mem_range.1 hi
        rw [if_pos hi, if_pos (by omega)]
      rw [hfull, ih (Nat.le_refl n)]
      simp
    · rw [ih hn]
      simp [Nat.not_lt.2 hn]

/-- The shares make up the total. -/
theorem sum_share {total parts : ℕ} (h : 0 < parts) : ((List.range parts).map (share total parts)).sum = total := by
  have hsum : ((List.range parts).map (share total parts)).sum = parts * (total / parts) + total % parts := by
    rw [← sum_remainder (Nat.mod_lt total h).le]
    have hshare : share total parts = fun i => total / parts + if i < total % parts then 1 else 0 := rfl
    rw [hshare, List.sum_map_add]
    simp
  rw [hsum, Nat.div_add_mod]

/-- Different parts get no more than the total. -/
theorem sum_share_le {total parts : ℕ} {orders : List ℕ} (hnodup : orders.Nodup) (h : ∀ i ∈ orders, i < parts) :
    (orders.map (share total parts)).sum ≤ total := by
  cases parts with
  | zero =>
    have hnil : orders = [] := List.eq_nil_iff_forall_not_mem.2 fun i hi => absurd (h i hi) (by omega)
    simp [hnil]
  | succ n =>
    have hsub : orders.Subperm (List.range (n + 1)) := List.subperm_of_subset hnodup fun i hi => List.mem_range.2 (h i hi)
    obtain ⟨kept, hperm, hsublist⟩ := hsub
    calc (orders.map (share total (n + 1))).sum = (kept.map (share total (n + 1))).sum :=
          (hperm.map _).sum_eq.symm
      _ ≤ ((List.range (n + 1)).map (share total (n + 1))).sum :=
          (hsublist.map _).sum_le_sum fun _ _ => Nat.zero_le _
      _ = total := sum_share (by omega)

end Shares
