/-
  Amounts in a sliding window.

  Entries are amounts at instants.  The load at `t` is what the entries of the
  half-open window `(t - width, t]` amount to.

  * `load_append`, `load_of_sublist`, `load_ones`: the load of more, of fewer
    and of single entries;
  * `load_le_of_le`: past the last entry the load only falls;
  * `Bounded.snoc`: an entry that fits the window that ends with it fits every
    window, if no entry is later;
  * `load_add_between`: between two instants the load gains what has come in and
    loses what has left.
-/
import Mathlib

namespace Window

variable {θ : Type*} [AddCommGroup θ] [LinearOrder θ] [IsOrderedAddMonoid θ] {width now t : θ}
  {entries entries' : List (θ × ℕ)} {limit n : ℕ}

/-- What the entries of `(t - width, t]` amount to. -/
def load (width : θ) (entries : List (θ × ℕ)) (t : θ) : ℕ :=
  ((entries.filter fun e => t - width < e.1 ∧ e.1 ≤ t).map (·.2)).sum

/-- No window is loaded beyond the limit. -/
def Bounded (width : θ) (limit : ℕ) (entries : List (θ × ℕ)) : Prop :=
  ∀ t, load width entries t ≤ limit

omit [IsOrderedAddMonoid θ] in
@[simp] theorem load_nil : load width [] t = 0 := rfl

omit [IsOrderedAddMonoid θ] in
theorem load_append (width : θ) (entries : List (θ × ℕ)) (e : θ × ℕ) (t : θ) :
    load width (entries ++ [e]) t =
      load width entries t + if t - width < e.1 ∧ e.1 ≤ t then e.2 else 0 := by
  by_cases h : t - width < e.1 ∧ e.1 ≤ t
  · simp [load, h]
  · simp [load, List.filter_append, h]

omit [IsOrderedAddMonoid θ] in
theorem load_of_sublist (h : entries'.Sublist entries) (t : θ) :
    load width entries' t ≤ load width entries t :=
  ((h.filter _).map _).sum_le_sum fun _ _ => Nat.zero_le _

omit [IsOrderedAddMonoid θ] in
theorem Bounded.sublist (hb : Bounded width limit entries) (h : entries'.Sublist entries) :
    Bounded width limit entries' :=
  fun t => (load_of_sublist h t).trans (hb t)

omit [IsOrderedAddMonoid θ] in
/-- The load of entries of one each is their number. -/
theorem load_ones {α : Type*} (f : α → θ) (l : List α) (t : θ) :
    load width (l.map fun a => (f a, 1)) t = l.countP fun a => t - width < f a ∧ f a ≤ t := by
  rw [load, List.filter_map, List.map_map, List.countP_eq_length_filter]
  simp [Function.comp_def]

/-- When no entry is later than `now`, the window that ends with `now` covers
    every later one. -/
theorem load_le_of_le (hlast : ∀ e ∈ entries, e.1 ≤ now) (h : now ≤ t) :
    load width entries t ≤ load width entries now := by
  have hsub : (entries.filter fun e => t - width < e.1 ∧ e.1 ≤ t).Sublist
      (entries.filter fun e => now - width < e.1 ∧ e.1 ≤ now) := by
    have hcongr : (entries.filter fun e => t - width < e.1 ∧ e.1 ≤ t) =
        (entries.filter fun e => now - width < e.1 ∧ e.1 ≤ now).filter
          fun e => t - width < e.1 ∧ e.1 ≤ t := by
      rw [List.filter_filter]
      refine List.filter_congr fun e he => ?_
      have hle := hlast e he
      have hshift : now - width ≤ t - width := sub_le_sub_right h width
      by_cases hin : t - width < e.1
      · simp [hin, hle, hle.trans h, hshift.trans_lt hin]
      · simp [hin]
    rw [hcongr]
    exact List.filter_sublist
  exact (hsub.map _).sum_le_sum fun _ _ => Nat.zero_le _

/-- **Admission.** An entry at the last instant, admitted against the window
    that ends there, takes no window beyond the limit. -/
theorem Bounded.snoc (hb : Bounded width limit entries) (hlast : ∀ e ∈ entries, e.1 ≤ now)
    (hfits : load width entries now + n ≤ limit) :
    Bounded width limit (entries ++ [(now, n)]) := by
  intro t
  rw [load_append]
  split
  · next hin =>
    have hle : load width entries t ≤ load width entries now := load_le_of_le hlast hin.2
    omega
  · exact hb t

/-! ## Between two instants -/

/-- What the entries of `(s, t]` amount to. -/
def between (entries : List (θ × ℕ)) (s t : θ) : ℕ :=
  ((entries.filter fun e => s < e.1 ∧ e.1 ≤ t).map (·.2)).sum

omit [AddCommGroup θ] [IsOrderedAddMonoid θ] in
theorem between_cons (e : θ × ℕ) (entries : List (θ × ℕ)) (s t : θ) :
    between (e :: entries) s t = (if s < e.1 ∧ e.1 ≤ t then e.2 else 0) + between entries s t := by
  by_cases h : s < e.1 ∧ e.1 ≤ t
  · simp [between, h]
  · simp [between, h]

omit [AddCommGroup θ] [IsOrderedAddMonoid θ] in
theorem between_add {s t u : θ} (hst : s ≤ t) (htu : t ≤ u) :
    between entries s t + between entries t u = between entries s u := by
  induction entries with
  | nil => rfl
  | cons e entries ih =>
    have hsplit : (if s < e.1 ∧ e.1 ≤ t then e.2 else 0) + (if t < e.1 ∧ e.1 ≤ u then e.2 else 0) =
        if s < e.1 ∧ e.1 ≤ u then e.2 else 0 := by
      by_cases he : e.1 ≤ t
      · simp [he, he.trans htu, not_lt.2 he]
      · have hlt := not_le.1 he
        simp [he, hlt, hst.trans_lt hlt]
    rw [between_cons, between_cons, between_cons, ← ih, ← hsplit]
    omega

/-- **Two windows.** What has come in since the first, and what has left it. -/
theorem load_add_between {s : θ} (hwidth : 0 ≤ width) (hst : s ≤ t) :
    load width entries t + between entries (s - width) (t - width) =
      load width entries s + between entries s t := by
  have hleft : s - width ≤ t - width := sub_le_sub_right hst width
  have hs : s - width ≤ s := sub_le_self s hwidth
  have ht : t - width ≤ t := sub_le_self t hwidth
  calc load width entries t + between entries (s - width) (t - width)
      = between entries (s - width) (t - width) + between entries (t - width) t := Nat.add_comm _ _
    _ = between entries (s - width) t := between_add hleft ht
    _ = load width entries s + between entries s t := (between_add hs hst).symm

end Window
