/-
  A loop over tasks that run at the same time, each with a deadline: it waits
  until one of them is done or the nearest deadline passes, takes those that are
  done, and gives up those that are late.

  * `Waiter`: what the loop is told when it waits, with the promise that waiting
    ends;
  * `collect`: the loop;
  * `collect_order`: **every task leaves the loop once**, done or past its
    deadline, whatever the order in which they end;
  * `inOrder_perm`: results that are read in the order of their keys are all of
    them.
-/
import Mathlib

namespace Await

variable {ι α β T : Type*} [LinearOrder T]

/-- What the loop is told: the tasks that are done, and then the time. -/
structure Round (ι T : Type*) where
  done : List ι
  now : T

/-- How waiting for some tasks until some time ends. -/
structure Waiter (ι T : Type*) [LinearOrder T] where
  wait : List ι → T → Round ι T
  progress : ∀ pending nearest, pending ≠ [] →
    (∃ i ∈ pending, i ∈ (wait pending nearest).done) ∨ nearest ≤ (wait pending nearest).now

section
variable [DecidableEq ι] (w : Waiter ι T) (key : α → ι) (deadline : α → T) (finished late : α → β)

/-- The nearest of the deadlines. -/
def nearest (a : α) (tasks : List α) : T := tasks.foldl (fun t b => min t (deadline b)) (deadline a)

/-- The loop, where each round ends one of the tasks at least. -/
def collect : ℕ → List α → List (ι × β)
  | 0, _ => []
  | _ + 1, [] => []
  | fuel + 1, a :: tasks =>
    let round := w.wait ((a :: tasks).map key) (nearest deadline a tasks)
    let done := (a :: tasks).filter fun b => key b ∈ round.done
    let waiting := (a :: tasks).filter fun b => key b ∉ round.done
    let expired := waiting.filter fun b => deadline b ≤ round.now
    done.map (fun b => (key b, finished b)) ++ expired.map (fun b => (key b, late b)) ++
      collect fuel (waiting.filter fun b => ¬ deadline b ≤ round.now)

theorem exists_nearest (a : α) (tasks : List α) : ∃ b ∈ a :: tasks, deadline b = nearest deadline a tasks := by
  rw [nearest]
  have hfold : ∀ (t : T) (l : List α), l.foldl (fun t b => min t (deadline b)) t = t ∨
      ∃ b ∈ l, deadline b = l.foldl (fun t b => min t (deadline b)) t := by
    intro t l
    induction l generalizing t with
    | nil => exact .inl rfl
    | cons b l ih =>
      rw [List.foldl_cons]
      rcases ih (min t (deadline b)) with h | ⟨c, hc, h⟩
      · rw [h]
        rcases min_choice t (deadline b) with hmin | hmin
        · exact .inl hmin
        · exact .inr ⟨b, List.mem_cons_self, hmin.symm⟩
      · exact .inr ⟨c, List.mem_cons_of_mem _ hc, h⟩
  rcases hfold (deadline a) tasks with h | ⟨b, hb, h⟩
  · exact ⟨a, List.mem_cons_self, h.symm⟩
  · exact ⟨b, List.mem_cons_of_mem _ hb, h⟩

/-- A round ends one of the tasks at least. -/
theorem length_left (a : α) (tasks : List α) :
    let round := w.wait ((a :: tasks).map key) (nearest deadline a tasks)
    (((a :: tasks).filter fun b => key b ∉ round.done).filter fun b => ¬ deadline b ≤ round.now).length <
      (a :: tasks).length := by
  intro round
  rw [List.filter_filter]
  suffices hout : ∃ b ∈ a :: tasks, deadline b ≤ round.now ∨ key b ∈ round.done by
    obtain ⟨b, hb, hout⟩ := hout
    refine List.length_filter_lt_length_iff_exists.2 ⟨b, hb, ?_⟩
    rw [Bool.and_eq_true, decide_eq_true_eq, decide_eq_true_eq]
    rintro ⟨hnow, hdone⟩
    exact hout.elim hnow hdone
  rcases w.progress ((a :: tasks).map key) (nearest deadline a tasks) (by simp) with ⟨i, hi, hdone⟩ | hnow
  · obtain ⟨b, hb, rfl⟩ := List.mem_map.1 hi
    exact ⟨b, hb, .inr hdone⟩
  · obtain ⟨b, hb, hdeadline⟩ := exists_nearest deadline a tasks
    exact ⟨b, hb, .inl (hdeadline ▸ hnow)⟩

/-- How a task leaves the loop. -/
def Left (a : α) (x : ι × β) : Prop :=
  x = (key a, finished a) ∨ x = (key a, late a) ∧ ∃ pending t, deadline a ≤ (w.wait pending t).now

/-- Every task leaves the loop once. -/
theorem collect_order {fuel : ℕ} {tasks : List α} (h : tasks.length ≤ fuel) :
    ∃ order : List α, order.Perm tasks ∧
      List.Forall₂ (Left w key deadline finished late) order (collect w key deadline finished late fuel tasks) := by
  induction fuel generalizing tasks with
  | zero =>
    have hnil : tasks = [] := List.length_eq_zero_iff.1 (by omega)
    exact ⟨[], hnil ▸ .refl _, .nil⟩
  | succ fuel ih =>
    cases tasks with
    | nil => exact ⟨[], .refl _, .nil⟩
    | cons a tasks =>
      have hleft := length_left w key deadline a tasks
      dsimp only at hleft
      rw [collect]
      have hround : ∃ pending t, w.wait pending t = w.wait ((a :: tasks).map key) (nearest deadline a tasks) := ⟨_, _, rfl⟩
      generalize w.wait ((a :: tasks).map key) (nearest deadline a tasks) = round at *
      obtain ⟨order, hperm, horder⟩ := @ih (((a :: tasks).filter fun b => key b ∉ round.done).filter
        fun b => ¬ deadline b ≤ round.now) (by omega)
      have hwaiting := List.filter_append_perm (fun b => decide (deadline b ≤ round.now))
        ((a :: tasks).filter fun b => key b ∉ round.done)
      have hall := List.filter_append_perm (fun b => decide (key b ∈ round.done)) (a :: tasks)
      simp only [decide_not] at hperm horder hwaiting hall ⊢
      refine ⟨_, ?_, List.rel_append (List.rel_append (List.forall₂_map_right_iff.2 (List.forall₂_same.2 ?_))
        (List.forall₂_map_right_iff.2 (List.forall₂_same.2 ?_))) horder⟩
      · dsimp only
        rw [List.append_assoc]
        exact (((hperm.append_left _).trans hwaiting).append_left _).trans hall
      · intro b _
        exact .inl rfl
      · intro b hb
        obtain ⟨pending, t, hround⟩ := hround
        exact .inr ⟨rfl, pending, t, hround ▸ of_decide_eq_true (List.mem_filter.1 hb).2⟩

end

/-! ## Results by their keys -/

section
variable [DecidableEq ι] {results : List (ι × β)} {keys : List ι}

theorem lookup_of_mem (hkeys : (results.map (·.1)).Nodup) {x : ι × β} (hx : x ∈ results) :
    results.lookup x.1 = some x.2 := by
  induction results with
  | nil => cases hx
  | cons y results ih =>
    rw [List.map_cons, List.nodup_cons] at hkeys
    rcases List.mem_cons.1 hx with rfl | hx
    · rw [List.lookup_cons, beq_self_eq_true]
    · have hne : (x.1 == y.1) = false := by
        simpa using fun h : x.1 = y.1 => hkeys.1 (h ▸ List.mem_map_of_mem hx)
      rw [List.lookup_cons, hne]
      exact ih hkeys.2 hx

theorem filterMap_lookup (hkeys : (results.map (·.1)).Nodup) :
    (results.map (·.1)).filterMap (results.lookup ·) = results.map (·.2) := by
  rw [List.filterMap_map, ← List.filterMap_eq_map]
  exact List.filterMap_congr fun x hx => lookup_of_mem hkeys hx

/-- The results that are read in the order of their keys are all of them. -/
theorem inOrder_perm (h : (results.map (·.1)).Perm keys) (hkeys : keys.Nodup) :
    (keys.filterMap (results.lookup ·)).Perm (results.map (·.2)) := by
  rw [← filterMap_lookup (h.nodup_iff.2 hkeys)]
  exact h.symm.filterMap _

/-- Each key has its result. -/
theorem forall₂_inOrder (h : (results.map (·.1)).Perm keys) (hkeys : keys.Nodup) :
    List.Forall₂ (fun i b => (i, b) ∈ results) keys (keys.filterMap (results.lookup ·)) := by
  have hlookup : ∀ i ∈ keys, ∃ b, results.lookup i = some b ∧ (i, b) ∈ results := by
    intro i hi
    obtain ⟨x, hx, rfl⟩ := List.mem_map.1 (h.mem_iff.2 hi)
    exact ⟨x.2, lookup_of_mem (h.nodup_iff.2 hkeys) hx, hx⟩
  clear h hkeys
  induction keys with
  | nil => exact .nil
  | cons i keys ih =>
    obtain ⟨b, hb, hmem⟩ := hlookup i List.mem_cons_self
    rw [List.filterMap_cons_some (f := fun i => results.lookup i) hb]
    exact .cons hmem (ih fun j hj => hlookup j (List.mem_cons_of_mem _ hj))

end

end Await
