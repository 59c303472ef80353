/-
  Deterministic machines and their runs.

  A machine is a function `step : σ → α → β × σ`: what an action replies and
  the state it leaves.  A run is a list of actions.

  * `run step s as` is the state after the actions `as`;
  * `Along step C s as`: every action meets the condition `C` in the state it
    is taken in;
  * `along_of_stamps`: under a clock that never runs backwards, every action
    finds no later stamp;
  * `run_invariant`: what every such step preserves, the whole run preserves;
  * `run_related`: what every such step does to the state, up to a preorder,
    the whole run does;
  * `run_measure_le`: a measure that every step raises by its weight at most
    grows over a run by the `total` weight at most;
  * `run_descent`: what every step spends is spent of a measure, so a run
    spends no more than there is at its start;
  * `run_refines`: if every step is a finite number of abstract steps, so is
    every run;
  * `foldl_related`, `foldlM_related`: what every step of a fold does to a view
    of the state, up to a preorder, the fold does.
-/
import Mathlib

namespace Machine

variable {σ α β τ : Type*} {step : σ → α → β × σ} {C C' : σ → α → Prop}

/-- The state after a list of actions. -/
def run (step : σ → α → β × σ) : σ → List α → σ
  | s, [] => s
  | s, a :: as => run step (step s a).2 as

/-- Every action of the run meets `C` in the state it is taken in. -/
def Along (step : σ → α → β × σ) (C : σ → α → Prop) : σ → List α → Prop
  | _, [] => True
  | s, a :: as => C s a ∧ Along step C (step s a).2 as

/-- The weights of a run's actions, each in the state it is taken in, together. -/
def total (step : σ → α → β × σ) (w : σ → α → ℕ) : σ → List α → ℕ
  | _, [] => 0
  | s, a :: as => w s a + total step w (step s a).2 as

/-- The states that some run reaches. -/
def Reachable (step : σ → α → β × σ) (s₀ s : σ) : Prop := ∃ as, run step s₀ as = s

@[simp] theorem run_nil (s : σ) : run step s [] = s := rfl

@[simp] theorem run_cons (s : σ) (a : α) (as : List α) :
    run step s (a :: as) = run step (step s a).2 as := rfl

@[simp] theorem along_nil (s : σ) : Along step C s [] := trivial

@[simp] theorem along_cons (s : σ) (a : α) (as : List α) :
    Along step C s (a :: as) ↔ C s a ∧ Along step C (step s a).2 as := Iff.rfl

theorem run_append (s : σ) (as bs : List α) :
    run step s (as ++ bs) = run step (run step s as) bs := by
  induction as generalizing s with
  | nil => rfl
  | cons a as ih => exact ih _

theorem along_append (s : σ) (as bs : List α) :
    Along step C s (as ++ bs) ↔ Along step C s as ∧ Along step C (run step s as) bs := by
  induction as generalizing s with
  | nil => simp
  | cons a as ih => simp [ih, and_assoc]

instance [∀ s a, Decidable (C s a)] (s : σ) (as : List α) : Decidable (Along step C s as) :=
  go s as
where
  go : (s : σ) → (as : List α) → Decidable (Along step C s as)
    | _, [] => isTrue trivial
    | s, a :: as => have := go (step s a).2 as; inferInstanceAs (Decidable (C s a ∧ Along step C (step s a).2 as))

theorem Along.mono (hC : ∀ s a, C s a → C' s a) {s : σ} {as : List α}
    (h : Along step C s as) : Along step C' s as := by
  induction as generalizing s with
  | nil => trivial
  | cons a as ih => exact ⟨hC _ _ h.1, ih h.2⟩

theorem along_of_forall (hC : ∀ s a, C s a) (s : σ) (as : List α) : Along step C s as := by
  induction as generalizing s with
  | nil => trivial
  | cons a as ih => exact ⟨hC _ _, ih _⟩

theorem along_of_mem {C : α → Prop} {as : List α} (hC : ∀ a ∈ as, C a) (s : σ) :
    Along step (fun _ a => C a) s as := by
  induction as generalizing s with
  | nil => trivial
  | cons a as ih => exact ⟨hC a (by simp), ih (fun b hb => hC b (by simp [hb])) _⟩

theorem Along.and {s : σ} {as : List α} (h : Along step C s as) (h' : Along step C' s as) :
    Along step (fun s a => C s a ∧ C' s a) s as := by
  induction as generalizing s with
  | nil => trivial
  | cons a as ih => exact ⟨⟨h.1, h'.1⟩, ih h.2 h'.2⟩

/-- **The clock rule.** If a state carries only the stamps it carried before
    and the one of the action just taken, and the stamps of a list of actions
    never decrease, then every stamped action finds no later stamp. -/
theorem along_of_stamps {θ : Type*} [Preorder θ] {stamp : α → Option θ} {S : σ → θ → Prop}
    (hstep : ∀ s a t, S (step s a).2 t → S s t ∨ stamp a = some t) {s : σ} {as : List α}
    (has : (as.filterMap stamp).Pairwise (· ≤ ·))
    (hs : ∀ t, S s t → ∀ t' ∈ as.filterMap stamp, t ≤ t') :
    Along step (fun s a => ∀ t', stamp a = some t' → ∀ t, S s t → t ≤ t') s as := by
  induction as generalizing s with
  | nil => trivial
  | cons a as ih =>
    refine ⟨fun t' ht' t ht => hs t ht t' ?_, ?_⟩
    · simp [ht']
    · cases ha : stamp a with
      | none =>
        simp only [List.filterMap_cons, ha] at has hs
        refine ih has fun t ht => ?_
        rcases hstep s a t ht with ht | ht
        · exact hs t ht
        · simp [ha] at ht
      | some u =>
        simp only [List.filterMap_cons, ha, List.pairwise_cons] at has hs
        refine ih has.2 fun t ht t' ht' => ?_
        rcases hstep s a t ht with ht | ht
        · exact hs t ht t' (List.mem_cons_of_mem _ ht')
        · obtain rfl : u = t := by simpa [ha] using ht
          exact has.1 t' ht'

theorem Reachable.start (s : σ) : Reachable step s s := ⟨[], rfl⟩

theorem Reachable.run {s₀ s : σ} (h : Reachable step s₀ s) (as : List α) :
    Reachable step s₀ (run step s as) := by
  obtain ⟨bs, rfl⟩ := h
  exact ⟨bs ++ as, run_append _ _ _⟩

/-- **The invariant rule.** What every admitted step preserves holds in the
    state a run ends in. -/
theorem run_invariant {I : σ → Prop} (hI : ∀ s a, C s a → I s → I (step s a).2) {s : σ}
    {as : List α} (hC : Along step C s as) (h : I s) : I (run step s as) := by
  induction as generalizing s with
  | nil => exact h
  | cons a as ih => exact ih hC.2 (hI _ _ hC.1 h)

/-- An invariant of every step holds in every reachable state. -/
theorem Reachable.invariant {I : σ → Prop} (hI : ∀ s a, I s → I (step s a).2) {s₀ s : σ}
    (hs : Reachable step s₀ s) (h : I s₀) : I s := by
  obtain ⟨as, rfl⟩ := hs
  exact run_invariant (C := fun _ _ => True) (fun s a _ => hI s a)
    (along_of_forall (fun _ _ => trivial) _ _) h

/-- **The relation rule.** If the states satisfying `I` are kept, and every
    admitted step from one of them is within a preorder `R`, so is the run. -/
theorem run_related {I : σ → Prop} {R : σ → σ → Prop} (hr : ∀ s, R s s)
    (ht : ∀ {s t u}, R s t → R t u → R s u)
    (hI : ∀ s a, C s a → I s → I (step s a).2)
    (hR : ∀ s a, C s a → I s → R s (step s a).2) {s : σ} {as : List α}
    (hC : Along step C s as) (h : I s) : R s (run step s as) := by
  induction as generalizing s with
  | nil => exact hr s
  | cons a as ih => exact ht (hR _ _ hC.1 h) (ih hC.2 (hI _ _ hC.1 h))

/-- **The measure rule.** -/
theorem run_measure_le {m : σ → ℕ} {w : σ → α → ℕ}
    (hm : ∀ s a, C s a → m (step s a).2 ≤ m s + w s a) {s : σ} {as : List α}
    (hC : Along step C s as) : m (run step s as) ≤ m s + total step w s as := by
  induction as generalizing s with
  | nil => exact Nat.le_refl _
  | cons a as ih =>
    have hstep := hm s a hC.1
    have hrest := ih hC.2
    simp only [run_cons, total]
    omega

/-- **The descent rule.** If every admitted step from a state satisfying `I`
    pays its weight out of the measure, so does every run. -/
theorem run_descent {I : σ → Prop} {m : σ → ℕ} {w : σ → α → ℕ}
    (hI : ∀ s a, C s a → I s → I (step s a).2)
    (hm : ∀ s a, C s a → I s → w s a + m (step s a).2 ≤ m s) {s : σ} {as : List α}
    (hC : Along step C s as) (h : I s) : total step w s as + m (run step s as) ≤ m s := by
  induction as generalizing s with
  | nil => simp [total]
  | cons a as ih =>
    have hstep := hm s a hC.1 h
    have hrest := ih hC.2 (hI s a hC.1 h)
    simp only [run_cons, total]
    omega

/-- What holds of every admitted step from a state satisfying an invariant
    holds along a run. -/
theorem Along.of_invariant {I : σ → Prop} (hI : ∀ s a, C s a → I s → I (step s a).2)
    (hC' : ∀ s a, C s a → I s → C' s a) {s : σ} {as : List α} (hC : Along step C s as)
    (h : I s) : Along step C' s as := by
  induction as generalizing s with
  | nil => trivial
  | cons a as ih => exact ⟨hC' s a hC.1 h, ih hC.2 (hI s a hC.1 h)⟩

/-- **The refinement rule.** If every admitted step of the machine is, through
    the view `f`, a finite number of abstract steps, so is every run. -/
theorem run_refines {A : τ → τ → Prop} {f : σ → τ} {I : σ → Prop}
    (hI : ∀ s a, C s a → I s → I (step s a).2)
    (hA : ∀ s a, C s a → I s → Relation.ReflTransGen A (f s) (f (step s a).2)) {s : σ}
    {as : List α} (hC : Along step C s as) (h : I s) :
    Relation.ReflTransGen A (f s) (f (run step s as)) :=
  run_related (R := fun s t => Relation.ReflTransGen A (f s) (f t))
    (fun _ => .refl) (fun h₁ h₂ => h₁.trans h₂) hI hA hC h

/-! ## Folds -/

section
variable {ι ε : Type*} {R : τ → τ → Prop} (hr : ∀ s, R s s)
  (ht : ∀ {s t u}, R s t → R t u → R s u) (view : σ → τ)
include hr ht

/-- A fold whose every step is within a preorder is within it. -/
theorem foldl_related (f : σ → ι → σ) (is : List ι)
    (h : ∀ x, ∀ i ∈ is, R (view x) (view (f x i))) (x : σ) : R (view x) (view (is.foldl f x)) := by
  induction is generalizing x with
  | nil => exact hr _
  | cons i is ih =>
    exact ht (h x i List.mem_cons_self) (ih (fun x i hi => h x i (List.mem_cons_of_mem _ hi)) _)

theorem foldlM_related (f : σ → ι → Except ε σ) (is : List ι)
    (h : ∀ x, ∀ i ∈ is, ∀ y, f x i = .ok y → R (view x) (view y)) (x y : σ)
    (hy : is.foldlM f x = .ok y) : R (view x) (view y) := by
  induction is generalizing x with
  | nil =>
    obtain rfl : x = y := by simpa [pure, Except.pure] using hy
    exact hr _
  | cons i is ih =>
    rw [List.foldlM_cons] at hy
    cases hx : f x i with
    | error e => simp [hx, bind, Except.bind] at hy
    | ok z =>
      rw [hx] at hy
      exact ht (h x i List.mem_cons_self z hx)
        (ih (fun x i hi => h x i (List.mem_cons_of_mem _ hi)) z hy)

end

end Machine
