/-
  Caching a fact under a version.

  A state has a version, in a partial order, that only moves forward; a fact
  about the state is kept by every step that leaves the version.  A version at
  which the fact held then vouches for the fact as long as it is the current
  one.

  * `Tracks`: what a step must do, `Tracks.trans`: and so do several;
  * `Vouches v s`: the version `v` vouches for the fact in `s`;
  * `vouches_self`, `Vouches.step`: it does when it is taken, and after every
    step that tracks.
-/
import Mathlib

namespace Versioned

variable {σ ν : Type*} [PartialOrder ν] {ver : σ → ν} {Good : σ → Prop} {s t u : σ} {v : ν}

/-- The version moves forward, or it stays and the fact with it. -/
def Tracks (ver : σ → ν) (Good : σ → Prop) (s t : σ) : Prop :=
  ver s ≤ ver t ∧ (ver s = ver t → Good s → Good t)

/-- As long as `v` is the version, the fact holds. -/
def Vouches (ver : σ → ν) (Good : σ → Prop) (v : ν) (s : σ) : Prop :=
  v ≤ ver s ∧ (v = ver s → Good s)

theorem Tracks.refl (s : σ) : Tracks ver Good s s := ⟨le_rfl, fun _ h => h⟩

theorem Tracks.trans (h : Tracks ver Good s t) (h' : Tracks ver Good t u) :
    Tracks ver Good s u := by
  refine ⟨h.1.trans h'.1, fun e hs => ?_⟩
  have hst : ver s = ver t := le_antisymm h.1 (e ▸ h'.1)
  exact h'.2 (hst ▸ e) (h.2 hst hs)

/-- A step to a later version tracks whatever it does. -/
theorem tracks_of_lt (h : ver s < ver t) : Tracks ver Good s t :=
  ⟨h.le, fun e => absurd e h.ne⟩

theorem vouches_self (h : Good s) : Vouches ver Good (ver s) s := ⟨le_rfl, fun _ => h⟩

/-- **The cache rule.** A version goes on vouching along steps that track. -/
theorem Vouches.step (h : Vouches ver Good v s) (hst : Tracks ver Good s t) :
    Vouches ver Good v t := by
  refine ⟨h.1.trans hst.1, fun e => ?_⟩
  have hs : v = ver s := le_antisymm h.1 (e ▸ hst.1)
  exact hst.2 (hs ▸ e) (h.2 hs)

end Versioned
