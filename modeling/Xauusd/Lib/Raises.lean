/-
  Computations that may raise, when they do not.

  * `raiseIf`, `orRaise`: a guard, and a value that may be missing;
  * `bind_eq_ok`: both parts of a sequence return;
  * `forall₂_of_mapM`: so does each element of a list, and `exists_of_mem` has
    the one that a result is of.
-/
import Mathlib

namespace Raises

variable {α β ε : Type}

/-- `if c: raise e` -/
def raiseIf (c : Prop) [Decidable c] (e : ε) : Except ε Unit := if c then .error e else .ok ()

/-- The value, or an error when there is none. -/
def orRaise (x : Option α) (e : ε) : Except ε α :=
  match x with
  | some a => .ok a
  | none => .error e

theorem raiseIf_eq_ok {c : Prop} [Decidable c] {e : ε} {u : Unit} : raiseIf c e = .ok u ↔ ¬ c := by
  by_cases hc : c
  · simp [raiseIf, hc]
  · simp [raiseIf, hc]

theorem orRaise_eq_ok {x : Option α} {e : ε} {a : α} : orRaise x e = .ok a ↔ x = some a := by
  cases x with
  | none => simp [orRaise]
  | some b => simp [orRaise]

theorem exists_of_isOk {x : Except ε α} (h : x.isOk = true) : ∃ a, x = .ok a := by
  cases x with
  | error e => cases h
  | ok a => exact ⟨a, rfl⟩

theorem bind_eq_ok {x : Except ε α} {f : α → Except ε β} {b : β} :
    (x >>= f) = .ok b ↔ ∃ a, x = .ok a ∧ f a = .ok b := by
  cases x with
  | error e => simp [bind, Except.bind]
  | ok a => simp [bind, Except.bind]

theorem mapError_eq_ok {ε' : Type} {x : Except ε α} {f : ε → ε'} {a : α} : x.mapError f = .ok a ↔ x = .ok a := by
  cases x with
  | error e => simp [Except.mapError]
  | ok b => simp [Except.mapError]

theorem forall₂_of_mapM {f : α → Except ε β} {l : List α} {bs : List β} (h : l.mapM f = .ok bs) :
    List.Forall₂ (fun a b => f a = .ok b) l bs := by
  induction l generalizing bs with
  | nil =>
    cases h
    exact .nil
  | cons a l ih =>
    rw [List.mapM_cons] at h
    obtain ⟨x, hx, h⟩ := bind_eq_ok.1 h
    obtain ⟨xs, hxs, h⟩ := bind_eq_ok.1 h
    cases h
    exact .cons hx (ih hxs)

theorem exists_of_mem {R : α → β → Prop} {l : List α} {bs : List β} (h : List.Forall₂ R l bs) {b : β} (hb : b ∈ bs) :
    ∃ a ∈ l, R a b := by
  induction h with
  | nil => cases hb
  | cons hab _ ih =>
    rcases List.mem_cons.1 hb with rfl | hb
    · exact ⟨_, List.mem_cons_self, hab⟩
    · obtain ⟨a, ha, hab⟩ := ih hb
      exact ⟨a, List.mem_cons_of_mem _ ha, hab⟩

end Raises
