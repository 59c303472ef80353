/-
  Serving whoever has waited longest.

  `last k` is the instant at which `k` was last served, none when never.

  * `NotLater`: never served before served, and the earlier before the later;
  * `Waits x last l`: while `l` was served, nobody who was served was later
    than `x`, and every service is later than all before it;
  * `served_of_waits`: **in as many services as there are clients, a client
    that nobody overtook is served**;
  * `services_le`: services that enlarge a set which only grows are bounded by
    its size.
-/
import Mathlib

namespace Rotation

variable {κ τ : Type*} [DecidableEq κ] [LinearOrder τ] {x : κ} {last : κ → Option τ} {l : List (κ × τ)}

/-- The first was served no later than the second. -/
def NotLater : Option τ → Option τ → Prop
  | none, _ => True
  | some _, none => False
  | some t, some u => t ≤ u

/-- Everyone who is served was last served no later than `x`, and before the
    instant of the service. -/
def Waits (x : κ) : (κ → Option τ) → List (κ × τ) → Prop
  | _, [] => True
  | last, (k, t) :: l => (∀ k u, last k = some u → u < t) ∧ NotLater (last k) (last x) ∧
      Waits x (Function.update last k (some t)) l

/-- Until `x` is served, nobody is served twice. -/
theorem nodup_of_waits (h : Waits x last l) (hx : x ∉ l.map Prod.fst) :
    (∀ k ∈ l.map Prod.fst, NotLater (last k) (last x)) ∧ (l.map Prod.fst).Nodup := by
  induction l generalizing last with
  | nil => exact ⟨(fun k hk => nomatch hk), List.nodup_nil⟩
  | cons e l ih =>
    obtain ⟨k, t⟩ := e
    obtain ⟨hlast, hk, hrest⟩ := h
    rw [List.map_cons, List.mem_cons, not_or] at hx
    obtain ⟨hlater, hnodup⟩ := ih hrest hx.2
    rw [Function.update_of_ne hx.1] at hlater
    have hself : k ∉ l.map Prod.fst := by
      intro hmem
      have hlater := hlater k hmem
      rw [Function.update_self] at hlater
      cases hu : last x with
      | none =>
        rw [hu] at hlater
        exact hlater
      | some u =>
        rw [hu] at hlater
        exact absurd (hlast x u hu) (not_lt.2 hlater)
    rw [List.map_cons]
    refine ⟨fun k' hk' => ?_, List.nodup_cons.2 ⟨hself, hnodup⟩⟩
    rcases List.mem_cons.1 hk' with rfl | hk'
    · exact hk
    · have hne : k' ≠ k := fun heq => hself (heq ▸ hk')
      have hlater := hlater k' hk'
      rwa [Function.update_of_ne hne] at hlater

/-- **Bounded waiting.** -/
theorem served_of_waits {all : List κ} (hall : ∀ k, k ∈ all) (h : Waits x last l) (hl : all.length ≤ l.length) :
    x ∈ l.map Prod.fst := by
  by_contra hx
  have hnodup : (x :: l.map Prod.fst).Nodup := List.nodup_cons.2 ⟨hx, (nodup_of_waits h hx).2⟩
  have hle := (hnodup.subperm fun k _ => hall k).length_le
  rw [List.length_cons, List.length_map] at hle
  omega

section
variable {σ ι κ : Type*} {step : σ → ι → σ} {serves : σ → ι → Bool}

/-- The services of a run. -/
def services (step : σ → ι → σ) (serves : σ → ι → Bool) : σ → List ι → ℕ
  | _, [] => 0
  | s, i :: l => (if serves s i = true then 1 else 0) + services step serves (step s i) l

/-- **Bounded service.**  A set that only grows, and that each service enlarges, leaves room for no more
    services than it has elements at the end. -/
theorem services_le {Inv : σ → List ι → Prop} {late : σ → Finset κ} {n : ℕ}
    (hbound : ∀ s l, Inv s l → (late s).card ≤ n)
    (hstep : ∀ s i l, Inv s (i :: l) → Inv (step s i) l ∧ late s ⊆ late (step s i) ∧
      (serves s i = true → late s ≠ late (step s i))) {s : σ} {l : List ι} (h : Inv s l) :
    services step serves s l + (late s).card ≤ n := by
  induction l generalizing s with
  | nil =>
    rw [services, zero_add]
    exact hbound s [] h
  | cons i l ih =>
    obtain ⟨hnext, hsub, hne⟩ := hstep s i l h
    have hrest := ih hnext
    rw [services]
    split
    · rename_i hserves
      have := Finset.card_lt_card (hsub.ssubset_of_ne (hne hserves))
      omega
    · have := Finset.card_le_card hsub
      omega

end

end Rotation
