/-
  Exclusive leases that expire.

  A slot is free, held by one owner until an instant, or closed.  Owners take
  a free slot and settle the slot they hold; a held slot lapses once its
  expiry has passed; the system may close a slot at any time and may reopen
  one that nobody holds.

  * `Move`, `Moves`: one move, and a finite sequence of moves, on a slot;
  * `Moves.owner_of_no_take` (fencing): whoever holds the slot after moves
    among which it took nothing has held it before them, and one who did not
    hold it does not hold it afterwards;
  * `Moves.live` (exclusion): takes, and lapses found before the expiry, leave
    a held slot with its owner.
-/
import Mathlib

namespace Lease

variable {ω τ : Type*}

/-- The state of a slot. -/
inductive Slot (ω τ : Type*) where
  | free
  | held (owner : ω) (expires : τ)
  | closed
  deriving DecidableEq

/-- The owner of a held slot. -/
def Slot.owner? : Slot ω τ → Option ω
  | held w _ => some w
  | _ => none

@[simp] theorem Slot.owner?_free : (Slot.free : Slot ω τ).owner? = none := rfl
@[simp] theorem Slot.owner?_held (w : ω) (e : τ) : (Slot.held w e).owner? = some w := rfl
@[simp] theorem Slot.owner?_closed : (Slot.closed : Slot ω τ).owner? = none := rfl

/-- What can happen to a slot. -/
inductive Label (ω τ : Type*) where
  /-- a worker takes it until `expires` -/
  | take (w : ω) (expires : τ)
  /-- its owner gives it back, or closes it when `done` -/
  | settle (w : ω) (done : Bool)
  /-- the lease is found expired at `now` -/
  | lapse (now : τ)
  /-- the system closes it, held or not -/
  | shut
  /-- the system reopens a slot nobody holds -/
  | reopen

section
variable [LE τ]

/-- One move. -/
inductive Move : Label ω τ → Slot ω τ → Slot ω τ → Prop
  | take {w e} : Move (.take w e) .free (.held w e)
  | settle {w e} {done : Bool} :
      Move (.settle w done) (.held w e) (if done then .closed else .free)
  | lapse {w e now} : e ≤ now → Move (.lapse now) (.held w e) .free
  | shut {s} : Move .shut s .closed
  | reopen {s} : s.owner? = none → Move .reopen s .free

/-- A finite sequence of moves. -/
inductive Moves : List (Label ω τ) → Slot ω τ → Slot ω τ → Prop
  | nil {s} : Moves [] s s
  | cons {l ls s t u} : Move l s t → Moves ls t u → Moves (l :: ls) s u

theorem Moves.single {l : Label ω τ} {s t : Slot ω τ} (h : Move l s t) : Moves [l] s t :=
  .cons h .nil

theorem Moves.append {ls ls' : List (Label ω τ)} {s t u : Slot ω τ} (h : Moves ls s t)
    (h' : Moves ls' t u) : Moves (ls ++ ls') s u := by
  induction h with
  | nil => exact h'
  | cons h _ ih => exact .cons h (ih h')

/-- Only a take makes a worker the owner. -/
theorem Move.owner {l : Label ω τ} {s t : Slot ω τ} (h : Move l s t) {w : ω}
    (ht : t.owner? = some w) : s.owner? = some w ∨ ∃ e, l = .take w e := by
  cases h with
  | @take w' e =>
    obtain rfl : w' = w := by simpa using ht
    exact .inr ⟨e, rfl⟩
  | @settle _ _ done => cases done <;> simp at ht
  | lapse | shut | reopen => simp at ht

/-- **Fencing.** A worker that does not hold the slot holds it after no
    sequence of moves among which it does not take the slot itself. -/
theorem Moves.owner_of_no_take {ls : List (Label ω τ)} {s t : Slot ω τ} (h : Moves ls s t)
    {w : ω} (hls : ∀ e, .take w e ∉ ls) (hs : s.owner? ≠ some w) : t.owner? ≠ some w := by
  induction h with
  | nil => exact hs
  | cons h _ ih =>
    refine ih (fun e he => hls e (List.mem_cons_of_mem _ he)) fun ht => ?_
    rcases h.owner ht with ht | ⟨e, rfl⟩
    · exact hs ht
    · exact hls e List.mem_cons_self

end

section
variable [Preorder τ]

/-- **Exclusion.** A slot held until after `now` is held by its owner, with the
    same expiry, after every sequence of takes and of lapses found by `now`. -/
theorem Moves.live {ls : List (Label ω τ)} {w : ω} {e now : τ} {t : Slot ω τ}
    (h : Moves ls (.held w e) t) (hnow : now < e)
    (hls : ∀ l ∈ ls, (∃ w' e', l = .take w' e') ∨ ∃ n ≤ now, l = .lapse n) :
    t = .held w e := by
  cases h with
  | nil => rfl
  | @cons l _ _ _ _ h _ =>
    rcases hls l List.mem_cons_self with ⟨w', e', rfl⟩ | ⟨n, hn, rfl⟩
    · cases h
    · cases h with
      | lapse he => exact absurd (lt_of_lt_of_le hnow (le_trans he hn)) (lt_irrefl _)

end

end Lease
