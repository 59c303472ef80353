/-
  The clock of the open market (`market_session.py`): the weekly closure, and
  the time between two instants that lies outside it.

  A zone gives the offset of every instant, and the instant of a wall time.
  Instants and wall times are microseconds from 0001-01-01, a Monday; what
  leaves the years 1 to 9999 raises, as `datetime` does.

  * `expectedWeeklyClosure`, `marketOpenElapsed`;
  * `ChangesAtWeekend`: the offset changes between Saturday 00:00 and Sunday
    18:00 only, on the clock before and on the clock after;
  * `utc_edge`: such a clock passes the closing and the opening time of a week
    once;
  * `openTime`: the instants outside the closure;
  * `marketOpenElapsed_exact`: **what the code returns is the open time**, so
    it is monotone and additive;
  * `first_day_overflows`: the seven days before the first date may not exist.
-/
import Xauusd.Lib.IsoTime

namespace Xauusd.Market

open IsoTime (day hour InRange)

/-- `ZoneInfo`: the offset of an instant, and the instant of a wall time, which
    is the one that shows it if only one does. -/
structure Zone where
  offset : ℤ → ℤ
  utc : ℤ → ℤ
  offset_lt : ∀ t, -day < offset t ∧ offset t < day
  utc_wall : ∀ t, (∀ u, u + offset u = t + offset t → u = t) → utc (t + offset t) = t

/-- `at.astimezone(NEW_YORK)` -/
def Zone.wall (z : Zone) (t : ℤ) : ℤ := t + z.offset t

inductive MarketError where
  | endBeforeStart
  | overflow
  deriving DecidableEq

def MarketError.message : MarketError → String
  | endBeforeStart => "end must not be before start"
  | overflow => "date value out of range"

/-- A result that `datetime` can hold. -/
def checked (t : ℤ) : Except MarketError ℤ := if 0 ≤ t ∧ t < 3652059 * day then .ok t else .error .overflow

/-- A result that `date` can hold. -/
def checkedDate (d : ℤ) : Except MarketError ℤ := if 0 ≤ d ∧ d < 3652059 then .ok d else .error .overflow

section
variable (z : Zone)

def expectedWeeklyClosure (t : ℤ) : Bool :=
  let value := z.wall t
  let weekday := value / day % 7
  let hours := value / hour % 24
  (weekday = 4 && 17 ≤ hours) || weekday = 5 || (weekday = 6 && hours < 18)

/-- The part of the closure of a Friday between two instants. -/
def overlap (start stop cursorDate : ℤ) : Except MarketError ℤ := do
  let close ← checked (z.utc (cursorDate * day + 17 * hour))
  let sunday ← checkedDate (cursorDate + 2)
  let reopen ← checked (z.utc (sunday * day + 18 * hour))
  let overlapStart := max start close
  let overlapEnd := min stop reopen
  return if overlapStart < overlapEnd then overlapEnd - overlapStart else 0

/-- The loop over the dates from `cursorDate` on, of which there are `n`. -/
def closedTime (start stop : ℤ) : ℕ → ℤ → ℤ → Except MarketError ℤ
  | 0, _, closed => .ok closed
  | n + 1, cursorDate, closed => do
    let closed ← if cursorDate % 7 = 4 then (closed + ·) <$> overlap z start stop cursorDate else pure closed
    let cursorDate ← checkedDate (cursorDate + 1)
    closedTime start stop n cursorDate closed

def marketOpenElapsed (start stop : ℤ) : Except MarketError ℤ := do
  if stop < start then throw .endBeforeStart
  let startUtc ← checked start
  let endUtc ← checked stop
  let cursorDate ← checkedDate ((← checked (z.wall startUtc)) / day - 7)
  let finalDate := (← checked (z.wall endUtc)) / day
  let closed ← closedTime z startUtc endUtc (finalDate + 1 - cursorDate).toNat cursorDate 0
  return endUtc - startUtc - closed

end

/-! ## The open time -/

/-- Between Saturday 00:00 and Sunday 18:00 on a clock. -/
def InWeekend (wall : ℤ) : Prop := 5 * day ≤ wall % (7 * day) ∧ wall % (7 * day) ≤ 6 * day + 18 * hour

/-- The offset changes on weekends only, on the clock before and after. -/
def ChangesAtWeekend (z : Zone) : Prop :=
  ∀ t, z.offset (t - 1) ≠ z.offset t → InWeekend (t + z.offset (t - 1)) ∧ InWeekend (t + z.offset t)

/-- The length of the instants between two that the closure leaves open. -/
noncomputable def openTime (z : Zone) (a b : ℤ) : ℤ := ((Finset.Ico a b).filter fun t => expectedWeeklyClosure z t = false).card

/-! ## The clock passes a closing or an opening time once -/

theorem day_eq : day = 86400000000 := rfl
theorem hour_eq : hour = 3600000000 := rfl

/-- Friday 17:00 or Sunday 18:00. -/
def Edge (wall : ℤ) : Prop := wall % (7 * day) = 4 * day + 17 * hour ∨ wall % (7 * day) = 6 * day + 18 * hour

variable {z : Zone} {t V : ℤ}

theorem wall_step (hz : ChangesAtWeekend z) (hV : Edge V) (h : z.wall t ≤ V) : z.wall (t - 1) < V := by
  have hchange := hz t
  have h₀ := z.offset_lt t
  have h₁ := z.offset_lt (t - 1)
  simp only [Zone.wall, Edge, InWeekend, day_eq, hour_eq] at *
  by_cases hsame : z.offset (t - 1) = z.offset t
  · omega
  · have := hchange hsame
    omega

theorem wall_before (hz : ChangesAtWeekend z) (hV : Edge V) (h : z.wall t ≤ V) (n : ℕ) :
    z.wall (t - (n + 1 : ℕ)) < V := by
  induction n with
  | zero => exact wall_step hz hV h
  | succ n ih =>
    have := wall_step hz hV ih.le
    rwa [show t - (n + 1 + 1 : ℕ) = t - (n + 1 : ℕ) - 1 by push_cast; ring]

/-- The instant that shows an edge. -/
theorem exists_wall (hz : ChangesAtWeekend z) (hV : Edge V) :
    ∃ T, z.wall T = V ∧ ∀ t, z.wall t < V ↔ t < T := by
  have hlow : ∀ t, V ≤ z.wall t → V - day ≤ t := by
    intro t ht
    have := (z.offset_lt t).2
    rw [Zone.wall] at ht
    omega
  have hhigh : V ≤ z.wall (V + day) := by
    have := (z.offset_lt (V + day)).1
    rw [Zone.wall]
    omega
  obtain ⟨T, hT, hleast⟩ := Int.exists_least_of_bdd (P := fun t => V ≤ z.wall t) ⟨V - day, hlow⟩ ⟨_, hhigh⟩
  have hbefore : z.wall (T - 1) < V := by
    by_contra h
    have := hleast (T - 1) (not_lt.1 h)
    omega
  have heq : z.wall T = V := by
    have hchange := hz T
    simp only [Zone.wall, Edge, InWeekend, day_eq, hour_eq] at *
    have h₀ := z.offset_lt T
    have h₁ := z.offset_lt (T - 1)
    simp only [day_eq] at h₀ h₁
    by_cases hsame : z.offset (T - 1) = z.offset T
    · omega
    · have := hchange hsame
      omega
  refine ⟨T, heq, fun t => ⟨fun ht => ?_, fun ht => ?_⟩⟩
  · by_contra hle
    rw [not_lt] at hle
    rcases hle.eq_or_lt with rfl | hlt
    · exact absurd heq ht.ne
    · have := wall_before hz hV ht.le (t - T - 1).toNat
      rw [show t - (((t - T - 1).toNat + 1 : ℕ) : ℤ) = T by omega, heq] at this
      exact lt_irrefl _ this
  · by_contra hle
    have := hleast t (not_lt.1 hle)
    omega

/-- The instant of an edge. -/
theorem utc_edge (hz : ChangesAtWeekend z) (hV : Edge V) :
    z.wall (z.utc V) = V ∧ ∀ t, t < z.utc V ↔ z.wall t < V := by
  obtain ⟨T, hT, hlt⟩ := exists_wall hz hV
  have hutc : z.utc V = T := by
    rw [← hT]
    refine z.utc_wall T fun u hu => ?_
    have hu' : ¬ u < T := fun h => by
      have := (hlt u).2 h
      exact absurd (hu.trans hT) this.ne
    by_contra hne
    have hbefore := wall_before hz hV (show z.wall u ≤ V from (hu.trans hT).le) (u - T - 1).toNat
    rw [show u - (((u - T - 1).toNat + 1 : ℕ) : ℤ) = T by omega, hT] at hbefore
    exact lt_irrefl _ hbefore
  rw [hutc]
  exact ⟨hT, fun t => (hlt t).symm⟩

/-! ## The closure of one Friday -/

/-- The Friday of the week of an instant. -/
def Zone.friday (z : Zone) (t : ℤ) : ℤ := z.wall t / (7 * day) * 7 + 4

theorem closure_iff (z : Zone) (t : ℤ) : expectedWeeklyClosure z t = true ↔
    z.friday t * day + 17 * hour ≤ z.wall t ∧ z.wall t < (z.friday t + 2) * day + 18 * hour := by
  simp only [expectedWeeklyClosure, Zone.friday, Bool.or_eq_true, Bool.and_eq_true, decide_eq_true_eq]
  simp only [day_eq, hour_eq]
  omega

/-- The closures end before the next Friday. -/
theorem closed_friday_iff (hz : ChangesAtWeekend z) {c : ℤ} (hc : c % 7 = 4) (t : ℤ) :
    (expectedWeeklyClosure z t = true ∧ z.friday t = c) ↔
      z.utc (c * day + 17 * hour) ≤ t ∧ t < z.utc ((c + 2) * day + 18 * hour) := by
  have hclose : Edge (c * day + 17 * hour) := Or.inl (by simp only [day_eq, hour_eq]; omega)
  have hreopen : Edge ((c + 2) * day + 18 * hour) := Or.inr (by simp only [day_eq, hour_eq]; omega)
  rw [closure_iff, ← not_lt (a := t), (utc_edge hz hclose).2 t, (utc_edge hz hreopen).2 t]
  simp only [Zone.friday, day_eq, hour_eq]
  omega

theorem friday_mod (z : Zone) (t : ℤ) : z.friday t % 7 = 4 := by
  rw [Zone.friday]
  omega

/-- The time between two instants in the closures of the Fridays from one date on, before another. -/
noncomputable def closedWithin (z : Zone) (a b lo hi : ℤ) : ℤ :=
  ((Finset.Ico a b).filter fun t => expectedWeeklyClosure z t = true ∧ lo ≤ z.friday t ∧ z.friday t < hi).card

section
variable {a b c lo mid hi : ℤ}

theorem closedWithin_add (h₁ : lo ≤ mid) (h₂ : mid ≤ hi) :
    closedWithin z a b lo hi = closedWithin z a b lo mid + closedWithin z a b mid hi := by
  rw [closedWithin, closedWithin, closedWithin, ← Nat.cast_add, ← Finset.card_union_of_disjoint, ← Finset.filter_or]
  · congr 2
    ext t
    simp only [Finset.mem_filter, ← and_or_left]
    refine and_congr_right fun _ => and_congr_right fun _ => ?_
    omega
  · rw [Finset.disjoint_filter]
    omega

theorem closedWithin_self : closedWithin z a b lo lo = 0 := by
  rw [closedWithin, Finset.filter_false_of_mem]
  · rfl
  · intro t _
    omega

/-- No closure begins on another day. -/
theorem closedWithin_other (hc : c % 7 ≠ 4) : closedWithin z a b c (c + 1) = 0 := by
  rw [closedWithin, Finset.filter_false_of_mem]
  · rfl
  · intro t _ ⟨_, hlo, hhi⟩
    have := friday_mod z t
    omega

/-- The part of the closure of a Friday that lies between two instants. -/
theorem closedWithin_friday (hz : ChangesAtWeekend z) (hc : c % 7 = 4) : closedWithin z a b c (c + 1) =
    max 0 (min b (z.utc ((c + 2) * day + 18 * hour)) - max a (z.utc (c * day + 17 * hour))) := by
  have hset : ((Finset.Ico a b).filter fun t => expectedWeeklyClosure z t = true ∧ c ≤ z.friday t ∧ z.friday t < c + 1) =
      Finset.Ico (max a (z.utc (c * day + 17 * hour))) (min b (z.utc ((c + 2) * day + 18 * hour))) := by
    ext t
    have := closed_friday_iff hz hc t
    simp only [Finset.mem_filter, Finset.mem_Ico, max_le_iff, lt_min_iff]
    constructor
    · rintro ⟨⟨ha, hb⟩, hclosed, hlo, hhi⟩
      obtain ⟨h₁, h₂⟩ := this.1 ⟨hclosed, by omega⟩
      exact ⟨⟨ha, h₁⟩, hb, h₂⟩
    · rintro ⟨⟨ha, h₁⟩, hb, h₂⟩
      obtain ⟨hclosed, hfriday⟩ := this.2 ⟨h₁, h₂⟩
      exact ⟨⟨ha, hb⟩, hclosed, hfriday.ge, by omega⟩
  rw [closedWithin, hset, Int.card_Ico]
  omega

end

/-! ## The loop over the dates -/

/-- The value, or an overflow, which a condition explains. -/
def OkUnless {α : Type} (P : Prop) (r : Except MarketError α) (v : α) : Prop :=
  r = .ok v ∨ r = .error .overflow ∧ P

section
variable {α β : Type} {P : Prop} {a b c : ℤ}

theorem OkUnless.pure {v : α} : OkUnless P (.ok v) v := .inl rfl

theorem OkUnless.bind {x : Except MarketError α} {f : α → Except MarketError β} {v : α} {w : β}
    (hx : OkUnless P x v) (hf : OkUnless P (f v) w) : OkUnless P (x >>= f) w := by
  rcases hx with rfl | ⟨rfl, hP⟩
  · exact hf
  · exact .inr ⟨rfl, hP⟩

theorem checked_okUnless {t : ℤ} (h : ¬ P → 0 ≤ t ∧ t < 3652059 * day) : OkUnless P (checked t) t := by
  by_cases hP : P
  · rw [checked]
    split
    · exact .inl rfl
    · exact .inr ⟨rfl, hP⟩
  · exact .inl (if_pos (h hP))

theorem checkedDate_okUnless {d : ℤ} (h : ¬ P → 0 ≤ d ∧ d < 3652059) : OkUnless P (checkedDate d) d := by
  by_cases hP : P
  · rw [checkedDate]
    split
    · exact .inl rfl
    · exact .inr ⟨rfl, hP⟩
  · exact .inl (if_pos (h hP))

/-- An edge is less than a day from its instant. -/
theorem utc_near (hz : ChangesAtWeekend z) (hV : Edge V) : V - day < z.utc V ∧ z.utc V < V + day := by
  have h₁ := (utc_edge hz hV).1
  have h₂ := z.offset_lt (z.utc V)
  rw [Zone.wall] at h₁
  omega

theorem overlap_okUnless (hz : ChangesAtWeekend z) (hc : c % 7 = 4) (h : ¬ P → 0 ≤ c ∧ c + 4 ≤ 3652059) :
    OkUnless P (overlap z a b c) (closedWithin z a b c (c + 1)) := by
  have hclose := utc_near hz (V := c * day + 17 * hour) (Or.inl (by simp only [day_eq, hour_eq]; omega))
  have hreopen := utc_near hz (V := (c + 2) * day + 18 * hour) (Or.inr (by simp only [day_eq, hour_eq]; omega))
  rw [overlap, closedWithin_friday hz hc]
  simp only [day_eq, hour_eq] at *
  refine .bind (checked_okUnless fun hP => ?_) (.bind (checkedDate_okUnless fun hP => ?_)
    (.bind (checked_okUnless fun hP => ?_) ?_))
  · have := h hP
    simp only [day_eq]
    omega
  · have := h hP
    omega
  · have := h hP
    simp only [day_eq]
    omega
  · refine .inl (congrArg Except.ok ?_)
    split <;> omega

/-- What the loop adds up. -/
theorem closedTime_okUnless (hz : ChangesAtWeekend z) (n : ℕ) (h : ¬ P → 0 ≤ c ∧ c + n + 3 ≤ 3652059) (closed : ℤ) :
    OkUnless P (closedTime z a b n c closed) (closed + closedWithin z a b c (c + n)) := by
  induction n generalizing c closed with
  | zero =>
    rw [closedTime, Nat.cast_zero, add_zero, closedWithin_self, add_zero]
    exact .pure
  | succ n ih =>
    have hnext := ih (c := c + 1) (fun hP => by have := h hP; push_cast at this; omega)
    rw [closedTime, closedWithin_add (show c ≤ c + 1 by omega) (by push_cast; omega), ← add_assoc]
    have hrest : ∀ closed, OkUnless P (checkedDate (c + 1) >>= fun cursorDate => closedTime z a b n cursorDate closed)
        (closed + closedWithin z a b (c + 1) (c + (n + 1 : ℕ))) := by
      intro closed
      refine .bind (checkedDate_okUnless fun hP => ?_) ?_
      · have := h hP
        push_cast at this
        omega
      · rw [show c + ((n + 1 : ℕ) : ℤ) = c + 1 + n by push_cast; ring]
        exact hnext closed
    split
    · rename_i hc
      refine .bind (v := closed + closedWithin z a b c (c + 1)) ?_ (hrest _)
      exact .bind (overlap_okUnless hz hc fun hP => by have := h hP; push_cast at this; omega) .pure
    · rename_i hc
      rw [closedWithin_other hc, add_zero]
      exact hrest closed

/-- The Friday of a closed instant is no later than the date of a later one, and at most two dates
    before that of an earlier one. -/
theorem friday_between (hz : ChangesAtWeekend z) (ht : expectedWeeklyClosure z t = true) (ha : a ≤ t) (hb : t < b) :
    z.wall a / day - 2 ≤ z.friday t ∧ z.friday t ≤ z.wall b / day := by
  have hmod := friday_mod z t
  obtain ⟨hclose, hreopen⟩ := (closed_friday_iff hz hmod t).1 ⟨ht, rfl⟩
  have ha' := ((utc_edge hz (V := (z.friday t + 2) * day + 18 * hour)
    (Or.inr (by simp only [day_eq, hour_eq]; omega))).2 a).1 (by omega)
  have hb' := mt ((utc_edge hz (V := z.friday t * day + 17 * hour)
    (Or.inl (by simp only [day_eq, hour_eq]; omega))).2 b).2 (by omega)
  simp only [day_eq, hour_eq] at *
  omega

/-- The dates of the loop cover the closures. -/
theorem closedWithin_all (hz : ChangesAtWeekend z) (hab : a ≤ b) {first last : ℤ}
    (hfirst : first + 2 ≤ z.wall a / day) (hlast : z.wall b / day < last) :
    closedWithin z a b first last = b - a - openTime z a b := by
  have hclosed : closedWithin z a b first last =
      ((Finset.Ico a b).filter fun t => expectedWeeklyClosure z t = true).card := by
    rw [closedWithin]
    congr 2
    refine Finset.filter_congr fun t ht => and_iff_left_of_imp fun hclosed => ?_
    rw [Finset.mem_Ico] at ht
    have := friday_between hz hclosed ht.1 ht.2
    omega
  have hsplit := Finset.card_filter_add_card_filter_not (s := Finset.Ico a b) fun t => expectedWeeklyClosure z t = true
  rw [Int.card_Ico] at hsplit
  simp only [Bool.not_eq_true] at hsplit
  rw [hclosed, openTime]
  omega

/-- Within eight days of the first instant of `datetime` or five of the last. -/
def NearLimit (a b : ℤ) : Prop := a < 8 * day ∨ 3652059 * day < b + 5 * day

/-- **The clock of the open market measures the open time**, or overflows at the limits of `datetime`. -/
theorem elapsed_okUnless (hz : ChangesAtWeekend z) (hab : a ≤ b) :
    OkUnless (NearLimit a b) (marketOpenElapsed z a b) (openTime z a b) := by
  have ha := z.offset_lt a
  have hb := z.offset_lt b
  have hall : closedWithin z a b (z.wall a / day - 7) (z.wall b / day + 1) = b - a - openTime z a b :=
    closedWithin_all hz hab (by omega) (by omega)
  simp only [NearLimit, Zone.wall, day_eq] at *
  rw [marketOpenElapsed, if_neg hab.not_gt]
  refine .bind (checked_okUnless fun hP => ?_) (.bind (checked_okUnless fun hP => ?_) (.bind (checked_okUnless fun hP => ?_)
    (.bind (checkedDate_okUnless fun hP => ?_) (.bind (checked_okUnless fun hP => ?_)
      (.bind (v := b - a - openTime z a b) ?_ ?_)))))
  iterate 5
    · simp only [Zone.wall, day_eq]
      omega
  · have hloop := closedTime_okUnless (P := a < 8 * 86400000000 ∨ 3652059 * 86400000000 < b + 5 * 86400000000) (a := a)
      (b := b) (c := z.wall a / day - 7) hz (z.wall b / day + 1 - (z.wall a / day - 7)).toNat
      (fun hP => by simp only [Zone.wall, day_eq]; omega) 0
    simp only [Zone.wall, day_eq, Int.toNat_of_nonneg (show 0 ≤ (b + z.offset b) / 86400000000 + 1 -
      ((a + z.offset a) / 86400000000 - 7) by omega), add_sub_cancel, hall, zero_add] at hloop ⊢
    exact hloop
  · exact .inl (congrArg Except.ok (by ring))

theorem openTime_add (z : Zone) (hab : a ≤ b) (hbc : b ≤ c) : openTime z a c = openTime z a b + openTime z b c := by
  rw [openTime, ← Finset.Ico_union_Ico_eq_Ico hab hbc, Finset.filter_union, Finset.card_union_of_disjoint, Nat.cast_add]
  · rfl
  · exact Finset.disjoint_filter_filter (Finset.Ico_disjoint_Ico_consecutive a b c)

theorem openTime_nonneg (z : Zone) (a b : ℤ) : 0 ≤ openTime z a b := Nat.cast_nonneg _

theorem openTime_le (z : Zone) (hab : a ≤ b) : openTime z a b ≤ b - a := by
  have h := Finset.card_filter_le (Finset.Ico a b) fun t => expectedWeeklyClosure z t = false
  rw [Int.card_Ico] at h
  rw [openTime]
  omega

/-- **The clock of the open market is exact.**  Between two instants it returns the open time, or
    overflows at the limits of `datetime`; what it returns is monotone, antitone and additive. -/
theorem marketOpenElapsed_exact (hz : ChangesAtWeekend z) (hab : a ≤ b) (hbc : b ≤ c) :
    OkUnless (NearLimit a b) (marketOpenElapsed z a b) (openTime z a b) ∧
    ∀ x y w, marketOpenElapsed z a b = .ok x → marketOpenElapsed z b c = .ok y → marketOpenElapsed z a c = .ok w →
      (0 ≤ x ∧ x ≤ b - a) ∧ x ≤ w ∧ y ≤ w ∧ w = x + y := by
  have value : ∀ {a b v}, a ≤ b → marketOpenElapsed z a b = .ok v → v = openTime z a b := by
    intro a b v hab hv
    rcases elapsed_okUnless hz hab with h | ⟨h, -⟩
    · exact Except.ok.inj (hv.symm.trans h)
    · cases hv.symm.trans h
  refine ⟨elapsed_okUnless hz hab, ?_⟩
  intro x y w hx hy hw
  obtain rfl := value hab hx
  obtain rfl := value hbc hy
  obtain rfl := value (hab.trans hbc) hw
  have hadd := openTime_add z hab hbc
  have h₁ := openTime_nonneg z a b
  have h₂ := openTime_nonneg z b c
  exact ⟨⟨h₁, openTime_le z hab⟩, by omega, by omega, hadd⟩

end

/-- A clock five hours behind, and four from an instant on. -/
def eastern (change : ℤ) : Zone where
  offset t := if t < change then -5 * hour else -4 * hour
  utc wall := if wall + 4 * hour < change then wall + 5 * hour else wall + 4 * hour
  offset_lt t := by
    simp only [day_eq, hour_eq]
    split <;> omega
  utc_wall t _ := by
    simp only [hour_eq]
    split <;> split <;> omega

/-- From Friday 16:59 to Sunday 18:01 over the change on Sunday 8 March 2026. -/
theorem marketOpenElapsed_exact_spring : openTime (eastern 63908550000000000) 63908431140000000 63908604060000000 = 120000000 := by
  have hz : ChangesAtWeekend (eastern 63908550000000000) := by
    intro t ht
    simp only [eastern, InWeekend, day_eq, hour_eq] at *
    split at ht <;> split at ht <;> omega
  have h := (marketOpenElapsed_exact hz (a := 63908431140000000) (b := 63908604060000000) (c := 63908604060000000)
    (by decide) le_rfl).1
  rw [show marketOpenElapsed (eastern 63908550000000000) 63908431140000000 63908604060000000 = .ok 120000000 by decide] at h
  rcases h with h | ⟨h, -⟩
  · exact (Except.ok.inj h).symm
  · cases h

/-- The clock of UTC. -/
def zoneUtc : Zone where
  offset _ := 0
  utc wall := wall
  offset_lt _ := by decide
  utc_wall t _ := add_zero t

/-- **The seven days before the first date do not exist.** -/
theorem first_day_overflows : ¬ ∀ z, ChangesAtWeekend z → ∀ a b, 0 ≤ a → a ≤ b → b < 3652059 * day →
    marketOpenElapsed z a b = .ok (openTime z a b) := by
  intro h
  have hno := h zoneUtc (fun t ht => absurd rfl ht) 0 0 le_rfl le_rfl (by decide)
  rw [show marketOpenElapsed zoneUtc 0 0 = .error .overflow by decide] at hno
  cases hno

end Xauusd.Market
