/-
  Instants and their ISO 8601 texts.

  An instant is an integer: the microseconds since 0001-01-01T00:00:00 UTC.

  * `dateOf` is the proleptic Gregorian date of a day number, computed by
    cycles of 400, 100, 4 and 1 years;
  * `iso` is the text `YYYY-MM-DDTHH:MM:SS.ffffff+00:00`, `isoMillis` the text
    `YYYY-MM-DDTHH:MM:SS.sssZ`;
  * `render_lt`: texts with the same field widths compare as their fields do;
  * `iso_lt_iff`: within the years 1 to 9999 the texts compare, as strings, as
    the instants do, so a column of such texts can be read as instants;
  * `iso_ne_isoMillis`: the two texts of any instants differ.
-/
import Mathlib
import Xauusd.Lib.Text

namespace IsoTime

def second : ℤ := 1000000
def minute : ℤ := 60 * second
def hour : ℤ := 60 * minute
def day : ℤ := 24 * hour

/-! ## The calendar -/

structure Date where
  year : ℕ
  month : ℕ
  day : ℕ
  deriving DecidableEq

def isLeap (y : ℕ) : Bool := decide (y % 4 = 0 ∧ (y % 100 ≠ 0 ∨ y % 400 = 0))

def yearLength (y : ℕ) : ℕ := if isLeap y then 366 else 365

/-- Days of the years before `y`. -/
def daysBeforeYear (y : ℕ) : ℕ := (y - 1) * 365 + (y - 1) / 4 - (y - 1) / 100 + (y - 1) / 400

/-- Days of the year before month `m`. -/
def daysBeforeMonth (leap : Bool) (m : ℕ) : ℕ :=
  [0, 0, 31, 59, 90, 120, 151, 181, 212, 243, 273, 304, 334].getD m 365 +
    if leap && 2 < m then 1 else 0

/-- The year of a day number, and the day's index in it. -/
def yearDay (n : ℕ) : ℕ × ℕ :=
  let n400 := n / 146097
  let r := n % 146097
  let n100 := min (r / 36524) 3
  let r := r - n100 * 36524
  let n4 := r / 1461
  let r := r % 1461
  let n1 := min (r / 365) 3
  (400 * n400 + 100 * n100 + 4 * n4 + n1 + 1, r - n1 * 365)

/-- The month and the day of the month with index `r` in its year. -/
def monthDay (leap : Bool) (r : ℕ) : ℕ × ℕ :=
  let m := (List.range' 1 12).countP fun m => daysBeforeMonth leap m ≤ r
  (m, r - daysBeforeMonth leap m + 1)

/-- The date of a day number. -/
def dateOf (n : ℕ) : Date :=
  let (y, r) := yearDay n
  let (m, d) := monthDay (isLeap y) r
  ⟨y, m, d⟩

theorem yearLength_cases (y : ℕ) :
    (y % 4 = 0 ∧ (y % 100 ≠ 0 ∨ y % 400 = 0)) ∧ yearLength y = 366 ∨
      ¬ (y % 4 = 0 ∧ (y % 100 ≠ 0 ∨ y % 400 = 0)) ∧ yearLength y = 365 := by
  by_cases h : y % 4 = 0 ∧ (y % 100 ≠ 0 ∨ y % 400 = 0)
  · exact .inl ⟨h, by rw [yearLength, isLeap, if_pos (decide_eq_true h)]⟩
  · exact .inr ⟨h, by rw [yearLength, isLeap, if_neg (by simpa using h)]⟩

theorem daysBeforeYear_succ (y : ℕ) (hy : 1 ≤ y) :
    daysBeforeYear (y + 1) = daysBeforeYear y + yearLength y := by
  obtain ⟨p, rfl⟩ : ∃ p, y = p + 1 := ⟨y - 1, by omega⟩
  have step (k : ℕ) : (p + 1) / k = p / k + if (p + 1) % k = 0 then 1 else 0 := by
    simp only [Nat.succ_div, Nat.dvd_iff_mod_eq_zero]
  have h100 : (p + 1) % 400 = 0 → (p + 1) % 100 = 0 := by omega
  have h4 : (p + 1) % 100 = 0 → (p + 1) % 4 = 0 := by omega
  have hle : p / 100 ≤ p / 4 := by omega
  have hl := yearLength_cases (p + 1)
  simp only [daysBeforeYear, Nat.add_sub_cancel, step 4, step 100, step 400]
  generalize yearLength (p + 1) = l, (p + 1) % 4 = x, (p + 1) % 100 = y, (p + 1) % 400 = z,
    p / 4 = q, p / 100 = q', p / 400 = q'' at *
  rcases hl with ⟨hl, rfl⟩ | ⟨hl, rfl⟩ <;> split <;> split <;> split <;> omega

theorem daysBeforeYear_cycles {a b c d : ℕ} (hb : b ≤ 3) (hc : c ≤ 24) (hd : d ≤ 3) :
    daysBeforeYear (400 * a + 100 * b + 4 * c + d + 1) =
      146097 * a + 36524 * b + 1461 * c + 365 * d := by
  have h4 : (400 * a + 100 * b + 4 * c + d) / 4 = 100 * a + 25 * b + c := by omega
  have h100 : (400 * a + 100 * b + 4 * c + d) / 100 = 4 * a + b := by omega
  have h400 : (400 * a + 100 * b + 4 * c + d) / 400 = a := by omega
  rw [daysBeforeYear, Nat.add_sub_cancel, h4, h100, h400]
  omega

theorem yearDay_spec (n : ℕ) :
    1 ≤ (yearDay n).1 ∧ daysBeforeYear (yearDay n).1 + (yearDay n).2 = n ∧
      (yearDay n).2 < yearLength (yearDay n).1 := by
  obtain ⟨a, r, hr, rfl⟩ : ∃ a r, r < 146097 ∧ n = 146097 * a + r :=
    ⟨n / 146097, n % 146097, by omega, by omega⟩
  have ha : (146097 * a + r) / 146097 = a := by omega
  have hr' : (146097 * a + r) % 146097 = r := by omega
  obtain ⟨b, r₂, hb, rb, h₂⟩ : ∃ b r₂, b = min (r / 36524) 3 ∧ r = 36524 * b + r₂ ∧
      (r₂ < 36524 ∨ b = 3 ∧ r₂ = 36524) :=
    ⟨_, r - 36524 * min (r / 36524) 3, rfl, by omega, by omega⟩
  have hb3 : b ≤ 3 := by omega
  obtain ⟨c, r₃, hc, rc, h₃⟩ : ∃ c r₃, c = r₂ / 1461 ∧ r₂ = 1461 * c + r₃ ∧ r₃ < 1461 :=
    ⟨_, r₂ % 1461, rfl, by omega, by omega⟩
  have hc24 : c ≤ 24 := by omega
  obtain ⟨d, r₄, hd, rd, h₄⟩ : ∃ d r₄, d = min (r₃ / 365) 3 ∧ r₃ = 365 * d + r₄ ∧
      (r₄ < 365 ∨ d = 3 ∧ r₄ = 365) := ⟨_, r₃ - 365 * min (r₃ / 365) 3, rfl, by omega, by omega⟩
  have hd3 : d ≤ 3 := by omega
  have e : yearDay (146097 * a + r) = (400 * a + 100 * b + 4 * c + d + 1, r₄) := by
    have e₂ : r - b * 36524 = r₂ := by omega
    have e₃ : r₂ % 1461 = r₃ := by omega
    have e₄ : r₃ - d * 365 = r₄ := by omega
    simp only [yearDay, ha, hr', ← hb, e₂, ← hc, e₃, ← hd, e₄]
  have hl := yearLength_cases (400 * a + 100 * b + 4 * c + d + 1)
  rw [e]
  refine ⟨by omega, ?_, ?_⟩
  · rw [daysBeforeYear_cycles hb3 hc24 hd3]; omega
  · show r₄ < _
    generalize yearLength _ = l at hl
    omega

theorem daysBeforeYear_mono {y y' : ℕ} (hy : 1 ≤ y) (h : y ≤ y') :
    daysBeforeYear y ≤ daysBeforeYear y' := by
  induction y', h using Nat.le_induction with
  | base => exact le_rfl
  | succ z hz ih => rw [daysBeforeYear_succ z (hy.trans hz)]; omega

/-- Later days are in a later year, or later in the same year. -/
theorem yearDay_lt {n n' : ℕ} (h : n < n') :
    (yearDay n).1 < (yearDay n').1 ∨
      (yearDay n).1 = (yearDay n').1 ∧ (yearDay n).2 < (yearDay n').2 := by
  obtain ⟨h1, h2, h3⟩ := yearDay_spec n
  obtain ⟨h1', h2', h3'⟩ := yearDay_spec n'
  rcases lt_trichotomy (yearDay n).1 (yearDay n').1 with hy | hy | hy
  · exact .inl hy
  · refine .inr ⟨hy, ?_⟩; rw [hy] at h2; omega
  · have := daysBeforeYear_mono (Nat.le_add_left 1 _) hy
    rw [daysBeforeYear_succ _ h1'] at this
    omega

theorem daysBeforeMonth_step (leap : Bool) : ∀ m < 12, 1 ≤ m →
    daysBeforeMonth leap m ≤ daysBeforeMonth leap (m + 1) ∧
      daysBeforeMonth leap (m + 1) ≤ daysBeforeMonth leap m + 31 := by
  cases leap <;> decide

theorem daysBeforeMonth_mono (leap : Bool) {j m : ℕ} (hj : 1 ≤ j) (h : j ≤ m) (hm : m ≤ 12) :
    daysBeforeMonth leap j ≤ daysBeforeMonth leap m := by
  induction m, h using Nat.le_induction with
  | base => exact le_rfl
  | succ m hjm ih =>
    exact (ih (by omega)).trans (daysBeforeMonth_step leap m (by omega) (hj.trans hjm)).1

/-- The month of a day's index is the last one that starts no later. -/
theorem monthDay_eq (leap : Bool) (r : ℕ) : ∃ m, 1 ≤ m ∧ m ≤ 12 ∧ daysBeforeMonth leap m ≤ r ∧
    (∀ k, m < k → k ≤ 12 → r < daysBeforeMonth leap k) ∧
    monthDay leap r = (m, r - daysBeforeMonth leap m + 1) := by
  have h1 : daysBeforeMonth leap 1 ≤ r := by cases leap <;> exact Nat.zero_le r
  have hm1 := Nat.le_findGreatest (P := fun m => daysBeforeMonth leap m ≤ r) (by decide : 1 ≤ 12) h1
  have hm := Nat.findGreatest_spec (P := fun m => daysBeforeMonth leap m ≤ r) (by decide : 1 ≤ 12) h1
  have hle := Nat.findGreatest_le (P := fun m => daysBeforeMonth leap m ≤ r) 12
  have hgt (k : ℕ) := Nat.findGreatest_is_greatest (P := fun m => daysBeforeMonth leap m ≤ r)
    (n := 12) (k := k)
  generalize Nat.findGreatest (fun m => daysBeforeMonth leap m ≤ r) 12 = m at hm1 hm hle hgt
  refine ⟨m, hm1, hle, hm, fun k hk hk' => not_le.1 (hgt k hk hk'), ?_⟩
  have hcount : (List.range' 1 12).countP (fun k => daysBeforeMonth leap k ≤ r) = m := by
    have hcongr : ∀ k ∈ List.range' 1 12, decide (daysBeforeMonth leap k ≤ r) = true ↔
        decide (k ≤ m) = true := by
      intro k hk
      obtain ⟨hk1, hk12⟩ := List.mem_range'_1.1 hk
      simp only [decide_eq_true_eq]
      constructor
      · intro h
        by_contra hkm
        exact hgt k (not_le.1 hkm) (by omega) h
      · intro h
        exact (daysBeforeMonth_mono leap hk1 h hle).trans hm
    rw [List.countP_congr hcongr]
    have : ∀ m ≤ 12, (List.range' 1 12).countP (fun k => decide (k ≤ m)) = m := by decide
    exact this m hle
  rw [monthDay, hcount]

theorem monthDay_spec (leap : Bool) : ∀ r < 366, (monthDay leap r).1 < 100 ∧
    (monthDay leap r).2 < 100 ∧ ((monthDay leap r).1 < (monthDay leap (r + 1)).1 ∨
      (monthDay leap r).1 = (monthDay leap (r + 1)).1 ∧
        (monthDay leap r).2 < (monthDay leap (r + 1)).2) := by
  intro r hr
  obtain ⟨m, hm1, hm12, hm, hgt, e⟩ := monthDay_eq leap r
  obtain ⟨m', hm1', hm12', hm', hgt', e'⟩ := monthDay_eq leap (r + 1)
  rw [e, e']
  have hday : r < daysBeforeMonth leap m + 99 := by
    rcases Nat.lt_or_eq_of_le hm12 with h | rfl
    · have := (daysBeforeMonth_step leap m h hm1).2
      have := hgt (m + 1) (by omega) (by omega)
      omega
    · have : 334 ≤ daysBeforeMonth leap 12 := by cases leap <;> decide
      omega
  have hmm : m ≤ m' := by
    by_contra h
    have := hgt' m (by omega) hm12
    omega
  refine ⟨by dsimp only; omega, by dsimp only; omega, ?_⟩
  rcases Nat.lt_or_eq_of_le hmm with h | rfl
  · exact .inl h
  · exact .inr ⟨rfl, by dsimp only; omega⟩

theorem monthDay_lt (leap : Bool) {r r' : ℕ} (h : r < r') (hr' : r' < 366) :
    (monthDay leap r).1 < (monthDay leap r').1 ∨
      (monthDay leap r).1 = (monthDay leap r').1 ∧ (monthDay leap r).2 < (monthDay leap r').2 := by
  induction r', h using Nat.le_induction with
  | base => exact (monthDay_spec leap r (by omega)).2.2
  | succ q hq ih =>
    have h₁ := ih (by omega)
    have h₂ := (monthDay_spec leap q (by omega)).2.2
    omega

/-! ## Texts of fixed width -/

def digit (d : ℕ) : Char := Char.ofNat (48 + d)

/-- The last `k` decimal digits of `n`, with leading zeros. -/
def padded : ℕ → ℕ → List Char
  | 0, _ => []
  | k + 1, n => digit (n / 10 ^ k) :: padded k (n % 10 ^ k)

/-- Fields of given widths, each followed by a literal. -/
def render : List (ℕ × List Char) → List ℕ → List Char
  | (w, lit) :: spec, v :: vs => padded w v ++ (lit ++ render spec vs)
  | _, _ => []

theorem digit_lt {a b : ℕ} (h : a < b) (hb : b < 10) : digit a < digit b := by
  have : ∀ b < 10, ∀ a < b, digit a < digit b := by decide
  exact this b hb a h

@[simp] theorem length_padded (k n : ℕ) : (padded k n).length = k := by
  induction k generalizing n with
  | zero => rfl
  | succ k ih => simp [padded, ih]

theorem padded_lt {k n m : ℕ} (h : n < m) (hm : m < 10 ^ k) : padded k n < padded k m := by
  induction k generalizing n m with
  | zero => simp at hm; omega
  | succ k ih =>
    have hq : m / 10 ^ k < 10 := Nat.div_lt_of_lt_mul (by rwa [Nat.pow_succ] at hm)
    rw [padded, padded, List.cons_lt_cons_iff]
    rcases Nat.lt_or_eq_of_le (Nat.div_le_div_right (c := 10 ^ k) h.le) with hd | hd
    · exact .inl (digit_lt hd hq)
    · refine .inr ⟨by rw [hd], ih ?_ (Nat.mod_lt _ (Nat.pow_pos (by omega)))⟩
      have hn := Nat.div_add_mod n (10 ^ k)
      have hm' := Nat.div_add_mod m (10 ^ k)
      rw [hd] at hn; omega

theorem append_lt_append {l l' r r' : List Char} (hl : l.length = l'.length) (h : l < l') :
    l ++ r < l' ++ r' := by
  induction l generalizing l' with
  | nil => cases l' with
    | nil => simp at h
    | cons => simp at hl
  | cons a l ih =>
    cases l' with
    | nil => simp at hl
    | cons b l' =>
      simp only [List.cons_append, List.cons_lt_cons_iff] at h ⊢
      exact h.imp id fun h => ⟨h.1, ih (by simpa using hl) h.2⟩

/-- **Texts with the same field widths compare as their fields do.** -/
theorem render_lt {spec : List (ℕ × List Char)} {vs vs' : List ℕ}
    (h : List.Forall₂ (fun s v => v < 10 ^ s.1) spec vs)
    (h' : List.Forall₂ (fun s v => v < 10 ^ s.1) spec vs') (hlt : vs < vs') :
    render spec vs < render spec vs' := by
  induction h generalizing vs' with
  | nil => cases h'; simp at hlt
  | @cons s v spec vs hv _ ih =>
    obtain ⟨w, lit⟩ := s
    obtain _ | @⟨_, v', _, vs', hv', h'⟩ := h'
    simp only [List.cons_lt_cons_iff] at hlt
    rcases hlt with hlt | ⟨rfl, hlt⟩
    · exact append_lt_append (by simp) (padded_lt hlt hv')
    · exact List.append_left_lt (List.append_left_lt (ih h' hlt))

/-! ## Texts of instants -/

/-- Year, month, day, hour, minute, second and microsecond of an instant. -/
def fieldsOf (t : ℕ) : List ℕ :=
  let d := dateOf (t / 86400000000)
  [d.year, d.month, d.day, t / 3600000000 % 24, t / 60000000 % 60, t / 1000000 % 60, t % 1000000]

/-- The instants of the years 1 to 9999. -/
def InRange (t : ℤ) : Prop := 0 ≤ t ∧ t < 3652059 * day

def isoSpec : List (ℕ × List Char) :=
  [(4, ['-']), (2, ['-']), (2, ['T']), (2, [':']), (2, [':']), (2, ['.']),
    (6, ['+', '0', '0', ':', '0', '0'])]

/-- `YYYY-MM-DDTHH:MM:SS.ffffff+00:00` -/
def iso (t : ℤ) : String := String.ofList (render isoSpec (fieldsOf t.toNat))

def isoMillisSpec : List (ℕ × List Char) :=
  [(4, ['-']), (2, ['-']), (2, ['T']), (2, [':']), (2, [':']), (2, ['.']), (3, ['Z'])]

/-- `YYYY-MM-DDTHH:MM:SS.sssZ`, the microseconds cut to milliseconds. -/
def isoMillis (t : ℤ) : String :=
  String.ofList (render isoMillisSpec
    ((fieldsOf t.toNat).take 6 ++ [t.toNat / 1000 % 1000]))

theorem fieldsOf_valid {t : ℕ} (h : t < 3652059 * 86400000000) :
    List.Forall₂ (fun s v => v < 10 ^ s.1) isoSpec (fieldsOf t) := by
  have hd : t / 86400000000 < 3652059 := by omega
  obtain ⟨h1, h2, h3⟩ := yearDay_spec (t / 86400000000)
  have hy : (yearDay (t / 86400000000)).1 < 10000 := by
    by_contra hy
    have := daysBeforeYear_mono (y := 10000) (by omega) (not_lt.1 hy)
    have h0 : daysBeforeYear 10000 = 3652059 := by decide
    omega
  have hr : (yearDay (t / 86400000000)).2 < 366 := by
    have := yearLength_cases (yearDay (t / 86400000000)).1
    omega
  obtain ⟨hm, hd', -⟩ := monthDay_spec (isLeap (yearDay (t / 86400000000)).1) _ hr
  simp only [isoSpec, fieldsOf, dateOf, List.forall₂_cons]
  refine ⟨hy, hm, hd', ?_, ?_, ?_, ?_, .nil⟩ <;> omega

theorem dateOf_lt {n n' : ℕ} (h : n < n') : (dateOf n).year < (dateOf n').year ∨
    (dateOf n).year = (dateOf n').year ∧ ((dateOf n).month < (dateOf n').month ∨
      (dateOf n).month = (dateOf n').month ∧ (dateOf n).day < (dateOf n').day) := by
  simp only [dateOf]
  rcases yearDay_lt h with hy | ⟨hy, hr⟩
  · exact .inl hy
  · have hl : (yearDay n').2 < 366 := by
      have := (yearDay_spec n').2.2
      have := yearLength_cases (yearDay n').1
      omega
    rw [hy]
    exact .inr ⟨rfl, monthDay_lt _ hr hl⟩

theorem fieldsOf_lt {t u : ℕ} (h : t < u) : fieldsOf t < fieldsOf u := by
  have h₁ : t / 86400000000 < u / 86400000000 ∨ t / 86400000000 = u / 86400000000 := by omega
  have h₂ : t / 86400000000 = u / 86400000000 →
      t / 3600000000 % 24 < u / 3600000000 % 24 ∨ t / 3600000000 = u / 3600000000 := by omega
  have h₃ : t / 3600000000 = u / 3600000000 →
      t / 60000000 % 60 < u / 60000000 % 60 ∨ t / 60000000 = u / 60000000 := by omega
  have h₄ : t / 60000000 = u / 60000000 →
      t / 1000000 % 60 < u / 1000000 % 60 ∨ t / 1000000 = u / 1000000 := by omega
  have h₅ : t / 1000000 = u / 1000000 → t % 1000000 < u % 1000000 := by omega
  simp only [fieldsOf, List.cons_lt_cons_iff]
  rcases h₁ with e | e
  · exact (dateOf_lt e).imp id fun e => ⟨e.1, e.2.imp id fun e => ⟨e.1, .inl e.2⟩⟩
  rw [e]
  refine .inr ⟨rfl, .inr ⟨rfl, .inr ⟨rfl, ?_⟩⟩⟩
  rcases h₂ e with e | e
  · exact .inl e
  rw [e]
  refine .inr ⟨rfl, ?_⟩
  rcases h₃ e with e | e
  · exact .inl e
  rw [e]
  refine .inr ⟨rfl, ?_⟩
  rcases h₄ e with e | e
  · exact .inl e
  rw [e]
  exact .inr ⟨rfl, .inl (h₅ e)⟩

theorem iso_lt {t u : ℤ} (ht : 0 ≤ t) (hu : InRange u) (h : t < u) : iso t < iso u := by
  have hu' := hu.2
  simp only [day, hour, minute, second] at hu'
  rw [String.lt_iff, iso, iso, String.toList_ofList, String.toList_ofList]
  exact render_lt (fieldsOf_valid (by omega)) (fieldsOf_valid (by omega)) (fieldsOf_lt (by omega))

/-- **Columns of texts compare as the instants they stand for.** -/
theorem iso_lt_iff {t u : ℤ} (ht : InRange t) (hu : InRange u) : iso t < iso u ↔ t < u := by
  refine ⟨fun h => ?_, iso_lt ht.1 hu⟩
  rcases lt_trichotomy t u with hlt | rfl | hlt
  · exact hlt
  · exact absurd h (String.lt_irrefl _)
  · exact absurd h (String.lt_asymm (iso_lt hu.1 ht hlt))

theorem iso_inj {t u : ℤ} (ht : InRange t) (hu : InRange u) : iso t = iso u ↔ t = u := by
  refine ⟨fun h => ?_, fun h => h ▸ rfl⟩
  rcases lt_trichotomy t u with hlt | rfl | hlt
  · exact absurd (iso_lt ht.1 hu hlt) (h ▸ String.lt_irrefl _)
  · rfl
  · exact absurd (iso_lt hu.1 ht hlt) (h ▸ String.lt_irrefl _)

theorem render_getLast (spec : List (ℕ × List Char)) (vs : List ℕ) {w : ℕ} (lit : List Char)
    {c : Char} {v : ℕ} (h : spec.length = vs.length) :
    (render (spec ++ [(w, lit ++ [c])]) (vs ++ [v])).getLast? = some c := by
  induction spec generalizing vs with
  | nil =>
    cases vs with
    | nil => simp [render, ← List.append_assoc]
    | cons => simp at h
  | cons s spec ih =>
    cases vs with
    | nil => simp at h
    | cons u vs =>
      have h' := ih vs (by simpa using h)
      have hne : render (spec ++ [(w, lit ++ [c])]) (vs ++ [v]) ≠ [] := by
        intro e; simp [e] at h'
      rw [List.cons_append, List.cons_append, render, ← List.append_assoc,
        List.getLast?_append_of_ne_nil _ hne, h']

theorem iso_getLast (t : ℤ) : (iso t).toList.getLast? = some '0' := by
  rw [iso, String.toList_ofList]
  exact render_getLast (isoSpec.take 6) ((fieldsOf t.toNat).take 6) ['+', '0', '0', ':', '0'] rfl

theorem isoMillis_getLast (t : ℤ) : (isoMillis t).toList.getLast? = some 'Z' := by
  rw [isoMillis, String.toList_ofList]
  exact render_getLast (isoMillisSpec.take 6) ((fieldsOf t.toNat).take 6) [] rfl

/-- **The two texts of any instants differ.** -/
theorem iso_ne_isoMillis (t u : ℤ) : iso t ≠ isoMillis u := fun h => by
  have := iso_getLast t
  rw [h, isoMillis_getLast] at this
  exact absurd this (by decide)

/-! ## Shapes -/

theorem digit_isDigit {d : ℕ} (h : d < 10) : '0' ≤ digit d ∧ digit d ≤ '9' := by
  have : ∀ d < 10, '0' ≤ digit d ∧ digit d ≤ '9' := by decide
  exact this d h

theorem padded_isDigit {k n : ℕ} (h : n < 10 ^ k) : ∀ c ∈ padded k n, '0' ≤ c ∧ c ≤ '9' := by
  induction k generalizing n with
  | zero => exact fun c hc => absurd hc List.not_mem_nil
  | succ k ih =>
    have hq : n / 10 ^ k < 10 := Nat.div_lt_of_lt_mul (by rwa [Nat.pow_succ] at h)
    refine List.forall_mem_cons.2 ⟨digit_isDigit hq, ih (Nat.mod_lt _ (Nat.pow_pos (by omega)))⟩

/-- A mark for every digit of the fields, and the literals as they are. -/
def shapeOf (spec : List (ℕ × List Char)) : List Char :=
  spec.flatMap fun s => List.replicate s.1 '#' ++ s.2

theorem render_shaped {spec : List (ℕ × List Char)} {vs : List ℕ}
    (h : List.Forall₂ (fun s v => v < 10 ^ s.1) spec vs) (hlit : ∀ s ∈ spec, '#' ∉ s.2) :
    (render spec vs).length = (shapeOf spec).length ∧
      ∀ m ∈ (render spec vs).zip (shapeOf spec),
        if m.2 = '#' then '0' ≤ m.1 ∧ m.1 ≤ '9' else m.1 = m.2 := by
  induction h with
  | nil => exact ⟨rfl, fun m hm => absurd hm List.not_mem_nil⟩
  | @cons s v spec vs hv _ ih =>
    obtain ⟨w, lit⟩ := s
    obtain ⟨hlit, hlits⟩ := List.forall_mem_cons.1 hlit
    obtain ⟨hlength, hall⟩ := ih hlits
    rw [render, shapeOf, List.flatMap_cons, ← shapeOf, List.append_assoc]
    refine ⟨by simp [hlength], fun m hm => ?_⟩
    rw [List.zip_append (by simp), List.zip_append rfl] at hm
    rcases List.mem_append.1 hm with hm | hm
    · obtain ⟨hdigit, hmark⟩ := List.of_mem_zip (a := m.1) (b := m.2) hm
      rw [if_pos (List.eq_of_mem_replicate hmark)]
      exact padded_isDigit hv _ hdigit
    rcases List.mem_append.1 hm with hm | hm
    · have heq : m.1 = m.2 := by
        obtain ⟨i, hi, rfl⟩ := List.getElem_of_mem hm
        rw [List.getElem_zip]
      have hne : m.2 ≠ '#' := fun h => hlit (h ▸ (List.of_mem_zip (a := m.1) (b := m.2) hm).2)
      rw [if_neg hne]
      exact heq
    · exact hall m hm

/-- The text of an instant has the shape of such texts. -/
theorem shaped_iso {t : ℤ} (ht : InRange t) :
    Text.shaped "####-##-##T##:##:##.######+00:00" (iso t) = true := by
  have ht' := ht.2
  simp only [day, hour, minute, second] at ht'
  have hshape : "####-##-##T##:##:##.######+00:00".toList = shapeOf isoSpec := by decide
  obtain ⟨hlength, hall⟩ := render_shaped (fieldsOf_valid (t := t.toNat) (by omega))
    (by decide : ∀ s ∈ isoSpec, '#' ∉ s.2)
  simp only [Text.shaped, hshape, iso, String.toList_ofList, Bool.and_eq_true, decide_eq_true_eq,
    List.all_eq_true]
  refine ⟨hlength, fun m hm => ?_⟩
  have := hall m hm
  split at this <;> simp_all

theorem padded_add {k j n r : ℕ} (hn : n < 10 ^ k) (hr : r < 10 ^ j) :
    padded (k + j) (n * 10 ^ j + r) = padded k n ++ padded j r := by
  induction k generalizing n with
  | zero =>
    obtain rfl : n = 0 := by simpa using hn
    simp [padded]
  | succ k ih =>
    have hpow : 10 ^ (k + j) = 10 ^ j * 10 ^ k := by rw [pow_add, mul_comm]
    have hquot : (n * 10 ^ j + r) / 10 ^ (k + j) = n / 10 ^ k := by
      rw [hpow, ← Nat.div_div_eq_div_mul, mul_comm, Nat.mul_add_div (Nat.pow_pos (by omega)),
        Nat.div_eq_of_lt hr, add_zero]
    have hrem : (n * 10 ^ j + r) % 10 ^ (k + j) = n % 10 ^ k * 10 ^ j + r := by
      have h1 := Nat.div_add_mod (n * 10 ^ j + r) (10 ^ (k + j))
      have h2 := Nat.div_add_mod n (10 ^ k)
      rw [hquot, hpow] at h1
      have h3 : n * 10 ^ j = 10 ^ j * 10 ^ k * (n / 10 ^ k) + n % 10 ^ k * 10 ^ j := by
        conv_lhs => rw [← h2]
        ring
      rw [hpow]
      omega
    rw [Nat.succ_add, padded, padded, hquot, hrem, ih (Nat.mod_lt _ (Nat.pow_pos (by omega)))]
    rfl

/-- The text of a whole millisecond is that in milliseconds, with zeros for the
    microseconds. -/
theorem iso_of_isoMillis {m : ℤ} (hm : 0 ≤ m) :
    iso (1000 * m) = String.ofList ((isoMillis (1000 * m)).toList.take 23) ++ "000+00:00" := by
  obtain ⟨n, rfl⟩ := Int.eq_ofNat_of_zero_le hm
  have hmicro : 1000 * n % 1000000 = n % 1000 * 10 ^ 3 + 0 := by omega
  have hmilli : 1000 * n / 1000 % 1000 = n % 1000 := by omega
  have hnat : (1000 * (n : ℤ)).toNat = 1000 * n := by omega
  refine String.toList_injective ?_
  rw [String.toList_append, iso, isoMillis, hnat, String.toList_ofList, String.toList_ofList,
    String.toList_ofList]
  simp only [fieldsOf, isoSpec, isoMillisSpec, render, List.take_succ_cons, List.take_zero,
    List.cons_append, List.nil_append, hmicro, hmilli]
  have hpadded : padded 6 (n % 1000 * 10 ^ 3 + 0) = padded 3 (n % 1000) ++ ['0', '0', '0'] :=
    padded_add (k := 3) (j := 3) (Nat.mod_lt _ (by norm_num)) (by norm_num)
  have hzone : "000+00:00".toList = ['0', '0', '0', '+', '0', '0', ':', '0', '0'] := rfl
  rw [hpadded, hzone]
  simp [List.take_append, List.take_of_length_le]

example : iso 63903351540000123 = "2026-01-07T02:59:00.000123+00:00" := by decide

end IsoTime
