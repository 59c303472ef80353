/-
  The numbers of binary64.

  * `value`: the number that finite bits stand for;
  * `value_inj`: **two bit patterns stand for one number if they are the same,
    or both zero**;
  * `ofInt`: the bits of a whole number, `value_ofInt` exact below `2 ^ 53`.
-/
import Mathlib
import Xauusd.Lib.Json

namespace Binary64

def sign (bits : BitVec 64) : ℕ := bits.toNat / 2 ^ 63
def exponent (bits : BitVec 64) : ℕ := bits.toNat / 2 ^ 52 % 2048
def fraction (bits : BitVec 64) : ℕ := bits.toNat % 2 ^ 52

theorem fields (bits : BitVec 64) : bits.toNat = sign bits * 2 ^ 63 + exponent bits * 2 ^ 52 + fraction bits := by
  simp only [sign, exponent, fraction]
  omega

theorem sign_le (bits : BitVec 64) : sign bits ≤ 1 := by
  have hbits := bits.isLt
  simp only [sign]
  omega

theorem fraction_lt (bits : BitVec 64) : fraction bits < 2 ^ 52 := Nat.mod_lt _ (by decide)

/-- The magnitude, in units of the least positive number. -/
def magnitude (exponent fraction : ℕ) : ℕ := if exponent = 0 then fraction else (2 ^ 52 + fraction) * 2 ^ (exponent - 1)

/-- The signed number, in the same units. -/
def scaled (bits : BitVec 64) : ℤ :=
  if sign bits = 0 then magnitude (exponent bits) (fraction bits) else -magnitude (exponent bits) (fraction bits)

/-- The number that finite bits stand for. -/
def value (bits : BitVec 64) : ℚ := scaled bits / 2 ^ 1074

theorem isFinite_iff {bits : BitVec 64} : Json.isFinite bits = true ↔ exponent bits ≠ 2047 := by
  have hbits : ((bits >>> 52) &&& 0x7ff).toNat = exponent bits := by
    rw [BitVec.toNat_and, BitVec.toNat_ushiftRight, exponent, Nat.shiftRight_eq_div_pow]
    exact Nat.and_two_pow_sub_one_eq_mod _ 11
  rw [Json.isFinite, decide_eq_true_eq, ne_eq, ne_eq, ← BitVec.toNat_inj, hbits]
  rfl

theorem isZero_iff {bits : BitVec 64} : Json.isZero bits = true ↔ exponent bits = 0 ∧ fraction bits = 0 := by
  have hbits := bits.isLt
  have hzero : (0 : BitVec 64).toNat = 0 := rfl
  have hminus : (0x8000000000000000 : BitVec 64).toNat = 2 ^ 63 := rfl
  simp only [Json.isZero, Bool.or_eq_true, decide_eq_true_eq, ← BitVec.toNat_inj, exponent, fraction, hzero, hminus]
  omega

theorem magnitude_eq_zero {e f : ℕ} : magnitude e f = 0 ↔ e = 0 ∧ f = 0 := by
  rw [magnitude]
  split
  · next he => simp [he]
  · next he => simp [he]

/-! ## Different bits -/

theorem magnitude_lt {e f f' e' : ℕ} (hf : f < 2 ^ 52) (he : e < e') : magnitude e f < magnitude e' f' := by
  have hpos : e' ≠ 0 := by omega
  rw [magnitude, magnitude, if_neg hpos]
  split
  · have hone : 1 ≤ 2 ^ (e' - 1) := Nat.one_le_two_pow
    nlinarith
  · next hne =>
    have hpow : 2 ^ (e - 1) * 2 ≤ 2 ^ (e' - 1) := by
      rw [← pow_succ]
      exact Nat.pow_le_pow_right (by decide) (by omega)
    calc (2 ^ 52 + f) * 2 ^ (e - 1) < 2 ^ 53 * 2 ^ (e - 1) :=
          Nat.mul_lt_mul_of_pos_right (by omega) (by positivity)
      _ = 2 ^ 52 * (2 ^ (e - 1) * 2) := by ring
      _ ≤ (2 ^ 52 + f') * 2 ^ (e' - 1) := Nat.mul_le_mul (by omega) hpow

theorem magnitude_inj {e f e' f' : ℕ} (hf : f < 2 ^ 52) (hf' : f' < 2 ^ 52) (h : magnitude e f = magnitude e' f') :
    e = e' ∧ f = f' := by
  rcases lt_trichotomy e e' with hlt | rfl | hlt
  · exact absurd h (magnitude_lt hf hlt).ne
  · refine ⟨rfl, ?_⟩
    rw [magnitude, magnitude] at h
    split at h
    · exact h
    · have := Nat.eq_of_mul_eq_mul_right (by positivity) h
      omega
  · exact absurd h.symm (magnitude_lt hf' hlt).ne

/-- **Two bit patterns stand for one number if they are the same, or both
    zero.** -/
theorem value_inj {a b : BitVec 64} : value a = value b ↔ a = b ∨ Json.isZero a = true ∧ Json.isZero b = true := by
  have hscaled : value a = value b ↔ scaled a = scaled b := by
    rw [value, value, div_left_inj' (by positivity), Int.cast_inj]
  have hzero (bits : BitVec 64) : Json.isZero bits = true ↔ magnitude (exponent bits) (fraction bits) = 0 := by
    rw [isZero_iff, magnitude_eq_zero]
  rw [hscaled]
  constructor
  · intro h
    have hsign := sign_le a
    have hsign' := sign_le b
    by_cases ha : magnitude (exponent a) (fraction a) = 0
    · refine .inr ⟨(hzero a).2 ha, (hzero b).2 ?_⟩
      simp only [scaled] at h
      split at h <;> split at h <;> omega
    · have hsame : sign a = sign b ∧ magnitude (exponent a) (fraction a) = magnitude (exponent b) (fraction b) := by
        simp only [scaled] at h
        split at h <;> split at h <;> omega
      obtain ⟨hexponent, hfraction⟩ := magnitude_inj (fraction_lt a) (fraction_lt b) hsame.2
      refine .inl (BitVec.eq_of_toNat_eq ?_)
      rw [fields a, fields b, hsame.1, hexponent, hfraction]
  · rintro (rfl | ⟨ha, hb⟩)
    · rfl
    · simp only [scaled, (hzero a).1 ha, (hzero b).1 hb, Int.natCast_zero, neg_zero, ite_self]

/-! ## Whole numbers -/

/-- The bits of a whole number: those of its magnitude, with the leading one in
    front of the fraction. -/
def ofInt (n : ℤ) : BitVec 64 :=
  if n = 0 then 0
  else
    let e := Nat.log 2 n.natAbs
    BitVec.ofNat 64 ((if n < 0 then 1 else 0) * 2 ^ 63 + (1023 + e) * 2 ^ 52 + (n.natAbs * 2 ^ (52 - e) - 2 ^ 52))

theorem ofInt_fields {n : ℤ} (hn : n ≠ 0) (h : n.natAbs < 2 ^ 53) :
    sign (ofInt n) = (if n < 0 then 1 else 0) ∧ exponent (ofInt n) = 1023 + Nat.log 2 n.natAbs ∧
      2 ^ 52 + fraction (ofInt n) = n.natAbs * 2 ^ (52 - Nat.log 2 n.natAbs) := by
  have hne : n.natAbs ≠ 0 := by omega
  have hlow := Nat.pow_log_le_self 2 hne
  have hhigh := Nat.lt_pow_succ_log_self (b := 2) (by decide) n.natAbs
  have hlog : Nat.log 2 n.natAbs ≤ 52 := Nat.lt_succ_iff.1 (Nat.log_lt_of_lt_pow hne h)
  simp only [ofInt, if_neg hn]
  generalize Nat.log 2 n.natAbs = e at *
  have hbelow : 2 ^ 52 ≤ n.natAbs * 2 ^ (52 - e) := by
    calc 2 ^ 52 = 2 ^ e * 2 ^ (52 - e) := by rw [← pow_add]; congr 1; omega
      _ ≤ n.natAbs * 2 ^ (52 - e) := Nat.mul_le_mul_right _ hlow
  have habove : n.natAbs * 2 ^ (52 - e) < 2 ^ 53 := by
    calc n.natAbs * 2 ^ (52 - e) < 2 ^ (e + 1) * 2 ^ (52 - e) := Nat.mul_lt_mul_of_pos_right hhigh (by positivity)
      _ = 2 ^ 53 := by rw [← pow_add]; congr 1; omega
  simp only [sign, exponent, fraction, BitVec.toNat_ofNat]
  generalize n.natAbs * 2 ^ (52 - e) = m at *
  split <;> omega

/-- **Whole numbers below `2 ^ 53` are exact.** -/
theorem value_ofInt {n : ℤ} (h : n.natAbs < 2 ^ 53) : value (ofInt n) = n := by
  by_cases hn : n = 0
  · subst hn
    have hzero : scaled (ofInt 0) = 0 := by decide
    rw [value, hzero]
    simp
  · obtain ⟨hsign, hexponent, hfraction⟩ := ofInt_fields hn h
    have hlog : Nat.log 2 n.natAbs ≤ 52 := Nat.lt_succ_iff.1 (Nat.log_lt_of_lt_pow (by omega) h)
    have hmagnitude : magnitude (exponent (ofInt n)) (fraction (ofInt n)) = n.natAbs * 2 ^ 1074 := by
      rw [magnitude, if_neg (by omega), hfraction, hexponent, mul_assoc, ← pow_add]
      congr 2
      omega
    have hscaled : scaled (ofInt n) = n * 2 ^ 1074 := by
      rw [scaled, hsign, hmagnitude, Nat.cast_mul, Nat.cast_pow, Nat.cast_ofNat]
      by_cases hneg : n < 0
      · rw [if_pos hneg, if_neg one_ne_zero, Int.ofNat_natAbs_of_nonpos hneg.le, neg_mul, neg_neg]
      · rw [if_neg hneg, if_pos rfl, Int.natAbs_of_nonneg (not_lt.1 hneg)]
    rw [value, hscaled, Int.cast_mul, Int.cast_pow]
    exact mul_div_cancel_right₀ _ (by positivity)

theorem isFinite_ofInt {n : ℤ} (h : n.natAbs < 2 ^ 53) : Json.isFinite (ofInt n) = true := by
  rw [isFinite_iff]
  by_cases hn : n = 0
  · subst hn
    decide
  · have hlog : Nat.log 2 n.natAbs ≤ 52 := Nat.lt_succ_iff.1 (Nat.log_lt_of_lt_pow (by omega) h)
    rw [(ofInt_fields hn h).2.1]
    omega

end Binary64
