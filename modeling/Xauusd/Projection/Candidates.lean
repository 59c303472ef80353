/-
  The candidates of a summary that have not expired: `activeCandidateCount`.

  * `serializedExpiries`: the text of a summary, one expiry a line;
  * `activeCandidateCount`: the bisection of the text by lines of a fixed width;
  * `activeCandidateCount_exact`: **of sorted canonical expiries, it counts those
    later than the millisecond given**.
-/
import Xauusd.Lib.Bisect
import Xauusd.Lib.IsoTime
import Xauusd.Projection.Store

namespace Xauusd.Projection

/-! ## The text of a summary -/

/-- `group_concat(value,char(10))` of some lines, empty when there are none. -/
def serializedExpiries (lines : List String) : String :=
  String.ofList (['\n'].intercalate (lines.map String.toList))

def EXPIRY_WIDTH : ℕ := 32
def EXPIRY_STRIDE : ℕ := EXPIRY_WIDTH + 1

def ProtocolError.summaryInvalid : ProtocolError :=
  ⟨"news candidate summary is invalid", 503, "NEWS_PROJECTION_SUMMARY_INVALID"⟩

/-- `valueAt` -/
def valueAt (serialized : String) (index : ℕ) : String :=
  String.ofList ((serialized.toList.drop (index * EXPIRY_STRIDE)).take EXPIRY_WIDTH)

/-- `activeCandidateCount` -/
def activeCandidateCount (serialized now : String) : Except ProtocolError ℕ :=
  if serialized = "" then .ok 0
  else if (serialized.toList.length + 1) % EXPIRY_STRIDE ≠ 0 then .error .summaryInvalid
  else
    let total := (serialized.toList.length + 1) / EXPIRY_STRIDE
    if !isCanonicalExpiry (.str (valueAt serialized 0))
        || !isCanonicalExpiry (.str (valueAt serialized (total - 1))) then .error .summaryInvalid
    else
      let nowKey := String.ofList (now.toList.take 23) ++ "000+00:00"
      .ok (total - bisect (fun i => !Text.utf16Less nowKey (valueAt serialized i)) 0 total)

/-! ## Lines of a fixed width -/

section
variable {lines : List String}

theorem length_serialized (hne : lines ≠ []) (hwidth : ∀ x ∈ lines, x.toList.length = EXPIRY_WIDTH) :
    (serializedExpiries lines).toList.length + 1 = lines.length * EXPIRY_STRIDE := by
  unfold serializedExpiries
  rw [String.toList_ofList]
  induction lines with
  | nil => exact absurd rfl hne
  | cons x lines ih =>
    obtain ⟨hx, hlines⟩ := List.forall_mem_cons.1 hwidth
    cases lines with
    | nil => simp [hx, EXPIRY_STRIDE]
    | cons y lines =>
      have hrest := ih (List.cons_ne_nil _ _) hlines
      simp only [List.map_cons, List.intercalate_cons_cons, List.length_append, hx, List.length_cons,
        List.length_nil] at hrest ⊢
      simp only [EXPIRY_STRIDE, EXPIRY_WIDTH] at hrest ⊢
      omega

theorem valueAt_serialized (hwidth : ∀ x ∈ lines, x.toList.length = EXPIRY_WIDTH) {i : ℕ}
    (hi : i < lines.length) : valueAt (serializedExpiries lines) i = lines[i] := by
  unfold valueAt serializedExpiries
  rw [String.toList_ofList]
  refine String.toList_injective ?_
  rw [String.toList_ofList]
  induction lines generalizing i with
  | nil => cases hi
  | cons x lines ih =>
    obtain ⟨hx, hlines⟩ := List.forall_mem_cons.1 hwidth
    have htext : ∃ rest, ['\n'].intercalate ((x :: lines).map String.toList) = x.toList ++ rest ∧
        rest.drop 1 = ['\n'].intercalate (lines.map String.toList) := by
      cases lines with
      | nil => exact ⟨[], by simp, rfl⟩
      | cons y lines => exact ⟨_, List.append_assoc _ _ _ ▸ List.intercalate_cons_cons, rfl⟩
    obtain ⟨rest, htext, hrest⟩ := htext
    rw [htext]
    cases i with
    | zero =>
      rw [Nat.zero_mul, List.drop_zero, ← hx, List.take_left]
      rfl
    | succ i =>
      have hdrop : (x.toList ++ rest).drop ((i + 1) * EXPIRY_STRIDE) =
          (rest.drop 1).drop (i * EXPIRY_STRIDE) := by
        have hlength : x.toList.length ≤ (i + 1) * EXPIRY_STRIDE := by
          rw [hx]
          simp only [EXPIRY_STRIDE, EXPIRY_WIDTH]
          omega
        rw [List.drop_append, List.drop_eq_nil_of_le hlength, List.nil_append, List.drop_drop, hx]
        congr 1
        simp only [EXPIRY_STRIDE, EXPIRY_WIDTH]
        omega
      rw [hdrop, hrest]
      exact ih hlines (Nat.lt_of_succ_lt_succ hi)

end

/-! ## Canonical expiries -/

theorem length_of_shaped {shape x : String} (h : Text.shaped shape x = true) :
    x.toList.length = shape.toList.length := by
  simp only [Text.shaped, Bool.and_eq_true, decide_eq_true_eq] at h
  exact h.1

theorem basic_of_shaped {shape x : String} (h : Text.shaped shape x = true)
    (hshape : ∀ c ∈ shape.toList, c.toNat < 0x10000) : ∀ c ∈ x.toList, c.toNat < 0x10000 := by
  have hlength := length_of_shaped h
  simp only [Text.shaped, Bool.and_eq_true, List.all_eq_true] at h
  intro c hc
  obtain ⟨i, hi, rfl⟩ := List.getElem_of_mem hc
  have hzip : (x.toList[i], shape.toList[i]) ∈ x.toList.zip shape.toList :=
    List.mem_iff_getElem.2 ⟨i, by simp [hlength]; omega, List.getElem_zip⟩
  have hmark := h.2 _ hzip
  split at hmark
  · have hle : x.toList[i] ≤ '9' := (of_decide_eq_true (Bool.and_eq_true_iff.1 hmark).2)
    have : x.toList[i].toNat ≤ '9'.toNat := hle
    have h9 : '9'.toNat = 57 := rfl
    omega
  · have heq : x.toList[i] = shape.toList[i] := of_decide_eq_true hmark
    rw [heq]
    exact hshape _ (List.getElem_mem _)

/-- **Candidate counts are exact.** Of the texts of some instants, in order, the
    count is the number of instants after the millisecond of the clock. -/
theorem activeCandidateCount_exact {times : List ℤ} {millis : ℤ}
    (hsorted : (times.map IsoTime.iso).Pairwise (· ≤ ·)) (htimes : ∀ t ∈ times, IsoTime.InRange t)
    (hnow : IsoTime.InRange (1000 * millis)) :
    activeCandidateCount (serializedExpiries (times.map IsoTime.iso)) (IsoTime.isoMillis (1000 * millis)) =
      .ok (times.countP fun t => 1000 * millis < t) := by
  by_cases hne : times = []
  · subst hne
    rfl
  have hpos : 0 < times.length := List.length_pos_iff.2 hne
  have hwidth : ∀ x ∈ times.map IsoTime.iso, x.toList.length = EXPIRY_WIDTH := by
    intro x hx
    obtain ⟨t, ht, rfl⟩ := List.mem_map.1 hx
    exact length_of_shaped (IsoTime.shaped_iso (htimes t ht))
  have hlength := length_serialized (by simpa using hne) hwidth
  rw [List.length_map] at hlength
  have hvalue (i : ℕ) (hi : i < times.length) :
      valueAt (serializedExpiries (times.map IsoTime.iso)) i = IsoTime.iso times[i] := by
    rw [valueAt_serialized hwidth (by simpa using hi), List.getElem_map]
  have hcanonical (i : ℕ) (hi : i < times.length) :
      isCanonicalExpiry (.str (valueAt (serializedExpiries (times.map IsoTime.iso)) i)) = true := by
    rw [hvalue i hi]
    exact IsoTime.shaped_iso (htimes _ (List.getElem_mem hi))
  have hempty : serializedExpiries (times.map IsoTime.iso) ≠ "" := by
    intro hempty
    rw [hempty] at hlength
    simp only [EXPIRY_STRIDE, EXPIRY_WIDTH, String.toList_empty, List.length_nil] at hlength
    omega
  have htotal : (serializedExpiries (times.map IsoTime.iso)).toList.length + 1 =
      times.length * EXPIRY_STRIDE := hlength
  have hkey := IsoTime.iso_of_isoMillis (m := millis) (by have := hnow.1; omega)
  -- the line of an instant is after the key iff the instant is after the clock
  have hless (t : ℤ) (ht : t ∈ times) : Text.utf16Less (IsoTime.iso (1000 * millis)) (IsoTime.iso t) =
      decide (1000 * millis < t) := by
    have hshape : ∀ c ∈ "####-##-##T##:##:##.######+00:00".toList, c.toNat < 128 := by
      have hlist : "####-##-##T##:##:##.######+00:00".toList = IsoTime.shapeOf IsoTime.isoSpec := by decide
      rw [hlist]
      simp [IsoTime.shapeOf, IsoTime.isoSpec]
    have hbasic (u : ℤ) (hu : IsoTime.InRange u) : ∀ c ∈ (IsoTime.iso u).toList, c.toNat < 0x10000 :=
      basic_of_shaped (IsoTime.shaped_iso hu) fun c hc => (hshape c hc).trans (by norm_num)
    rw [Bool.eq_iff_iff, Text.utf16Less_iff (hbasic _ hnow) (hbasic _ (htimes t ht)),
      IsoTime.iso_lt_iff hnow (htimes t ht), decide_eq_true_eq]
  have hbisect : bisect (fun i => !Text.utf16Less (IsoTime.iso (1000 * millis))
      (valueAt (serializedExpiries (times.map IsoTime.iso)) i)) 0 times.length =
        times.countP fun t => !decide (1000 * millis < t) := by
    refine bisect_eq_countP (fun i hi => ?_) ?_
    · rw [hvalue i hi, hless _ (List.getElem_mem hi)]
    · refine (List.pairwise_map.1 hsorted).imp_of_mem fun {t u} ht hu htu hlater => ?_
      have hle : t ≤ u := by
        by_contra hlt
        exact absurd htu (not_le.2 ((IsoTime.iso_lt_iff (htimes u hu) (htimes t ht)).2 (by omega)))
      simp only [Bool.not_eq_true', decide_eq_false_iff_not, not_lt] at hlater ⊢
      omega
  have hcount := List.length_eq_countP_add_countP (l := times) (fun t => decide (1000 * millis < t))
  unfold activeCandidateCount
  rw [if_neg hempty, if_neg (by rw [htotal, Nat.mul_mod_left]; simp), htotal,
    Nat.mul_div_cancel _ (by decide : 0 < EXPIRY_STRIDE)]
  dsimp only
  rw [hcanonical 0 hpos, hcanonical (times.length - 1) (by omega)]
  simp only [Bool.not_true, Bool.or_self, Bool.false_eq_true, if_false, ← hkey, hbisect]
  have hnot : times.countP (fun t => decide ¬decide (1000 * millis < t) = true) =
      times.countP fun t => !decide (1000 * millis < t) :=
    List.countP_congr fun t _ => by simp
  rw [hnot] at hcount
  congr 1
  omega

end Xauusd.Projection
