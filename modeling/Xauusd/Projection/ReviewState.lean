/-
  The review state of an item, as four readers admit it
  (`news-review-state.ts`, `news-projection-store.ts`,
  `news-projection-delta.ts`, `news-index/route.ts`).

  The full activation counts the items that violate the invariant, and the
  other two queries those that satisfy it: an invariant that is NULL is neither.
  The TypeScript predicate compares the texts `String(…)` makes of the values.

  * `jsText` is `String` of a JSON value;
  * `newsReviewStateInvariantHolds` is the predicate, `releaseItemValid` the
    item check of the release validation;
  * `reviewInvariant_str` and the like: the invariant by the type of the status;
  * `admitted_alike_iff`: the items on which the four readers agree.
-/
import Xauusd.Projection.Store

namespace Xauusd.Projection

variable (numberText : BitVec 64 → String) {item : Json} {status : String}

/-! ## The predicate -/

mutual

/-- `String(value)`; an object with a member `toString` raises, since no JSON
    value can be called. -/
def jsText : Json → Option String
  | .null => some "null"
  | .bool b => some (if b then "true" else "false")
  | .num bits => some (numberText bits)
  | .str s => some s
  | .arr items => (jsItems items).map ",".intercalate
  | .obj members => if (members.lookup "toString").isSome then none else some "[object Object]"

/-- The texts that `join` puts together: null is the empty text. -/
def jsItems : List Json → Option (List String)
  | [] => some []
  | .null :: items => (jsItems items).map ("" :: ·)
  | a :: items => match jsText a, jsItems items with
    | some t, some ts => some (t :: ts)
    | _, _ => none

end

/-- `String(value ?? "")` -/
def coerced : Json → Option String
  | .null => some ""
  | a => jsText numberText a

/-- `typeof value === "string" && value.length > 0` -/
def hasText (a : Json) : Bool := isStr a && textOf a ≠ ""

/-- The body of `newsReviewStateInvariantHolds`, of the two texts and whether
    the item is parsed. -/
def consistent (status visibility : String) (parsed : Bool) : Bool :=
  if status = "NOT_REQUIRED" then visibility = "MODEL_INELIGIBLE" && !parsed
  else if status = "QUEUED" then visibility = "NOT_YET_PARSED" && !parsed
  else if status = "READY" then visibility ≠ "NOT_YET_PARSED" && parsed
  else status ∈ ALIGNED_UNPARSED_ANNOTATION_STATUSES && visibility = status && !parsed

/-- `newsReviewStateInvariantHolds`, none when it raises. -/
def newsReviewStateInvariantHolds (item : Json) : Option Bool := do
  let status ← coerced numberText (item.get "annotation_status")
  let visibility ← coerced numberText (item.get "model_visibility")
  some (consistent status visibility (hasText (item.get "parsed_at")))

/-! ## The four readers -/

/-- The full activation does not count the item in `review_violation_count`. -/
def admittedByActivation (item : Json) : Bool := !reviewViolation (indexEntry item)

/-- The guard of a sparse publication finds the item active and consistent. -/
def admittedByDelta (item : Json) : Bool := activeNews item && reviewInvariant item = some true

/-- `item_valid` of the release validation: a `CASE` that is not NULL. -/
def releaseItemValid (item : Json) : Bool :=
  isDigest (item.get "detail_key")
    && isStr (item.get "category") && decide (textOf (item.get "category") ∈ NEWS_PROJECTION_CATEGORIES)
    && isStr (item.get "collector_first_seen_time") && isStr (item.get "cluster_id")
    && isStr (item.get "mirror_contract")
    && sqlOr ((sqlEq (item.get "model_visibility") (.str "MODEL_VISIBLE")).map (!·))
      (some (!badExpiry (item.get "impact_expires_at"))) = some true

/-- `item_valid` and `review_valid` of the release validation count the item. -/
def admittedByReleaseValidation (item : Json) : Bool :=
  releaseItemValid item && reviewInvariant item = some true

/-- The TypeScript predicate holds. -/
def admittedByPredicate (item : Json) : Bool :=
  newsReviewStateInvariantHolds numberText item = some true

/-- All four readers admit the item, or none does. -/
def AdmittedAlike (item : Json) : Prop :=
  admittedByActivation item = admittedByDelta item ∧
    admittedByReleaseValidation item = admittedByDelta item ∧
    admittedByPredicate numberText item = admittedByDelta item

instance (item : Json) : Decidable (AdmittedAlike numberText item) :=
  inferInstanceAs (Decidable (_ ∧ _))

/-! ## The invariant by the type of the status -/

/-- The visibility that an unparsed status goes with. -/
def unparsedVisibility (status : String) : Option String :=
  if status = "NOT_REQUIRED" then some "MODEL_INELIGIBLE"
  else if status = "QUEUED" then some "NOT_YET_PARSED"
  else if status ∈ ALIGNED_UNPARSED_ANNOTATION_STATUSES then some status
  else none

theorem sqlAnd_false (a : Option Bool) : sqlAnd a (some false) = some false := by
  rcases a with _ | _ | _ <;> rfl

theorem false_sqlAnd (a : Option Bool) : sqlAnd (some false) a = some false := by
  cases a <;> rfl

theorem true_sqlAnd (a : Option Bool) : sqlAnd (some true) a = a := by
  rcases a with _ | _ | _ <;> rfl

theorem sqlOr_false (a : Option Bool) : sqlOr a (some false) = a := by
  rcases a with _ | _ | _ <;> rfl

theorem false_sqlOr (a : Option Bool) : sqlOr (some false) a = a := by
  rcases a with _ | _ | _ <;> rfl

/-- The invariant of a status that is READY. -/
theorem reviewInvariant_ready (h : item.get "annotation_status" = .str "READY") :
    reviewInvariant item =
      sqlAnd ((sqlEq (item.get "model_visibility") (.str "NOT_YET_PARSED")).map (!·))
        (some (!decide (item.get "parsed_at" = .null))) := by
  simp [reviewInvariant, h, sqlEq, false_sqlAnd, false_sqlOr, true_sqlAnd, sqlOr_false, textOf,
    ALIGNED_UNPARSED_ANNOTATION_STATUSES]

/-- The invariant of a status that goes with a visibility, unparsed. -/
theorem reviewInvariant_unparsed {target : String}
    (h : item.get "annotation_status" = .str status)
    (htarget : unparsedVisibility status = some target) :
    reviewInvariant item = sqlAnd (sqlEq (item.get "model_visibility") (.str target))
      (some (decide (item.get "parsed_at" = .null))) := by
  unfold unparsedVisibility at htarget
  split at htarget
  · next hstatus =>
    subst hstatus
    obtain rfl := Option.some.inj htarget
    simp [reviewInvariant, h, sqlEq, false_sqlAnd, sqlOr_false, true_sqlAnd, textOf,
      ALIGNED_UNPARSED_ANNOTATION_STATUSES]
  · next hrequired =>
    split at htarget
    · next hstatus =>
      subst hstatus
      obtain rfl := Option.some.inj htarget
      simp [reviewInvariant, h, sqlEq, false_sqlAnd, false_sqlOr, sqlOr_false, true_sqlAnd, textOf,
        ALIGNED_UNPARSED_ANNOTATION_STATUSES]
    · next hqueued =>
      split at htarget
      · next hmem =>
        obtain rfl := Option.some.inj htarget
        have hready : status ≠ "READY" := by
          rintro rfl
          simp [ALIGNED_UNPARSED_ANNOTATION_STATUSES] at hmem
        simp [reviewInvariant, h, sqlEq, false_sqlAnd, false_sqlOr, true_sqlAnd, textOf, isStr, hmem,
          hrequired, hqueued, hready]
      · cases htarget

/-- The invariant of a text that is no status. -/
theorem reviewInvariant_unknown (h : item.get "annotation_status" = .str status)
    (hready : status ≠ "READY") (htarget : unparsedVisibility status = none) :
    reviewInvariant item = some false := by
  unfold unparsedVisibility at htarget
  split at htarget
  · cases htarget
  · next hrequired =>
    split at htarget
    · cases htarget
    · next hqueued =>
      split at htarget
      · cases htarget
      · next hmem =>
        simp [reviewInvariant, h, sqlEq, false_sqlAnd, false_sqlOr, textOf, isStr, hmem, hrequired,
          hqueued, hready]

/-- The four disjuncts with a status that is NULL. -/
theorem sqlOr_null (required queued : Option Bool) (unparsed : Bool) :
    sqlOr (sqlAnd none (sqlAnd required (some unparsed)))
      (sqlOr (sqlAnd none (sqlAnd queued (some unparsed)))
        (sqlOr (sqlAnd none (sqlAnd (queued.map (!·)) (some (!unparsed))))
          (sqlAnd none (sqlAnd none (some unparsed))))) =
      if unparsed = false ∧ queued = some true then some false else none := by
  rcases required with _ | _ | _ <;> rcases queued with _ | _ | _ <;> cases unparsed <;> rfl

theorem sqlEq_eq_true {a : Json} {t : String} : sqlEq a (.str t) = some true ↔ a = .str t := by
  unfold sqlEq
  split
  · next h =>
    rcases h with h | h
    · simp [h]
    · cases h
  · simp

/-- Without a status the invariant is NULL, except that a parsed item is known
    not to be READY. -/
theorem reviewInvariant_null (h : item.get "annotation_status" = .null) :
    reviewInvariant item =
      if item.get "parsed_at" ≠ .null ∧ item.get "model_visibility" = .str "NOT_YET_PARSED"
      then some false else none := by
  have hnull (a : Json) : sqlEq .null a = none := if_pos (.inl rfl)
  have hnull' (a : Json) : sqlEq a .null = none := if_pos (.inr rfl)
  simp only [reviewInvariant, h, hnull, hnull', if_true]
  rw [sqlOr_null]
  simp only [sqlEq_eq_true, decide_eq_false_iff_not, ne_eq]

/-- A status that is neither a text nor NULL satisfies nothing. -/
theorem reviewInvariant_of_not_str (hnull : item.get "annotation_status" ≠ .null)
    (hstr : isStr (item.get "annotation_status") = false) : reviewInvariant item = some false := by
  have hne (t : String) : item.get "annotation_status" ≠ .str t := by
    intro h
    rw [h] at hstr
    cases hstr
  simp [reviewInvariant, sqlEq, hnull, hne, hstr, false_sqlAnd, false_sqlOr]

/-! ## The readers of an acceptable item -/

theorem eq_of_zip {α : Type} : ∀ {l m : List α}, l.length = m.length →
    (∀ p ∈ l.zip m, p.1 = p.2) → l = m
  | [], [], _, _ => rfl
  | a :: l, b :: m, hlength, h => by
    rw [show a = b from h (a, b) (by simp), eq_of_zip (Nat.succ.inj hlength) fun p hp =>
      h p (List.mem_cons_of_mem _ hp)]

theorem badExpiry_of_canonical {a : Json} (h : isCanonicalExpiry a = true) : badExpiry a = false := by
  cases a with
  | str s =>
    simp only [isCanonicalExpiry, Text.shaped, Bool.and_eq_true, decide_eq_true_eq,
      List.all_eq_true] at h
    obtain ⟨hlength, hall⟩ := h
    have hsuffix : s.toList.drop 26 = "+00:00".toList := by
      refine eq_of_zip (by rw [List.length_drop, hlength]; rfl) fun m hm => ?_
      have hzip : (s.toList.drop 26).zip "+00:00".toList =
          (s.toList.zip "####-##-##T##:##:##.######+00:00".toList).drop 26 := by
        rw [List.zip_eq_zipWith, List.zip_eq_zipWith, List.drop_zipWith]
        rfl
      have hsharp : m.2 ≠ '#' := by
        have := (List.of_mem_zip hm).2
        rintro heq
        rw [heq] at this
        revert this
        decide
      rw [hzip] at hm
      simpa [hsharp] using hall m (List.mem_of_mem_drop hm)
    simp [badExpiry, hsuffix, show s.toList.length = 32 from hlength]
  | _ => cases h

theorem admittedByActivation_eq (h : validIndex item = true) :
    admittedByActivation item = decide (reviewInvariant item ≠ some false) := by
  simp only [validIndex, Bool.and_eq_true, Bool.or_eq_true, decide_eq_true_eq] at h
  have hcategory : (indexEntry item).category ∈ NEWS_PROJECTION_CATEGORIES := h.1.1.1.1.2
  have hexpiry : ((indexEntry item).modelCandidate && badExpiry (indexEntry item).impactExpiresAt) =
      false := by
    rw [Bool.and_eq_false_iff]
    rcases h.2 with hvisibility | hcanonical
    · exact .inl (decide_eq_false hvisibility)
    · exact .inr (badExpiry_of_canonical hcanonical)
  rw [admittedByActivation, reviewViolation, hexpiry, decide_eq_false (not_not.2 hcategory),
    Bool.eq_iff_iff]
  simp only [Bool.or_false, Bool.not_eq_true', decide_eq_false_iff_not, decide_eq_true_eq]
  exact Iff.rfl

/-- What satisfies the invariant is active. -/
theorem admittedByDelta_eq : admittedByDelta item = decide (reviewInvariant item = some true) := by
  unfold admittedByDelta
  by_cases hactive : activeNews item = true
  · rw [hactive, Bool.true_and]
  · have hstatus : item.get "annotation_status" = .str "SUPERSEDED_CONTRACT" := by
      simpa [activeNews] using hactive
    have hinvariant := reviewInvariant_unknown hstatus (by decide) (by decide)
    simp [hinvariant]

theorem sqlAnd_none_ne_true (b : Bool) : sqlAnd none (some b) ≠ some true := by
  cases b <;> simp [sqlAnd]

/-- What satisfies the invariant has a visibility. -/
theorem visibility_ne_null (h : reviewInvariant item = some true) :
    item.get "model_visibility" ≠ .null := by
  intro hnull
  have hunknown (t : String) : sqlEq (item.get "model_visibility") (.str t) = none :=
    if_pos (.inl hnull)
  cases hstatus : item.get "annotation_status" with
  | null => simp [reviewInvariant_null hstatus, hnull] at h
  | str status =>
    by_cases hready : status = "READY"
    · rw [reviewInvariant_ready (hready ▸ hstatus), hunknown, Option.map_none] at h
      exact sqlAnd_none_ne_true _ h
    · cases htarget : unparsedVisibility status with
      | none => simp [reviewInvariant_unknown hstatus hready htarget] at h
      | some target =>
        rw [reviewInvariant_unparsed hstatus htarget, hunknown] at h
        exact sqlAnd_none_ne_true _ h
  | _ => simp [reviewInvariant_of_not_str, hstatus, isStr] at h

theorem isStr_of_contract {a : Json} (h : isContract a = true) : isStr a = true := by
  cases a with
  | str => rfl
  | _ => cases h

theorem admittedByReleaseValidation_eq (h : validIndex item = true) :
    admittedByReleaseValidation item = decide (reviewInvariant item = some true) := by
  unfold admittedByReleaseValidation
  by_cases hinvariant : reviewInvariant item = some true
  · have hnull := visibility_ne_null hinvariant
    simp only [validIndex, Bool.and_eq_true, Bool.or_eq_true, decide_eq_true_eq] at h
    obtain ⟨⟨⟨⟨⟨⟨hkey, hcategory⟩, hmember⟩, hcluster⟩, hseen⟩, hcontract⟩, hexpiry⟩ := h
    have hor : sqlOr ((sqlEq (item.get "model_visibility") (.str "MODEL_VISIBLE")).map (!·))
        (some (!badExpiry (item.get "impact_expires_at"))) = some true := by
      rcases hexpiry with hvisibility | hcanonical
      · simp [sqlEq, hnull, hvisibility, sqlOr]
      · rw [badExpiry_of_canonical hcanonical]
        rcases (sqlEq (item.get "model_visibility") (.str "MODEL_VISIBLE")).map (!·) with
          _ | _ | _ <;> rfl
    simp [releaseItemValid, hkey, hcategory, hmember, hcluster, hseen, isStr_of_contract hcontract,
      hor]
  · simp [hinvariant]

/-- The four readers agree iff the invariant is not NULL and the predicate is
    the invariant. -/
theorem admittedAlike_iff (h : validIndex item = true) : AdmittedAlike numberText item ↔
    (reviewInvariant item = some true ∧ newsReviewStateInvariantHolds numberText item = some true) ∨
      (reviewInvariant item = some false ∧
        newsReviewStateInvariantHolds numberText item ≠ some true) := by
  rw [AdmittedAlike, admittedByActivation_eq h, admittedByDelta_eq,
    admittedByReleaseValidation_eq h, admittedByPredicate]
  rcases reviewInvariant item with _ | _ | _ <;> simp

/-! ## Where they agree -/

/-- What the status, the visibility and the parse time have to be for the four
    readers to agree: no NULL where a comparison decides, and no text that
    `String` makes of another value in place of one. -/
def ReadAlike (item : Json) : Prop :=
  let visibility := item.get "model_visibility"
  let parsedAt := item.get "parsed_at"
  match item.get "annotation_status" with
  | .null => parsedAt ≠ .null ∧ visibility = .str "NOT_YET_PARSED"
  | .str status =>
    if status = "READY" then
      parsedAt = .null ∨ visibility = .str "NOT_YET_PARSED" ∨
        (visibility ≠ .null ∧ hasText parsedAt = true ∧
          ∃ t, jsText numberText visibility = some t ∧ t ≠ "NOT_YET_PARSED")
    else ∀ target, unparsedVisibility status = some target →
      if parsedAt = .null then
        visibility ≠ .null ∧ (visibility = .str target ∨ jsText numberText visibility ≠ some target)
      else hasText parsedAt = true ∨ coerced numberText visibility ≠ some target
  | status => ∀ t u, jsText numberText status = some t → coerced numberText visibility = some u →
      consistent t u (hasText parsedAt) = false

variable {numberText}

theorem consistent_ready (visibility : String) (parsed : Bool) :
    consistent "READY" visibility parsed = (decide (visibility ≠ "NOT_YET_PARSED") && parsed) := by
  simp [consistent]

theorem consistent_unparsed {target : String} (h : unparsedVisibility status = some target)
    (visibility : String) (parsed : Bool) :
    consistent status visibility parsed = (decide (visibility = target) && !parsed) := by
  unfold unparsedVisibility at h
  split at h
  · next hstatus =>
    obtain rfl := Option.some.inj h
    simp [consistent, hstatus]
  · next hrequired =>
    split at h
    · next hstatus =>
      obtain rfl := Option.some.inj h
      simp [consistent, hstatus]
    · next hqueued =>
      split at h
      · next hmem =>
        obtain rfl := Option.some.inj h
        have hready : status ≠ "READY" := by
          rintro rfl
          simp [ALIGNED_UNPARSED_ANNOTATION_STATUSES] at hmem
        simp [consistent, hrequired, hqueued, hready, hmem]
      · cases h

theorem consistent_unknown (hready : status ≠ "READY") (h : unparsedVisibility status = none)
    (visibility : String) (parsed : Bool) : consistent status visibility parsed = false := by
  unfold unparsedVisibility at h
  split at h
  · cases h
  · next hrequired =>
    split at h
    · cases h
    · next hqueued =>
      split at h
      · cases h
      · next hmem => simp [consistent, hrequired, hqueued, hready, hmem]

/-- The predicate of an item whose status reads as a text. -/
theorem predicate_iff {t : String} (h : coerced numberText (item.get "annotation_status") = some t) :
    newsReviewStateInvariantHolds numberText item = some true ↔
      ∃ u, coerced numberText (item.get "model_visibility") = some u ∧
        consistent t u (hasText (item.get "parsed_at")) = true := by
  simp only [newsReviewStateInvariantHolds, h, Option.bind_eq_bind, Option.bind_some,
    Option.bind_eq_some_iff, Option.some.injEq]

theorem coerced_of_ne_null {a : Json} (h : a ≠ .null) : coerced numberText a = jsText numberText a := by
  cases a with
  | null => exact absurd rfl h
  | _ => rfl

theorem coerced_str (t : String) : coerced numberText (.str t) = some t := by
  simp [coerced, jsText]

theorem hasText_null : hasText .null = false := rfl

theorem readAlike_ready {visibility parsedAt : Json} :
    (sqlAnd ((sqlEq visibility (.str "NOT_YET_PARSED")).map (!·)) (some (!decide (parsedAt = .null))) =
          some true ∧
        (∃ u, coerced numberText visibility = some u ∧ u ≠ "NOT_YET_PARSED" ∧
          hasText parsedAt = true) ∨
      sqlAnd ((sqlEq visibility (.str "NOT_YET_PARSED")).map (!·)) (some (!decide (parsedAt = .null))) =
          some false ∧
        ¬ ∃ u, coerced numberText visibility = some u ∧ u ≠ "NOT_YET_PARSED" ∧
          hasText parsedAt = true) ↔
      parsedAt = .null ∨ visibility = .str "NOT_YET_PARSED" ∨
        (visibility ≠ .null ∧ hasText parsedAt = true ∧
          ∃ t, jsText numberText visibility = some t ∧ t ≠ "NOT_YET_PARSED") := by
  by_cases hparsed : parsedAt = .null
  · subst hparsed
    simp [sqlAnd_false, hasText_null]
  · by_cases hnull : visibility = .null
    · subst hnull
      have hunknown : sqlEq .null (.str "NOT_YET_PARSED") = none := if_pos (.inl rfl)
      simp [hunknown, sqlAnd, hparsed]
    · rw [coerced_of_ne_null hnull]
      have hknown : sqlEq visibility (.str "NOT_YET_PARSED") =
          some (decide (visibility = .str "NOT_YET_PARSED")) := by simp [sqlEq, hnull]
      by_cases hyet : visibility = .str "NOT_YET_PARSED"
      · subst hyet
        simp [hknown, false_sqlAnd, jsText]
      · by_cases htext : hasText parsedAt = true <;>
          simp [hknown, hyet, true_sqlAnd, hparsed, hnull, htext]

theorem readAlike_unparsed {visibility parsedAt : Json} {target : String} :
    (sqlAnd (sqlEq visibility (.str target)) (some (decide (parsedAt = .null))) = some true ∧
        (∃ u, coerced numberText visibility = some u ∧ u = target ∧
          (!hasText parsedAt) = true) ∨
      sqlAnd (sqlEq visibility (.str target)) (some (decide (parsedAt = .null))) = some false ∧
        ¬ ∃ u, coerced numberText visibility = some u ∧ u = target ∧
          (!hasText parsedAt) = true) ↔
      if parsedAt = .null then
        visibility ≠ .null ∧ (visibility = .str target ∨ jsText numberText visibility ≠ some target)
      else hasText parsedAt = true ∨ coerced numberText visibility ≠ some target := by
  by_cases hparsed : parsedAt = .null
  · subst hparsed
    rw [if_pos rfl]
    by_cases hnull : visibility = .null
    · subst hnull
      have hunknown : sqlEq .null (.str target) = none := if_pos (.inl rfl)
      simp [hunknown, sqlAnd]
    · rw [coerced_of_ne_null hnull]
      have hknown : sqlEq visibility (.str target) = some (decide (visibility = .str target)) := by
        simp [sqlEq, hnull]
      by_cases htarget : visibility = .str target
      · subst htarget
        simp [hknown, true_sqlAnd, jsText, hasText_null]
      · simp [hknown, htarget, false_sqlAnd, hnull, hasText_null]
  · rw [if_neg hparsed]
    simp [sqlAnd_false, hparsed, imp_iff_or_not]

theorem readAlike_other {a : Json} (h : item.get "annotation_status" = a) (hnull : a ≠ .null) :
    newsReviewStateInvariantHolds numberText item ≠ some true ↔
      ∀ t u, jsText numberText a = some t →
        coerced numberText (item.get "model_visibility") = some u →
          consistent t u (hasText (item.get "parsed_at")) = false := by
  have hcoerced : coerced numberText (item.get "annotation_status") = jsText numberText a := by
    rw [h, coerced_of_ne_null hnull]
  constructor
  · intro hne t u ht hu
    by_contra hconsistent
    exact hne ((predicate_iff (hcoerced.trans ht)).2
      ⟨u, hu, Bool.not_eq_false _ ▸ hconsistent⟩)
  · intro hall hholds
    cases ht : jsText numberText a with
    | none => simp [newsReviewStateInvariantHolds, hcoerced, ht] at hholds
    | some t =>
      obtain ⟨u, hu, hconsistent⟩ := (predicate_iff (hcoerced.trans ht)).1 hholds
      rw [hall t u ht hu] at hconsistent
      cases hconsistent

/-- **Review states.** Of an item that a batch may hold, the full activation,
    the sparse publication, the release validation and the predicate admit it
    all four or none, iff no NULL and no text of another value stands where
    they compare. -/
theorem admittedAlike_iff_readAlike (numberText : BitVec 64 → String) (item : Json)
    (h : validIndex item = true) : AdmittedAlike numberText item ↔ ReadAlike numberText item := by
  rw [admittedAlike_iff numberText h]
  unfold ReadAlike
  cases hstatus : item.get "annotation_status" with
  | null =>
    have hpredicate : newsReviewStateInvariantHolds numberText item ≠ some true := by
      intro hholds
      obtain ⟨u, -, hu⟩ := (predicate_iff (t := "") (by rw [hstatus]; rfl)).1 hholds
      simp [consistent, ALIGNED_UNPARSED_ANNOTATION_STATUSES] at hu
    rw [reviewInvariant_null hstatus]
    simp [hpredicate]
  | str status =>
    have hcoerced : coerced numberText (item.get "annotation_status") = some status := by
      rw [hstatus, coerced_str]
    by_cases hready : status = "READY"
    · subst hready
      simp only [if_true]
      rw [predicate_iff hcoerced, reviewInvariant_ready hstatus, Ne, predicate_iff hcoerced]
      simp only [consistent_ready, Bool.and_eq_true, decide_eq_true_eq]
      exact readAlike_ready
    · simp only [hready, if_false]
      rw [predicate_iff hcoerced, Ne, predicate_iff hcoerced]
      cases htarget : unparsedVisibility status with
      | none =>
        rw [reviewInvariant_unknown hstatus hready htarget]
        simp [consistent_unknown hready htarget]
      | some target =>
        rw [reviewInvariant_unparsed hstatus htarget]
        simp only [consistent_unparsed htarget, Bool.and_eq_true, decide_eq_true_eq,
          Option.some.injEq, forall_eq']
        exact readAlike_unparsed
  | _ =>
    rw [reviewInvariant_of_not_str (by simp [hstatus]) (by simp [hstatus, isStr]),
      readAlike_other hstatus (by simp)]
    simp

/-- An item as a publisher sends it. -/
def readyItem (visibility parsedAt : Json) : Json :=
  .obj [("detail_key", .str EMPTY_RECEIPT_DIGEST), ("category", .str "其他"), ("cluster_id", .str "c"),
    ("collector_first_seen_time", .str "2026-01-01T00:00:00+00:00"),
    ("mirror_contract", .str NEWS_PROJECTION_CONTRACT_VERSION), ("annotation_status", .str "READY"),
    ("model_visibility", visibility), ("parsed_at", parsedAt)]

theorem admittedAlike_parsed : AdmittedAlike (fun _ => "0")
    (readyItem (.str "MODEL_INELIGIBLE") (.str "2026-01-01T00:00:00+00:00")) := by
  refine (admittedAlike_iff_readAlike _ _ (by decide)).2 ?_
  simp [ReadAlike, readyItem, Json.get, List.lookup, jsText, hasText, isStr, textOf]

/-- A parsed item without visibility: the activation admits it, and no other
    reader does. -/
theorem not_admittedAlike_without_visibility :
    validIndex (readyItem .null (.str "2026-01-01T00:00:00+00:00")) = true ∧
      ¬ AdmittedAlike (fun _ => "0") (readyItem .null (.str "2026-01-01T00:00:00+00:00")) ∧
      admittedByActivation (readyItem .null (.str "2026-01-01T00:00:00+00:00")) = true ∧
      admittedByDelta (readyItem .null (.str "2026-01-01T00:00:00+00:00")) = false := by
  refine ⟨by decide, by decide, by decide, by decide⟩

end Xauusd.Projection
