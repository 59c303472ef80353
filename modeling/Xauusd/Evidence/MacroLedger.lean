/-
  The ledger of macro observations (`evidence/ledger.py`).

  A value that is published for a series and period is one more revision,
  unless it is what the latest revision has.  Two uniqueness constraints hold
  of the table, over all revisions.

  * `MacroObservations`: the table, with its constraints;
  * `appendMacroObservation`;
  * `MacroObservations.Tells`: what the table holds after some calls that all
    succeeded;
  * `follows_iff`, `tells_append`: one more call;
  * `ledger_follows_iff`: **the ledger follows the published value if and only
    if no content is restored**.

  Instants are microseconds, and the JSON columns hold the values of their
  texts.
-/
import Xauusd.Lib.Json
import Xauusd.Lib.Table
import Xauusd.Lib.Split

namespace Xauusd.Evidence

/-- A source, a series of it, and a period. -/
structure SeriesKey where
  source : String
  seriesId : String
  observationPeriod : String
  deriving DecidableEq, Repr

/-- The record of a call; the footnotes are empty where there are none. -/
structure MacroRecord where
  series : SeriesKey
  collectorFirstSeenTime : ℤ
  fetchedTime : ℤ
  value : BitVec 64
  unit : String
  footnotes : Json
  payload : Json
  contentHash : String
  deriving DecidableEq, Repr

/-- A row of `macro_observations`. -/
structure MacroObservation where
  series : SeriesKey
  revisionNumber : ℕ
  collectorFirstSeenTime : ℤ
  fetchedTime : ℤ
  value : BitVec 64
  unit : String
  footnotes : Json
  payload : Json
  contentHash : String
  deriving DecidableEq, Repr

/-- `PRIMARY KEY(source, series_id, observation_period, revision_number)` -/
def MacroObservation.key (o : MacroObservation) : SeriesKey × ℕ := (o.series, o.revisionNumber)

/-- `UNIQUE(source, series_id, observation_period, content_hash)` -/
def MacroObservation.contentKey (o : MacroObservation) : SeriesKey × String := (o.series, o.contentHash)

/-- `macro_observations` -/
structure MacroObservations where
  table : Table MacroObservation.key
  contents : (table.rows.map MacroObservation.contentKey).Nodup

namespace MacroObservations

@[ext] theorem ext {t u : MacroObservations} (h : t.table.rows = u.table.rows) : t = u := by
  cases t
  cases u
  congr
  exact Table.ext h

def empty : MacroObservations := ⟨.empty, by simp⟩

/-- `INSERT`, none where a constraint fails. -/
def insert (o : MacroObservation) (t : MacroObservations) : Option MacroObservations :=
  if h : ∀ r ∈ t.table.rows, r.key ≠ o.key ∧ r.contentKey ≠ o.contentKey then
    some
      { table := t.table.insertNew o fun r hr => (h r hr).1
        contents := by
          show ((t.table.rows ++ [o]).map MacroObservation.contentKey).Nodup
          rw [List.map_append, List.nodup_append]
          refine ⟨t.contents, by simp, ?_⟩
          rintro a ha b hb rfl
          obtain ⟨r, hr, hkey⟩ := List.mem_map.1 ha
          exact (h r hr).2 (hkey.trans (by simpa using hb)) }
  else none

/-- The rows of a series and period, in the order they were inserted in. -/
def rowsOf (t : MacroObservations) (k : SeriesKey) : List MacroObservation := t.table.rows.filter (·.series = k)

/-- `ORDER BY revision_number DESC LIMIT 1` -/
def latest (t : MacroObservations) (k : SeriesKey) : Option MacroObservation :=
  Table.firstBy (fun a b => decide (b.revisionNumber ≤ a.revisionNumber)) (t.rowsOf k)

end MacroObservations

/-- The row of a record. -/
def MacroRecord.row (r : MacroRecord) (revision : ℕ) : MacroObservation :=
  ⟨r.series, revision, r.collectorFirstSeenTime, r.fetchedTime, r.value, r.unit, r.footnotes, r.payload, r.contentHash⟩

/-- What `append_macro_observation` raises. -/
inductive LedgerError where
  /-- `sqlite3.IntegrityError` -/
  | integrityError
  deriving DecidableEq, Repr

/-- `append_macro_observation` -/
def appendMacroObservation (r : MacroRecord) (t : MacroObservations) :
    Except LedgerError (ℕ × Bool) × MacroObservations :=
  let latest := t.latest r.series
  match latest.filter (·.contentHash = r.contentHash) with
  | some row => (.ok (row.revisionNumber, false), t)
  | none =>
    let revision := (latest.map (·.revisionNumber)).elim 1 (· + 1)
    match t.insert (r.row revision) with
    | none => (.error .integrityError, t)
    | some t => (.ok (revision, true), t)

/-- The ledger after some calls. -/
def ledgerAfter (calls : List MacroRecord) : MacroObservations :=
  calls.foldl (fun t r => (appendMacroObservation r t).2) .empty

/-! ## What is claimed of a call -/

/-- A call after others follows the published value. -/
structure Follows (before : List MacroRecord) (r : MacroRecord) : Prop where
  /-- it does not fail -/
  succeeds : ∃ answer, (appendMacroObservation r (ledgerAfter before)).1 = .ok answer
  /-- the latest row is that of a call with the content of this one -/
  latest : ∃ row, (ledgerAfter (before ++ [r])).latest r.series = some row ∧
    ∃ r' ∈ before ++ [r], r'.contentHash = r.contentHash ∧ row = r'.row row.revisionNumber
  /-- there is no gap -/
  revisions : ((ledgerAfter (before ++ [r])).rowsOf r.series).map (·.revisionNumber) =
    List.range' 1 ((ledgerAfter (before ++ [r])).rowsOf r.series).length
  /-- the content of the latest row adds nothing -/
  repeats : ∀ row, (ledgerAfter before).latest r.series = some row → row.contentHash = r.contentHash →
    appendMacroObservation r (ledgerAfter before) = (.ok (row.revisionNumber, false), ledgerAfter before)

/-- The contents that some calls published for a series and period. -/
def published (k : SeriesKey) (calls : List MacroRecord) : List String :=
  (calls.filter (·.series = k)).map (·.contentHash)

/-- A call does not restore a content that another one followed. -/
def Unrestored (before : List MacroRecord) (r : MacroRecord) : Prop :=
  r.contentHash ∈ published r.series before → (published r.series before).getLast? = some r.contentHash

instance decidableUnrestored (before : List MacroRecord) (r : MacroRecord) : Decidable (Unrestored before r) :=
  inferInstanceAs (Decidable (_ → _))

/-! ## The rows of a series -/

namespace MacroObservations
variable {t t' : MacroObservations} {o : MacroObservation} {k : SeriesKey}

theorem insert_eq_some (h : t.insert o = some t') : t'.table.rows = t.table.rows ++ [o] := by
  unfold insert at h
  split at h
  · cases h
    rfl
  · cases h

theorem insert_eq_none_iff :
    t.insert o = none ↔ ∃ r ∈ t.table.rows, r.key = o.key ∨ r.contentKey = o.contentKey := by
  unfold insert
  split
  · next h =>
    simp only [reduceCtorEq, false_iff, not_exists, not_and, not_or]
    exact fun r hr => h r hr
  · next h =>
    simp only [not_forall, not_and_or, not_not] at h
    obtain ⟨r, hr, hkey⟩ := h
    exact ⟨fun _ => ⟨r, hr, hkey⟩, fun _ => rfl⟩

theorem mem_rowsOf {r : MacroObservation} : r ∈ t.rowsOf k ↔ r ∈ t.table.rows ∧ r.series = k := by
  simp [rowsOf]

/-- Where there is no gap, the latest row is the last. -/
theorem latest_eq_getLast? (h : (t.rowsOf k).map (·.revisionNumber) = List.range' 1 (t.rowsOf k).length) :
    t.latest k = (t.rowsOf k).getLast? := by
  unfold latest
  generalize t.rowsOf k = rows at h
  rcases List.eq_nil_or_concat rows with rfl | ⟨rows, last, rfl⟩
  · rfl
  · rw [List.concat_eq_append] at h ⊢
    rw [List.getLast?_concat]
    have hrange : List.range' 1 (rows ++ [last]).length = List.range' 1 rows.length ++ [1 + rows.length] := by
      rw [List.length_append, List.length_singleton, List.range'_concat, Nat.one_mul]
    rw [hrange, List.map_append] at h
    obtain ⟨hrows, hlast⟩ := List.append_inj' h rfl
    refine Table.firstBy_eq_some (fun a b => ?_) (fun a b c hab hbc => ?_) (by simp) fun b hb hne => ?_
    · simpa using Nat.le_total b.revisionNumber a.revisionNumber
    · simp only [decide_eq_true_eq] at *
      omega
    · have hmem : b.revisionNumber ∈ List.range' 1 rows.length := by
        rw [← hrows]
        refine List.mem_map_of_mem ?_
        simpa [hne] using hb
      have hb' := (List.mem_range'_1.1 hmem).2
      have hlast' : last.revisionNumber = 1 + rows.length := by simpa using hlast
      simp only [decide_eq_false_iff_not]
      omega

theorem rowsOf_insert (h : t.insert o = some t') :
    t'.rowsOf k = t.rowsOf k ++ if o.series = k then [o] else [] := by
  rw [rowsOf, insert_eq_some h, List.filter_append, rowsOf]
  congr 1
  split
  · next hk => simp [hk]
  · next hk => simp [hk]

end MacroObservations

/-! ## One more call -/

/-- What the ledger holds after some calls that all succeeded. -/
structure Tells (calls : List MacroRecord) : Prop where
  revisions : ∀ k, ((ledgerAfter calls).rowsOf k).map (·.revisionNumber) =
    List.range' 1 ((ledgerAfter calls).rowsOf k).length
  /-- every row is that of a call, -/
  rows : ∀ row ∈ (ledgerAfter calls).table.rows, ∃ r ∈ calls, row = r.row row.revisionNumber
  /-- every content is there, -/
  contents : ∀ r ∈ calls, ∃ row ∈ (ledgerAfter calls).rowsOf r.series, row.contentHash = r.contentHash
  /-- and the last content is in the last row -/
  last : ∀ k, (((ledgerAfter calls).rowsOf k).getLast?).map (·.contentHash) = (published k calls).getLast?

theorem ledgerAfter_concat (before : List MacroRecord) (r : MacroRecord) :
    ledgerAfter (before ++ [r]) = (appendMacroObservation r (ledgerAfter before)).2 := by
  rw [ledgerAfter, List.foldl_append]
  rfl

theorem published_concat (k : SeriesKey) (before : List MacroRecord) (r : MacroRecord) :
    published k (before ++ [r]) = published k before ++ if r.series = k then [r.contentHash] else [] := by
  rw [published, List.filter_append, List.map_append, published]
  congr 1
  split
  · next hk => simp [hk]
  · next hk => simp [hk]

theorem tells_nil : Tells [] where
  revisions k := rfl
  rows row hrow := by cases hrow
  contents r hr := by cases hr
  last k := rfl

section
variable {before : List MacroRecord} {r : MacroRecord}

theorem Tells.latest (h : Tells before) (k : SeriesKey) :
    (ledgerAfter before).latest k = ((ledgerAfter before).rowsOf k).getLast? :=
  MacroObservations.latest_eq_getLast? (h.revisions k)

/-- The content of the last call is that of the latest row. -/
theorem Tells.latest_content (h : Tells before) (k : SeriesKey) :
    ((ledgerAfter before).latest k).map (·.contentHash) = (published k before).getLast? := by
  rw [h.latest, h.last]

/-- A content that was published is in a row. -/
theorem Tells.mem_published (h : Tells before) {k : SeriesKey} {hash : String} :
    hash ∈ published k before ↔ ∃ row ∈ (ledgerAfter before).rowsOf k, row.contentHash = hash := by
  constructor
  · intro hhash
    obtain ⟨r', hr', rfl⟩ := List.mem_map.1 hhash
    rw [List.mem_filter, decide_eq_true_eq] at hr'
    obtain ⟨hr', rfl⟩ := hr'
    exact h.contents r' hr'
  · rintro ⟨row, hrow, rfl⟩
    rw [MacroObservations.mem_rowsOf] at hrow
    obtain ⟨hrow, rfl⟩ := hrow
    obtain ⟨r', hr', hrow'⟩ := h.rows row hrow
    refine List.mem_map.2 ⟨r', List.mem_filter.2 ⟨hr', ?_⟩, ?_⟩
    · rw [hrow']
      simp [MacroRecord.row]
    · rw [hrow']
      rfl

/-- A call whose content is that of the last call changes nothing. -/
theorem append_repeat (h : Tells before) (hlast : (published r.series before).getLast? = some r.contentHash) :
    ∃ row, (ledgerAfter before).latest r.series = some row ∧ row.contentHash = r.contentHash ∧
      appendMacroObservation r (ledgerAfter before) = (.ok (row.revisionNumber, false), ledgerAfter before) := by
  rw [← h.latest_content] at hlast
  obtain ⟨row, hrow, hhash⟩ := Option.map_eq_some_iff.1 hlast
  refine ⟨row, hrow, hhash, ?_⟩
  simp [appendMacroObservation, hrow, Option.filter, hhash]

/-- The revision that a new content gets. -/
theorem next_revision (h : Tells before) (k : SeriesKey) :
    (((ledgerAfter before).latest k).map (·.revisionNumber)).elim 1 (· + 1) =
      ((ledgerAfter before).rowsOf k).length + 1 := by
  rw [h.latest]
  have hrevisions := h.revisions k
  generalize (ledgerAfter before).rowsOf k = rows at hrevisions
  rcases List.eq_nil_or_concat rows with rfl | ⟨rows, last, rfl⟩
  · rfl
  · rw [List.concat_eq_append] at hrevisions ⊢
    have hlast := congrArg List.getLast? hrevisions
    rw [List.length_append, List.length_singleton, List.range'_concat, List.map_append] at hlast
    simp at hlast
    simp [hlast]
    omega

/-- A call whose content is not that of the last call inserts a row, or fails
    where the content was published before. -/
theorem append_change (h : Tells before) (hlast : (published r.series before).getLast? ≠ some r.contentHash) :
    appendMacroObservation r (ledgerAfter before) =
      match (ledgerAfter before).insert (r.row (((ledgerAfter before).rowsOf r.series).length + 1)) with
      | none => (.error .integrityError, ledgerAfter before)
      | some t => (.ok (((ledgerAfter before).rowsOf r.series).length + 1, true), t) := by
  rw [← h.latest_content] at hlast
  have hfilter : ((ledgerAfter before).latest r.series).filter (·.contentHash = r.contentHash) = none := by
    cases hrow : (ledgerAfter before).latest r.series with
    | none => rfl
    | some row =>
      rw [hrow] at hlast
      simpa using hlast
  simp only [appendMacroObservation, hfilter, next_revision h]

/-- The row of a new content clashes with another only in its content. -/
theorem insert_clash (h : Tells before) :
    (ledgerAfter before).insert (r.row (((ledgerAfter before).rowsOf r.series).length + 1)) = none ↔
      r.contentHash ∈ published r.series before := by
  rw [MacroObservations.insert_eq_none_iff, h.mem_published]
  constructor
  · rintro ⟨row, hrow, hkey | hkey⟩
    · simp only [MacroObservation.key, MacroRecord.row, Prod.mk.injEq] at hkey
      have hmem := List.mem_map_of_mem (f := (·.revisionNumber))
        (MacroObservations.mem_rowsOf.2 ⟨hrow, hkey.1⟩)
      rw [h.revisions, List.mem_range'_1] at hmem
      omega
    · simp only [MacroObservation.contentKey, MacroRecord.row, Prod.mk.injEq] at hkey
      exact ⟨row, MacroObservations.mem_rowsOf.2 ⟨hrow, hkey.1⟩, hkey.2⟩
  · rintro ⟨row, hrow, hhash⟩
    obtain ⟨hrow, hseries⟩ := MacroObservations.mem_rowsOf.1 hrow
    exact ⟨row, hrow, .inr (by simp [MacroObservation.contentKey, MacroRecord.row, hseries, hhash])⟩

theorem Unrestored.cases (hu : Unrestored before r) : (published r.series before).getLast? = some r.contentHash ∨
    r.contentHash ∉ published r.series before := by
  by_cases hmem : r.contentHash ∈ published r.series before
  · exact .inl (hu hmem)
  · exact .inr hmem

/-- A content that is not restored: nothing changes, or a row is inserted. -/
theorem append_cases (h : Tells before) (hu : Unrestored before r) :
    ((published r.series before).getLast? = some r.contentHash ∧ ∃ row, (ledgerAfter before).latest r.series = some row ∧
        row.contentHash = r.contentHash ∧
        appendMacroObservation r (ledgerAfter before) = (.ok (row.revisionNumber, false), ledgerAfter before)) ∨
      ((published r.series before).getLast? ≠ some r.contentHash ∧
        ∃ t, (ledgerAfter before).insert (r.row (((ledgerAfter before).rowsOf r.series).length + 1)) = some t ∧
        appendMacroObservation r (ledgerAfter before) =
          (.ok (((ledgerAfter before).rowsOf r.series).length + 1, true), t)) := by
  rcases hu.cases with hlast | hnew
  · exact .inl ⟨hlast, append_repeat h hlast⟩
  · have hlast : (published r.series before).getLast? ≠ some r.contentHash :=
      fun hlast => hnew (List.mem_of_getLast? hlast)
    refine .inr ⟨hlast, ?_⟩
    have happend := append_change h hlast
    cases hinsert : (ledgerAfter before).insert (r.row (((ledgerAfter before).rowsOf r.series).length + 1)) with
    | none => exact absurd ((insert_clash h).1 hinsert) hnew
    | some t =>
      rw [hinsert] at happend
      exact ⟨t, rfl, happend⟩

/-- A content that is not restored keeps what the ledger tells. -/
theorem tells_append (h : Tells before) (hu : Unrestored before r) : Tells (before ++ [r]) := by
  have hledger := ledgerAfter_concat before r
  rcases append_cases h hu with ⟨hlast, row, hlatest, hhash, happend⟩ | ⟨-, t, hinsert, happend⟩
  · rw [happend] at hledger
    constructor
    · rw [hledger]
      exact h.revisions
    · rw [hledger]
      intro row hrow
      obtain ⟨r', hr', heq⟩ := h.rows row hrow
      exact ⟨r', List.mem_append_left _ hr', heq⟩
    · rw [hledger]
      intro r' hr'
      rcases List.mem_append.1 hr' with hr' | hr'
      · exact h.contents r' hr'
      · obtain rfl := List.mem_singleton.1 hr'
        rw [h.latest] at hlatest
        exact ⟨row, List.mem_of_getLast? hlatest, hhash⟩
    · intro k
      rw [hledger, published_concat, h.last]
      split
      · next hk =>
        rw [List.getLast?_concat, ← hk, hlast]
      · rw [List.append_nil]
  · rw [happend] at hledger
    have hrows (k : SeriesKey) := MacroObservations.rowsOf_insert (k := k) hinsert
    constructor
    · intro k
      rw [hledger, hrows]
      split
      · next hk =>
        subst hk
        have hseries : (r.row (((ledgerAfter before).rowsOf r.series).length + 1)).series = r.series := rfl
        rw [hseries, List.map_append, h.revisions, List.length_append, List.length_singleton, List.range'_concat]
        simp [MacroRecord.row, Nat.add_comm]
      · rw [List.append_nil]
        exact h.revisions k
    · rw [hledger, MacroObservations.insert_eq_some hinsert]
      intro row hrow
      rcases List.mem_append.1 hrow with hrow | hrow
      · obtain ⟨r', hr', heq⟩ := h.rows row hrow
        exact ⟨r', List.mem_append_left _ hr', heq⟩
      · obtain rfl := List.mem_singleton.1 hrow
        exact ⟨r, by simp, rfl⟩
    · rw [hledger]
      intro r' hr'
      rw [hrows]
      rcases List.mem_append.1 hr' with hr' | hr'
      · obtain ⟨row, hrow, hhash⟩ := h.contents r' hr'
        exact ⟨row, List.mem_append_left _ hrow, hhash⟩
      · obtain rfl := List.mem_singleton.1 hr'
        exact ⟨r'.row (((ledgerAfter before).rowsOf r'.series).length + 1),
          List.mem_append_right _ (by simp [MacroRecord.row]), rfl⟩
    · intro k
      rw [hledger, hrows, published_concat]
      have hseries : (r.row (((ledgerAfter before).rowsOf r.series).length + 1)).series = r.series := rfl
      rw [hseries]
      split
      · rw [List.getLast?_concat, List.getLast?_concat]
        rfl
      · rw [List.append_nil, List.append_nil]
        exact h.last k

/-- A call follows the published value if and only if its content is not
    restored. -/
theorem follows_iff (h : Tells before) : Follows before r ↔ Unrestored before r := by
  constructor
  · intro hfollows hmem
    by_contra hlast
    obtain ⟨answer, hanswer⟩ := hfollows.succeeds
    rw [append_change h hlast, (insert_clash h).2 hmem] at hanswer
    cases hanswer
  · intro hu
    have hafter := tells_append h hu
    constructor
    · rcases append_cases h hu with ⟨-, row, -, -, happend⟩ | ⟨-, t, -, happend⟩
      · exact ⟨_, congrArg Prod.fst happend⟩
      · exact ⟨_, congrArg Prod.fst happend⟩
    · have hcontent := hafter.latest_content r.series
      rw [published_concat, if_pos rfl, List.getLast?_concat] at hcontent
      obtain ⟨row, hrow, hhash⟩ := Option.map_eq_some_iff.1 hcontent
      have hmem : row ∈ (ledgerAfter (before ++ [r])).table.rows := by
        rw [hafter.latest] at hrow
        exact (MacroObservations.mem_rowsOf.1 (List.mem_of_getLast? hrow)).1
      obtain ⟨r', hr', heq⟩ := hafter.rows row hmem
      refine ⟨row, hrow, r', hr', ?_, heq⟩
      rw [← hhash, heq]
      rfl
    · exact hafter.revisions r.series
    · intro row hrow hhash
      simp [appendMacroObservation, hrow, Option.filter, hhash]

end

/-- **The ledger follows the published value if and only if no content is
    restored.** -/
theorem ledger_follows_iff (calls : List MacroRecord) : Splits Follows calls ↔ Splits Unrestored calls :=
  splits_iff tells_nil (fun _ _ h => follows_iff h) (fun _ _ h => tells_append h) calls

/-- A value of one month. -/
def sampleRecord (hash : String) : MacroRecord where
  series := ⟨"fred", "DGS10", "2026-01-02"⟩
  collectorFirstSeenTime := 0
  fetchedTime := 0
  value := 0
  unit := "percent"
  footnotes := .arr []
  payload := .str hash
  contentHash := hash

/-- **A restored value is refused.** -/
theorem restored_refused : ¬ Splits Follows [sampleRecord "a", sampleRecord "b", sampleRecord "a"] := by
  intro h
  obtain ⟨answer, hanswer⟩ := (h [sampleRecord "a", sampleRecord "b"] (sampleRecord "a") [] rfl).succeeds
  have hrefused : (appendMacroObservation (sampleRecord "a")
      (ledgerAfter [sampleRecord "a", sampleRecord "b"])).1 = .error .integrityError := by
    decide
  rw [hrefused] at hanswer
  cases hanswer

end Xauusd.Evidence
