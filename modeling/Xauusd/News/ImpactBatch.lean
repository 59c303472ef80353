/-
  The batches of the impact review (`load_identity_candidate_universe`,
  `pending_impact_records` in `news/annotation/impact.py`).

  The records of one batch are reviewed against one universe: the newest rows
  that were first seen no later than the newest record.

  * `loadIdentityCandidateUniverse`, `pendingImpactRecords`;
  * `pending_eq_ok`: the universe of a batch, and what each record is offered;
  * `identity_recall`: **retrieval over an index offers the best of a full scan,
    and a record of a batch is offered what it is offered alone, if the universe
    leaves no row out**;
  * `crowded_out`: a row that the newer rows of another record leave out.

  What the query of the pending rows returns is given, in its two orders, as is
  the relevance of a headline.
-/
import Xauusd.Lib.Table
import Xauusd.News.Recall

namespace Xauusd.News

open Recall

/-- A row of the pending query. -/
structure PendingRow extends CurrentRow where
  headline : Option String
  sourcePublishedTime : Option String

structure ImpactRecord extends PendingRow where
  priorEventContext : List Candidate

/-- What the batches read: the annotated rows, and the pending ones in the order
    of a selection. -/
structure ImpactDb where
  candidates : Table fun prior : PriorRow => prior.candidateId
  pending : String → List PendingRow

/-- `IDENTITY_CANDIDATE_UNIVERSE_LIMIT` -/
def identityCandidateUniverseLimit : ℤ := 10000

section
variable (texts : Texts) (relevant : PendingRow → Except String Bool)

/-- `WHERE collector_first_seen_time <= ? ORDER BY collector_first_seen_time DESC` -/
def ImpactDb.newestFirst (db : ImpactDb) (maxFirstSeen : String) : List PriorRow :=
  Stable.sortBy (fun prior => OrderDual.toDual prior.collectorFirstSeenTime)
    (db.candidates.rows.filter fun prior => prior.collectorFirstSeenTime ≤ maxFirstSeen)

def loadIdentityCandidateUniverse (db : ImpactDb) (maxFirstSeen : String) (limit : ℤ) :
    Except String (List PriorRow) :=
  if ¬ (1 ≤ limit ∧ limit ≤ identityCandidateUniverseLimit) then
    .error "identity candidate universe bound is invalid"
  else .ok ((db.newestFirst maxFirstSeen).take limit.toNat)

/-- The loop over the pending rows. -/
def selectRelevant (limit : ℤ) : List PendingRow → List PendingRow → Except String (List PendingRow)
  | selected, [] => .ok selected
  | selected, row :: rows =>
    match relevant row with
    | .error e => .error e
    | .ok allowed =>
      let selected := if allowed then selected ++ [row] else selected
      if limit ≤ selected.length then .ok selected else selectRelevant limit selected rows

/-- The loop over the selected rows. -/
def offerAll (candidateIndex : CandidateIndex) : List PendingRow → Except String (List ImpactRecord)
  | [] => .ok []
  | row :: rows =>
    match retrievePriorEventContext texts row.toCurrentRow candidateIndex 5 with
    | .error e => .error e
    | .ok context =>
      match offerAll candidateIndex rows with
      | .error e => .error e
      | .ok records => .ok (⟨row, context⟩ :: records)

/-- `max` of a first text and some more. -/
def maxFirstSeen (row : PendingRow) (rows : List PendingRow) : String :=
  rows.foldl (fun newest row => max newest row.collectorFirstSeenTime) row.collectorFirstSeenTime

def pendingImpactRecords (db : ImpactDb) (limit : ℤ) (selectionOrder : String) :
    Except String (List ImpactRecord) :=
  if selectionOrder ≠ "oldest" ∧ selectionOrder ≠ "newest" then
    .error "impact selection order is not controlled"
  else match selectRelevant relevant limit [] ((db.pending selectionOrder).take (max 1 (limit * 4)).toNat) with
    | .error e => .error e
    | .ok [] => .ok []
    | .ok (row :: rows) =>
      match loadIdentityCandidateUniverse db (maxFirstSeen row rows) identityCandidateUniverseLimit with
      | .error e => .error e
      | .ok candidateRows =>
        match buildIdentityCandidateIndex texts candidateRows with
        | .error e => .error e
        | .ok candidateIndex => offerAll texts candidateIndex (row :: rows)

end

/-! ## The universe of a batch -/

section
variable {texts : Texts} {relevant : PendingRow → Except String Bool} {db : ImpactDb} {limit : ℤ}
  {selectionOrder : String} {records : List ImpactRecord} {record : ImpactRecord} {row : PendingRow}
  {rows : List PendingRow} {candidateIndex : CandidateIndex} {e : String}

theorem maxFirstSeen_concat (rows : List PendingRow) (last : PendingRow) :
    maxFirstSeen row (rows ++ [last]) = max (maxFirstSeen row rows) last.collectorFirstSeenTime := by
  rw [maxFirstSeen, List.foldl_append]
  rfl

/-- The newest of some rows is one of them, and none is newer. -/
theorem maxFirstSeen_spec (row : PendingRow) (rows : List PendingRow) :
    (∃ newest ∈ row :: rows, newest.collectorFirstSeenTime = maxFirstSeen row rows) ∧
      ∀ r ∈ row :: rows, r.collectorFirstSeenTime ≤ maxFirstSeen row rows := by
  induction rows using List.reverseRecOn with
  | nil => exact ⟨⟨row, List.mem_singleton_self row, rfl⟩, fun r hr => (List.mem_singleton.1 hr) ▸ le_rfl⟩
  | append_singleton rows last ih =>
    obtain ⟨⟨newest, hnewest, heq⟩, hle⟩ := ih
    rw [maxFirstSeen_concat, ← List.cons_append]
    constructor
    · rcases le_total (maxFirstSeen row rows) last.collectorFirstSeenTime with h | h
      · exact ⟨last, by simp, (max_eq_right h).symm⟩
      · exact ⟨newest, List.mem_append_left _ hnewest, heq.trans (max_eq_left h).symm⟩
    · intro r hr
      rcases List.mem_append.1 hr with hr | hr
      · exact (hle r hr).trans (le_max_left _ _)
      · rw [List.mem_singleton.1 hr]
        exact le_max_right _ _

theorem offerAll_eq_ok (h : offerAll texts candidateIndex rows = .ok records) (hrecord : record ∈ records) :
    record.toPendingRow ∈ rows ∧ retrievePriorEventContext texts record.toCurrentRow candidateIndex 5 =
      .ok record.priorEventContext := by
  induction rows generalizing records with
  | nil =>
    cases h
    cases hrecord
  | cons row rows ih =>
    rw [offerAll] at h
    split at h
    · cases h
    next context hcontext =>
    split at h
    · cases h
    next rest hrest =>
    cases h
    rcases List.mem_cons.1 hrecord with rfl | hrecord
    · exact ⟨List.mem_cons_self, hcontext⟩
    · exact (ih hrest hrecord).imp_left (List.mem_cons_of_mem _)

theorem offerAll_eq_error (h : offerAll texts candidateIndex rows = .error e) :
    ∃ row ∈ rows, retrievePriorEventContext texts row.toCurrentRow candidateIndex 5 = .error e := by
  induction rows with
  | nil => cases h
  | cons row rows ih =>
    rw [offerAll] at h
    split at h
    · next hrow =>
      cases h
      exact ⟨row, List.mem_cons_self, hrow⟩
    next context hcontext =>
    split at h
    · next hrest =>
      cases h
      obtain ⟨row', hrow', heq⟩ := ih hrest
      exact ⟨row', List.mem_cons_of_mem _ hrow', heq⟩
    · cases h

/-- Every row of a batch has its record. -/
theorem rows_of_offerAll (h : offerAll texts candidateIndex rows = .ok records) :
    records.map (fun record => record.toPendingRow) = rows := by
  induction rows generalizing records with
  | nil =>
    cases h
    rfl
  | cons row rows ih =>
    rw [offerAll] at h
    split at h
    · cases h
    split at h
    · cases h
    next rest hrest =>
    cases h
    rw [List.map_cons, ih hrest]

/-- The rows that were first seen no later than some record. -/
def ImpactDb.seenByAny (db : ImpactDb) (records : List ImpactRecord) : List PriorRow :=
  db.candidates.rows.filter fun prior =>
    records.any fun record => prior.collectorFirstSeenTime ≤ record.collectorFirstSeenTime

theorem mem_newestFirst {prior : PriorRow} {t : String} :
    prior ∈ db.newestFirst t ↔ prior ∈ db.candidates ∧ prior.collectorFirstSeenTime ≤ t := by
  rw [ImpactDb.newestFirst, Stable.mem_sortBy, List.mem_filter, decide_eq_true_iff]
  rfl

theorem ids_newestFirst (db : ImpactDb) (t : String) : ((db.newestFirst t).map fun prior => prior.candidateId).Nodup :=
  (((Stable.sortBy_perm _ _).map _).nodup_iff).2 (db.candidates.nodup.sublist (List.filter_sublist.map _))

/-- The rows seen by one record, among those seen by a newer one. -/
theorem newestFirst_filter {current : CurrentRow} {t : String} (h : current.collectorFirstSeenTime ≤ t) :
    (db.newestFirst t).filter (seenBy current) = db.newestFirst current.collectorFirstSeenTime := by
  rw [ImpactDb.newestFirst, ← Stable.sortBy_filter, List.filter_filter, ImpactDb.newestFirst]
  congr 1
  refine List.filter_congr fun prior _ => ?_
  rw [seenBy, ← Bool.decide_and]
  exact decide_eq_decide.2 ⟨And.left, fun hp => ⟨hp, hp.trans h⟩⟩

theorem mem_of_selectRelevant {selected out : List PendingRow} (h : selectRelevant relevant limit selected rows = .ok out)
    (hrow : row ∈ out) : row ∈ selected ∨ row ∈ rows := by
  induction rows generalizing selected with
  | nil =>
    cases h
    exact .inl hrow
  | cons row' rows ih =>
    rw [selectRelevant] at h
    split at h
    · cases h
    next allowed hallowed =>
    have hnext : row ∈ (if allowed then selected ++ [row'] else selected) → row ∈ selected ∨ row ∈ row' :: rows := by
      intro hmem
      split at hmem
      · rcases List.mem_append.1 hmem with hmem | hmem
        · exact .inl hmem
        · exact .inr (List.mem_singleton.1 hmem ▸ List.mem_cons_self)
      · exact .inl hmem
    dsimp only at h
    generalize (if allowed then selected ++ [row'] else selected) = next at h hnext
    split at h
    · cases h
      exact hnext hrow
    · rcases ih h with hmem | hmem
      · exact hnext hmem
      · exact .inr (List.mem_cons_of_mem _ hmem)

theorem selectRelevant_eq_error {selected : List PendingRow}
    (h : selectRelevant relevant limit selected rows = .error e) : ∃ row ∈ rows, relevant row = .error e := by
  induction rows generalizing selected with
  | nil => cases h
  | cons row' rows ih =>
    rw [selectRelevant] at h
    split at h
    · next hrow =>
      cases h
      exact ⟨row', List.mem_cons_self, hrow⟩
    next allowed hallowed =>
    dsimp only at h
    generalize (if allowed then selected ++ [row'] else selected) = next at h
    split at h
    · cases h
    · obtain ⟨row, hrow, heq⟩ := ih h
      exact ⟨row, List.mem_cons_of_mem _ hrow, heq⟩

/-- The universe is never refused. -/
theorem loadIdentityCandidateUniverse_eq (t : String) :
    loadIdentityCandidateUniverse db t identityCandidateUniverseLimit =
      .ok ((db.newestFirst t).take identityCandidateUniverseLimit.toNat) :=
  if_neg (not_not.2 ⟨by decide, le_rfl⟩)

/-- A batch with some rows. -/
theorem pending_of_selected (row : PendingRow) (rows : List PendingRow)
    (horder : selectionOrder = "oldest" ∨ selectionOrder = "newest")
    (hselected : selectRelevant relevant limit []
      ((db.pending selectionOrder).take (max 1 (limit * 4)).toNat) = .ok (row :: rows))
    (hbuild : buildIdentityCandidateIndex texts
      ((db.newestFirst (maxFirstSeen row rows)).take identityCandidateUniverseLimit.toNat) = .ok candidateIndex) :
    pendingImpactRecords texts relevant db limit selectionOrder = offerAll texts candidateIndex (row :: rows) := by
  have hknown : ¬ (selectionOrder ≠ "oldest" ∧ selectionOrder ≠ "newest") := fun h =>
    horder.elim h.1 h.2
  rw [pendingImpactRecords, if_neg hknown, hselected]
  dsimp only
  rw [loadIdentityCandidateUniverse_eq]
  dsimp only
  rw [hbuild]

/-- The universe of a batch, and what its records are offered. -/
theorem pending_eq_ok (h : pendingImpactRecords texts relevant db limit selectionOrder = .ok records) :
    records = [] ∨ ∃ newest ∈ records, (∀ r ∈ records, r.collectorFirstSeenTime ≤ newest.collectorFirstSeenTime) ∧
      ∀ record ∈ records, recallPrior texts
        ((db.newestFirst newest.collectorFirstSeenTime).take identityCandidateUniverseLimit.toNat)
        record.toCurrentRow 5 = .ok record.priorEventContext := by
  unfold pendingImpactRecords at h
  split at h
  · cases h
  split at h
  · cases h
  · cases h
    exact .inl rfl
  next row rows hselected =>
  rw [loadIdentityCandidateUniverse_eq] at h
  dsimp only at h
  split at h
  · cases h
  next index hbuild =>
  have hrows := rows_of_offerAll h
  obtain ⟨⟨newest, hnewest, heq⟩, hle⟩ := maxFirstSeen_spec row rows
  rw [← hrows] at hnewest hle
  obtain ⟨newestRecord, hmem, rfl⟩ := List.mem_map.1 hnewest
  refine .inr ⟨newestRecord, hmem, fun r hr => ?_, fun record hrecord => ?_⟩
  · exact heq ▸ hle _ (List.mem_map_of_mem hr)
  · rw [heq, recallPrior, hbuild]
    exact (offerAll_eq_ok h hrecord).2

/-- What a batch raises. -/
theorem pending_eq_error (h : pendingImpactRecords texts relevant db limit selectionOrder = .error e) :
    (selectionOrder ≠ "oldest" ∧ selectionOrder ≠ "newest") ∨
      (∃ row ∈ db.pending selectionOrder, relevant row = .error e ∨ ¬ Readable texts row.annotation) ∨
      ∃ prior ∈ db.candidates, ¬ Readable texts prior.annotation := by
  unfold pendingImpactRecords at h
  split at h
  · next horder => exact .inl horder
  split at h
  · next hselect =>
    obtain ⟨row, hrow, hraise⟩ := selectRelevant_eq_error (hselect.trans (congrArg Except.error (Except.error.inj h)))
    exact .inr (.inl ⟨row, List.mem_of_mem_take hrow, .inl hraise⟩)
  · cases h
  next row rows hselected =>
  have hpending : ∀ r ∈ row :: rows, r ∈ db.pending selectionOrder := fun r hr =>
    List.mem_of_mem_take ((mem_of_selectRelevant hselected hr).resolve_left List.not_mem_nil)
  rw [loadIdentityCandidateUniverse_eq] at h
  have huniverse : ∀ {prior : PriorRow}, prior ∈ (db.newestFirst (maxFirstSeen row rows)).take
      identityCandidateUniverseLimit.toNat → prior ∈ db.candidates := fun hprior =>
    (mem_newestFirst.1 (List.mem_of_mem_take hprior)).1
  dsimp only at h
  split at h
  · next hbuild =>
    obtain ⟨prior, hprior, hunreadable⟩ := build_eq_error hbuild
    exact .inr (.inr ⟨prior, huniverse hprior, hunreadable⟩)
  next index hbuild =>
  obtain ⟨r, hr, hretrieve⟩ := offerAll_eq_error h
  have hrecall : recallPrior texts ((db.newestFirst (maxFirstSeen row rows)).take
      identityCandidateUniverseLimit.toNat) r.toCurrentRow 5 = .error e := by
    rw [recallPrior, hbuild]
    exact hretrieve
  have hfive : (1 : ℤ) ≤ 5 ∧ (5 : ℤ) ≤ 20 := by norm_num
  have hcases := recallPrior_top texts r.toCurrentRow ((ids_newestFirst db (maxFirstSeen row rows)).sublist
    ((List.take_sublist identityCandidateUniverseLimit.toNat _).map _)) hfive
  rw [hrecall] at hcases
  obtain ⟨value, hmem, hunreadable⟩ := hcases
  rcases List.mem_cons.1 hmem with rfl | hmem
  · exact .inr (.inl ⟨r, hpending r hr, .inr hunreadable⟩)
  · obtain ⟨prior, hprior, rfl⟩ := List.mem_map.1 hmem
    exact .inr (.inr ⟨prior, huniverse hprior, hunreadable⟩)

/-- The full scan of what a record has seen. -/
theorem fullScan_newestFirst (current : CurrentRow) :
    (fullScan texts current (db.newestFirst current.collectorFirstSeenTime)).Perm
      (fullScan texts current db.candidates.rows) := by
  rw [fullScan_eq, fullScan_eq]
  refine ((Stable.sortBy_perm _ _).filterMap _).trans ?_
  rw [List.filterMap_filter]
  refine (List.filterMap_congr fun prior _ => ?_) ▸ List.Perm.refl _
  split
  · rfl
  · next h =>
    rw [candidate?, judgePrior_of_seen_later (by simpa [seenBy] using h)]
    rfl

/-- A universe that leaves no row out. -/
theorem length_newestFirst {newest : ImpactRecord} (hnewest : newest ∈ records)
    (hle : ∀ r ∈ records, r.collectorFirstSeenTime ≤ newest.collectorFirstSeenTime) :
    (db.newestFirst newest.collectorFirstSeenTime).length = (db.seenByAny records).length := by
  rw [ImpactDb.newestFirst, (Stable.sortBy_perm _ _).length_eq, ImpactDb.seenByAny]
  refine congrArg List.length (List.filter_congr fun prior _ => ?_)
  rw [Bool.eq_iff_iff, decide_eq_true_iff, List.any_eq_true]
  constructor
  · intro h
    exact ⟨newest, hnewest, decide_eq_true h⟩
  · rintro ⟨r, hr, h⟩
    exact (of_decide_eq_true h).trans (hle r hr)

/-- What a record of a batch is offered, it is offered alone. -/
theorem offered_alone (h : pendingImpactRecords texts relevant db limit selectionOrder = .ok records)
    (hall : (db.seenByAny records).length ≤ identityCandidateUniverseLimit) (hrecord : record ∈ records) :
    recallPrior texts (db.newestFirst record.collectorFirstSeenTime) record.toCurrentRow 5 =
      .ok record.priorEventContext := by
  rcases pending_eq_ok h with rfl | ⟨newest, hnewest, hle, hoffered⟩
  · cases hrecord
  · have hcontext := hoffered record hrecord
    rw [List.take_of_length_le] at hcontext
    · have hseen := recallPrior_seen (ids_newestFirst _ _) (by norm_num) hcontext
      rwa [newestFirst_filter (hle record hrecord)] at hseen
    · rw [length_newestFirst hnewest hle]
      exact Int.le_toNat (by decide) |>.2 hall

/-- **Retrieval over an index offers the best of a full scan, and a record of a
    batch is offered what it is offered alone, unless the universe of the batch
    leaves a row out.** -/
theorem identity_recall (texts : Texts) :
    (∀ (priorRows : List PriorRow) (current : CurrentRow) (limit : ℤ),
      (priorRows.map fun prior => prior.candidateId).Nodup → 1 ≤ limit → limit ≤ 20 →
      match recallPrior texts priorRows current limit with
      | .ok offered =>
        Top Candidate.rank limit.toNat (fullScan texts current priorRows) offered ∧
          (∀ prior ∈ priorRows, 1 / 4 < priorIdentitySimilarity texts current.identity prior.identity →
            ∃ candidate, materializeIdentityCandidate texts current prior
              (priorIdentitySimilarity texts current.identity prior.identity) = .ok candidate) ∧
          ∀ c ∈ offered, c.collectorFirstSeenTime ≤ current.collectorFirstSeenTime ∧ ¬ c.isRevisionOf current
      | .error _ => ∃ value ∈ current.annotation :: priorRows.map (fun prior => prior.annotation),
          ¬ Readable texts value) ∧
    ∀ (relevant : PendingRow → Except String Bool) (db : ImpactDb) (limit : ℤ) (selectionOrder : String),
      match pendingImpactRecords texts relevant db limit selectionOrder with
      | .ok records => (db.seenByAny records).length ≤ identityCandidateUniverseLimit →
        ∀ record ∈ records,
          recallPrior texts (db.newestFirst record.collectorFirstSeenTime) record.toCurrentRow 5 =
            .ok record.priorEventContext ∧
          Top Candidate.rank 5 (fullScan texts record.toCurrentRow db.candidates.rows) record.priorEventContext
      | .error e => (selectionOrder ≠ "oldest" ∧ selectionOrder ≠ "newest") ∨
          (∃ row ∈ db.pending selectionOrder, relevant row = .error e ∨ ¬ Readable texts row.annotation) ∨
          ∃ prior ∈ db.candidates, ¬ Readable texts prior.annotation := by
  constructor
  · intro priorRows current limit hids hone htwenty
    exact recallPrior_top texts current hids ⟨hone, htwenty⟩
  · intro relevant db limit selectionOrder
    cases h : pendingImpactRecords texts relevant db limit selectionOrder with
    | error e => exact pending_eq_error h
    | ok records =>
      intro hall record hrecord
      have halone := offered_alone h hall hrecord
      refine ⟨halone, ?_⟩
      have hfive : (1 : ℤ) ≤ 5 ∧ (5 : ℤ) ≤ 20 := by norm_num
      have htop := recallPrior_top texts record.toCurrentRow
        (ids_newestFirst db record.collectorFirstSeenTime) hfive
      rw [halone] at htop
      exact htop.1.of_perm (fullScan_newestFirst record.toCurrentRow)

end

/-! ## A row that is crowded out -/

/-- Case folding of ASCII letters. -/
def asciiTexts : Texts where
  casefold s := s.map fun
    | .char c => .char c.toLower
    | .surrogate n => .surrogate n
  repr _ := []

def plainRow (candidateId firstSeen : String) (value : PyJson) : PriorRow where
  source := "kitco_news"
  sourceItemId := candidateId
  revisionNumber := 1
  headline := none
  collectorFirstSeenTime := firstSeen
  clusterId := none
  candidateId
  rawContentHash := candidateId
  summaryZh := .none
  impactClass := none
  updateType := none
  canonicalEpisodeId := none
  canonicalEventId := none
  annotation := value

def PriorRow.pending (prior : PriorRow) : PendingRow where
  source := prior.source
  sourceItemId := prior.sourceItemId
  revisionNumber := prior.revisionNumber
  collectorFirstSeenTime := prior.collectorFirstSeenTime
  clusterId := prior.clusterId
  annotation := prior.annotation
  headline := prior.headline
  sourcePublishedTime := none

/-- An event, and ten thousand rows that are seen later. -/
def rateCut : PyJson :=
  .dict [(PyStr.of "material_event_key", .str (PyStr.of "Fed rate cut 2026-01"))]

def firstReport : PriorRow := plainRow "first" "2026-01-01T00:00:00.000000+00:00" rateCut

def secondReport : PriorRow := plainRow "second" "2026-01-02T00:00:00.000000+00:00" rateCut

def laterRow (n : ℕ) : PriorRow :=
  plainRow (String.ofList (Text.hexDigits 4 n)) "2026-01-03T00:00:00.000000+00:00" (.dict [])

/-- The times of the samples, and what is recalled of them. -/
theorem sample_facts :
    ("2026-01-01T00:00:00.000000+00:00" ≤ "2026-01-03T00:00:00.000000+00:00" ∧
      ¬ "2026-01-03T00:00:00.000000+00:00" ≤ "2026-01-02T00:00:00.000000+00:00" ∧
      maxFirstSeen secondReport.pending [(laterRow 0).pending] = "2026-01-03T00:00:00.000000+00:00") ∧
    identityLookupKeys asciiTexts ⟨[], none⟩ = [] ∧
    ([firstReport, laterRow 0].map fun prior => prior.candidateId).Nodup ∧
    (recallPrior asciiTexts [firstReport, laterRow 0] secondReport.pending.toCurrentRow 1).isOk = true ∧
    (match recallPrior asciiTexts [firstReport] secondReport.pending.toCurrentRow 5 with
      | .ok offered => offered.length
      | .error _ => 0) = 1 := by
  decide +kernel

/-- With one prior row, and one more that is seen later. -/
theorem identity_recall_sample :
    ∃ offered, recallPrior asciiTexts [firstReport, laterRow 0] secondReport.pending.toCurrentRow 1 = .ok offered ∧
      Top Candidate.rank 1 (fullScan asciiTexts secondReport.pending.toCurrentRow [firstReport, laterRow 0])
        offered := by
  obtain ⟨-, -, hids, hok, -⟩ := sample_facts
  have h := (identity_recall asciiTexts).1 [firstReport, laterRow 0] secondReport.pending.toCurrentRow 1
    hids (by decide) (by decide)
  split at h
  · next offered hoffered => exact ⟨offered, hoffered, h.1⟩
  · next e he =>
    rw [he] at hok
    cases hok

def crowd : List PriorRow := (List.range 10000).map laterRow

theorem later_of_mem_crowd {prior : PriorRow} (h : prior ∈ crowd) : ∃ n < 10000, laterRow n = prior := by
  obtain ⟨n, hn, rfl⟩ := List.mem_map.1 h
  exact ⟨n, List.mem_range.1 hn, rfl⟩

/-- The rows are stored with the newest first. -/
def crowdedDb : ImpactDb where
  candidates := {
    rows := crowd ++ [firstReport]
    nodup := by
      rw [List.map_append, List.nodup_append]
      refine ⟨?_, List.nodup_singleton _, ?_⟩
      · rw [crowd, List.map_map]
        refine List.Nodup.map_on (fun n hn m hm h => ?_) List.nodup_range
        have hn := List.mem_range.1 hn
        have hm := List.mem_range.1 hm
        exact Text.hexDigits_injective (k := 4) (by omega) (by omega) (String.ofList_injective h)
      · intro k hk k' hk' heq
        obtain ⟨prior, hprior, rfl⟩ := List.mem_map.1 hk
        obtain ⟨n, -, rfl⟩ := later_of_mem_crowd hprior
        rw [List.mem_singleton.1 hk'] at heq
        have hlength := congrArg (fun s : String => s.toList.length) heq
        change (String.ofList (Text.hexDigits 4 n)).toList.length = 5 at hlength
        rw [String.toList_ofList, Text.length_hexDigits] at hlength
        cases hlength }
  pending _ := [secondReport.pending, (laterRow 0).pending]

theorem crowdedDb_newest :
    crowdedDb.newestFirst "2026-01-03T00:00:00.000000+00:00" = crowd ++ [firstReport] := by
  have hall : (crowd ++ [firstReport]).filter
      (fun prior => prior.collectorFirstSeenTime ≤ "2026-01-03T00:00:00.000000+00:00") =
        crowd ++ [firstReport] := by
    refine List.filter_eq_self.2 fun prior hprior => ?_
    rcases List.mem_append.1 hprior with h | h
    · obtain ⟨n, -, rfl⟩ := later_of_mem_crowd h
      exact decide_eq_true le_rfl
    · rw [List.mem_singleton.1 h]
      exact decide_eq_true sample_facts.1.1
  have hsorted : (crowd ++ [firstReport]).Pairwise fun a b =>
      OrderDual.toDual a.collectorFirstSeenTime ≤ OrderDual.toDual b.collectorFirstSeenTime := by
    refine List.pairwise_append.2 ⟨?_, List.pairwise_singleton _ _, ?_⟩
    · refine List.pairwise_of_forall_mem_list fun a ha b hb => ?_
      obtain ⟨n, -, rfl⟩ := later_of_mem_crowd ha
      obtain ⟨m, -, rfl⟩ := later_of_mem_crowd hb
      exact le_rfl
    · intro a ha b hb
      obtain ⟨n, -, rfl⟩ := later_of_mem_crowd ha
      rw [List.mem_singleton.1 hb]
      exact sample_facts.1.1
  rw [ImpactDb.newestFirst]
  change Stable.sortBy _ ((crowd ++ [firstReport]).filter _) = _
  rw [hall]
  exact hsorted.insertionSort_eq

theorem crowdedDb_second :
    crowdedDb.newestFirst "2026-01-02T00:00:00.000000+00:00" = [firstReport] := by
  rw [ImpactDb.newestFirst]
  change Stable.sortBy _ ((crowd ++ [firstReport]).filter _) = _
  rw [List.filter_append]
  have hnone : crowd.filter
      (fun prior => prior.collectorFirstSeenTime ≤ "2026-01-02T00:00:00.000000+00:00") = [] := by
    refine List.filter_eq_nil_iff.2 fun prior hprior => ?_
    obtain ⟨n, -, rfl⟩ := later_of_mem_crowd hprior
    exact fun h => sample_facts.1.2.1 (of_decide_eq_true h)
  rw [hnone]
  rfl

/-- No later row is filed under any key. -/
theorem build_crowd : buildIdentityCandidateIndex asciiTexts crowd = .ok [] := by
  refine build_eq_ok_iff.2 ⟨fun prior hprior => ?_, ?_⟩
  · obtain ⟨n, -, rfl⟩ := later_of_mem_crowd hprior
    exact ⟨[], rfl⟩
  · have hkeys : identityLookupKeys asciiTexts ⟨[], none⟩ = [] := sample_facts.2.1
    refine (fileAll_eq_self fun prior hprior => ?_).symm
    obtain ⟨n, -, rfl⟩ := later_of_mem_crowd hprior
    exact hkeys

theorem recall_firstReport :
    ∃ c, recallPrior asciiTexts [firstReport] secondReport.pending.toCurrentRow 5 = .ok [c] := by
  obtain ⟨-, -, -, -, hone⟩ := sample_facts
  cases h : recallPrior asciiTexts [firstReport] secondReport.pending.toCurrentRow 5 with
  | error e =>
    rw [h] at hone
    cases hone
  | ok offered =>
    rw [h] at hone
    obtain ⟨c, rfl⟩ := List.length_eq_one_iff.1 hone
    exact ⟨c, rfl⟩

/-- The same record is offered a candidate in a batch of its own, and none in a
    batch with a later record. -/
theorem crowded_out :
    (∃ c, pendingImpactRecords asciiTexts (fun _ => .ok true) crowdedDb 1 "oldest" =
      .ok [⟨secondReport.pending, [c]⟩]) ∧
    pendingImpactRecords asciiTexts (fun _ => .ok true) crowdedDb 2 "oldest" =
      .ok [⟨secondReport.pending, []⟩, ⟨(laterRow 0).pending, []⟩] := by
  constructor
  · obtain ⟨c, hc⟩ := recall_firstReport
    refine ⟨c, ?_⟩
    have hshort : [firstReport].length ≤ identityCandidateUniverseLimit.toNat := by
      rw [List.length_singleton, identityCandidateUniverseLimit]
      norm_num
    have huniverse : (crowdedDb.newestFirst (maxFirstSeen secondReport.pending [])).take
        identityCandidateUniverseLimit.toNat = [firstReport] := by
      have hnewest : maxFirstSeen secondReport.pending [] = "2026-01-02T00:00:00.000000+00:00" := rfl
      rw [hnewest, crowdedDb_second, List.take_of_length_le hshort]
    rw [recallPrior] at hc
    split at hc
    · cases hc
    next index hbuild =>
    rw [pending_of_selected secondReport.pending [] (.inl rfl) rfl
      (huniverse.symm ▸ hbuild), offerAll, hc]
    dsimp only
    rw [offerAll]
  · have hlength : crowd.length = identityCandidateUniverseLimit.toNat := by
      rw [crowd, List.length_map, List.length_range]
      exact (Int.toNat_natCast 10000).symm
    have huniverse : (crowdedDb.newestFirst (maxFirstSeen secondReport.pending [(laterRow 0).pending])).take
        identityCandidateUniverseLimit.toNat = crowd := by
      have hnewest : maxFirstSeen secondReport.pending [(laterRow 0).pending] =
          "2026-01-03T00:00:00.000000+00:00" := sample_facts.1.2.2
      rw [hnewest, crowdedDb_newest, List.take_left' hlength]
    rw [pending_of_selected secondReport.pending [(laterRow 0).pending] (.inl rfl) rfl
      (huniverse.symm ▸ build_crowd), offerAll, retrieve_nil (by decide) ⟨_, rfl⟩]
    dsimp only
    rw [offerAll, retrieve_nil (by decide) ⟨_, rfl⟩]
    rfl

end Xauusd.News
