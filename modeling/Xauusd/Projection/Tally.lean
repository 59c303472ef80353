/-
  The counts of the generation that is served.

  * `Tally g rows c`: the row `c` counts a group of the rows, a review state, or
    all of them, as grouping the rows says;
  * `mem_newsProjectionCounts`: the rows inserted are those that tally;
  * `PatchedTally`: what a sparse publication leaves of its counts;
  * `CountsExact`: the stored rows of a generation tally with the active rows,
    and the candidates of a summary are counted at every instant;
  * `counts_exact_iff`: **they do in every state that requests reach, if and only
    if the generation that is served lists no item under two index rows**.
-/
import Xauusd.Projection.Candidates
import Xauusd.Projection.Replica

namespace Xauusd.Projection

open Program

/-! ## Grouping -/

theorem sum_indicator {κ : Type*} [DecidableEq κ] (keys : List κ) (k : κ) :
    (keys.map fun k' => if k = k' then 1 else 0).sum = keys.count k := by
  induction keys with
  | nil => rfl
  | cons k' keys ih =>
    rw [List.map_cons, List.sum_cons, ih, List.count_cons]
    by_cases h : k = k'
    · simp [h, Nat.add_comm]
    · simp [h, Ne.symm h]

/-- Counting group by group counts every row of a group once. -/
theorem sum_countP {α κ : Type*} [DecidableEq κ] {keys : List κ} (hkeys : keys.Nodup) (f : α → κ)
    {q : α → Bool} {rows : List α} (h : ∀ e ∈ rows, q e = true → f e ∈ keys) :
    (keys.map fun k => rows.countP fun e => decide (f e = k) && q e).sum = rows.countP q := by
  induction rows with
  | nil => simp
  | cons e rows ih =>
    obtain ⟨he, hrows⟩ := List.forall_mem_cons.1 h
    have hone : (keys.map fun k => if (decide (f e = k) && q e) = true then 1 else 0).sum =
        if q e = true then 1 else 0 := by
      cases hq : q e with
      | false => simp
      | true =>
        simp only [Bool.and_true, decide_eq_true_eq, if_true]
        rw [sum_indicator, List.count_eq_one_of_mem hkeys (he hq)]
    simp only [List.countP_cons, List.sum_map_add, ih hrows, hone]

section
variable {g : String} {rows : List IndexEntry}

/-- The group of an entry. -/
def groupOf (e : IndexEntry) : ReviewState × String := (reviewStateOf e.payload, e.category)

/-- `c` counts one group of the rows, one review state, or all of them. -/
inductive Tally (g : String) (rows : List IndexEntry) : CountRow → Prop
  | group (e : IndexEntry) (he : e ∈ rows) : Tally g rows
      { generation := g, review := reviewStateOf e.payload, category := e.category
        itemCount := rows.countP fun e' => groupOf e' = groupOf e
        parsedCount := rows.countP fun e' => groupOf e' = groupOf e && e'.parsed
        candidateExpiries := [] }
  | review (e : IndexEntry) (he : e ∈ rows) : Tally g rows
      { generation := g, review := reviewStateOf e.payload, category := ""
        itemCount := rows.countP fun e' => reviewStateOf e'.payload = reviewStateOf e.payload
        parsedCount := rows.countP fun e' => reviewStateOf e'.payload = reviewStateOf e.payload && e'.parsed
        candidateExpiries := [] }
  | all (e : IndexEntry) (he : e ∈ rows) : Tally g rows
      { generation := g, review := .all, category := ""
        itemCount := rows.length
        parsedCount := rows.countP fun e' => e'.parsed
        candidateExpiries := (rows.filterMap candidateExpiry).insertionSort (· ≤ ·) }

theorem Tally.generation {c : CountRow} (h : Tally g rows c) : c.generation = g := by
  cases h <;> rfl

/-- The keys of the groups. -/
theorem mem_groupKeys {k : ReviewState × String} : k ∈ (rows.map groupOf).dedup ↔ ∃ e ∈ rows, groupOf e = k := by
  rw [List.mem_dedup, List.mem_map]

/-- Adding up groups whose key satisfies `p` counts the rows whose group does. -/
theorem sum_groups (p : ReviewState × String → Bool) (q : IndexEntry → Bool) :
    ((((rows.map groupOf).dedup.filter p).map fun k =>
      rows.countP fun e => decide (groupOf e = k) && q e)).sum = rows.countP fun e => p (groupOf e) && q e := by
  rw [← sum_countP (f := groupOf) ((List.nodup_dedup _).filter p) (q := fun e => p (groupOf e) && q e)]
  · refine congrArg List.sum (List.map_congr_left fun k hk => List.countP_congr fun e _ => ?_)
    have hpk := (List.mem_filter.1 hk).2
    by_cases he : groupOf e = k
    · simp [he, hpk]
    · simp [he]
  · intro e he hq
    rw [Bool.and_eq_true] at hq
    exact List.mem_filter.2 ⟨mem_groupKeys.2 ⟨e, he, rfl⟩, hq.1⟩

/-- The row of a group. -/
def groupRow (g : String) (rows : List IndexEntry) (k : ReviewState × String) : CountRow :=
  { generation := g, review := k.1, category := k.2
    itemCount := rows.countP fun e => groupOf e = k
    parsedCount := rows.countP fun e => groupOf e = k && e.parsed
    candidateExpiries := [] }

theorem groupRows_eq (g : String) (rows : List IndexEntry) :
    groupRows g rows = (rows.map groupOf).dedup.map (groupRow g rows) := rfl

theorem mem_groupRows {c : CountRow} : c ∈ groupRows g rows ↔ ∃ e ∈ rows, c = groupRow g rows (groupOf e) := by
  rw [groupRows_eq, List.mem_map]
  constructor
  · rintro ⟨k, hk, rfl⟩
    obtain ⟨e, he, rfl⟩ := mem_groupKeys.1 hk
    exact ⟨e, he, rfl⟩
  · rintro ⟨e, he, rfl⟩
    exact ⟨groupOf e, mem_groupKeys.2 ⟨e, he, rfl⟩, rfl⟩

/-- The sums over the groups that satisfy `p`. -/
theorem sum_groupRows_filter (g : String) (rows : List IndexEntry) (p : ReviewState × String → Bool) :
    (((groupRows g rows).filter fun c => p (c.review, c.category)).map (·.itemCount)).sum =
        rows.countP (fun e => p (groupOf e)) ∧
      (((groupRows g rows).filter fun c => p (c.review, c.category)).map (·.parsedCount)).sum =
        rows.countP fun e => p (groupOf e) && e.parsed := by
  rw [groupRows_eq, List.filter_map, List.map_map, List.map_map]
  constructor
  · have hsum := @sum_groups rows p fun _ => true
    simp only [Bool.and_true] at hsum
    exact hsum
  · exact @sum_groups rows p fun e => e.parsed

/-- **The rows inserted are those that grouping the rows yields.** -/
theorem mem_newsProjectionCounts {c : CountRow} : c ∈ newsProjectionCounts g rows ↔ Tally g rows c := by
  have hreviews (r : ReviewState) : r ∈ ((groupRows g rows).map (·.review)).dedup ↔
      ∃ e ∈ rows, reviewStateOf e.payload = r := by
    rw [List.mem_dedup, List.mem_map]
    constructor
    · rintro ⟨c, hc, rfl⟩
      obtain ⟨e, he, rfl⟩ := mem_groupRows.1 hc
      exact ⟨e, he, rfl⟩
    · rintro ⟨e, he, rfl⟩
      exact ⟨_, mem_groupRows.2 ⟨e, he, rfl⟩, rfl⟩
  have hreview (r : ReviewState) : totalRow g r [] ((groupRows g rows).filter (·.review = r)) =
      { generation := g, review := r, category := ""
        itemCount := rows.countP fun e => reviewStateOf e.payload = r
        parsedCount := rows.countP fun e => reviewStateOf e.payload = r && e.parsed
        candidateExpiries := [] } := by
    obtain ⟨hitems, hparsed⟩ := sum_groupRows_filter g rows fun k => decide (k.1 = r)
    unfold totalRow
    rw [hitems, hparsed]
    rfl
  have hall (lines : List String) : totalRow g .all lines (groupRows g rows) =
      { generation := g, review := .all, category := ""
        itemCount := rows.length
        parsedCount := rows.countP fun e => e.parsed
        candidateExpiries := lines } := by
    obtain ⟨hitems, hparsed⟩ := sum_groupRows_filter g rows fun _ => true
    simp only [List.filter_true, Bool.true_and, List.countP_true] at hitems hparsed
    unfold totalRow
    rw [hitems, hparsed]
  simp only [newsProjectionCounts, List.mem_append, List.mem_map, hreviews, hreview, hall]
  constructor
  · rintro ((hc | ⟨r, ⟨e, he, rfl⟩, rfl⟩) | hc)
    · obtain ⟨e, he, rfl⟩ := mem_groupRows.1 hc
      exact Tally.group e he
    · exact Tally.review e he
    · split at hc
      · cases hc
      · next hgroups =>
        rw [List.isEmpty_iff] at hgroups
        obtain ⟨c', hc'⟩ := List.exists_mem_of_ne_nil _ hgroups
        obtain ⟨e, he, -⟩ := mem_groupRows.1 hc'
        rw [List.mem_singleton.1 hc]
        exact Tally.all e he
  · intro h
    cases h with
    | group e he => exact Or.inl (Or.inl (mem_groupRows.2 ⟨e, he, rfl⟩))
    | review e he => exact Or.inl (Or.inr ⟨_, ⟨e, he, rfl⟩, rfl⟩)
    | all e he =>
      refine Or.inr ?_
      have hgroups : groupRows g rows ≠ [] := List.ne_nil_of_mem (mem_groupRows.2 ⟨e, he, rfl⟩)
      rw [if_neg (by simpa using hgroups)]
      exact List.mem_singleton_self _

/-- Rows in another order tally alike. -/
theorem Tally.perm {rows' : List IndexEntry} (hperm : rows.Perm rows') {c : CountRow} (h : Tally g rows c) :
    Tally g rows' c := by
  have hcount (p : IndexEntry → Bool) : rows.countP p = rows'.countP p := hperm.countP_eq p
  cases h with
  | group e he =>
    simp only [hcount]
    exact Tally.group e (hperm.mem_iff.1 he)
  | review e he =>
    simp only [hcount]
    exact Tally.review e (hperm.mem_iff.1 he)
  | all e he =>
    have hlines := (List.perm_insertionSort (fun x y : String => x ≤ y) (rows.filterMap candidateExpiry)).trans
      ((hperm.filterMap candidateExpiry).trans
        (List.perm_insertionSort (fun x y : String => x ≤ y) (rows'.filterMap candidateExpiry)).symm)
    rw [hlines.eq_of_pairwise (fun _ _ _ _ => le_antisymm)
      (List.pairwise_insertionSort _ _) (List.pairwise_insertionSort _ _), hcount, hperm.length_eq]
    exact Tally.all e (hperm.mem_iff.1 he)

theorem tally_perm_iff {rows' : List IndexEntry} (hperm : rows.Perm rows') {c : CountRow} :
    Tally g rows c ↔ Tally g rows' c := ⟨Tally.perm hperm, Tally.perm hperm.symm⟩

end

/-! ## Sparse publications -/

/-- A sparse publication that is current counts the active rows. -/
def PatchedTally (w : World) : Prop :=
  ∀ r ∈ w.state.generations, r.state = .current → r.manifest.contractVersion = .delta →
    w.state.counts.rows.filter (fun c => c.generation = r.id) =
      newsProjectionCounts r.id (w.state.activeRows.map (·.entry))

theorem patchedTally_land [Platform] {b : Batch} {w w' : World} (htimely : Timely w b) (horderly : Orderly w)
    (hw : PatchedTally w) (h : land Batch.exec b w = some w') : PatchedTally w' := by
  obtain ⟨hexec, -⟩ := land_eq_some h
  intro r hr hcurrent hcontract
  cases b with
  | deleteGeneration g =>
    have hstate := Option.some.inj hexec
    rw [← hstate] at hr ⊢
    obtain ⟨hr, hid⟩ := (@Store.mem_generations_cleanup _ [g] _).1 hr
    rw [Store.activeRows_deleteGeneration, ← hw r hr hcurrent hcontract]
    exact @Store.counts_cleanup _ [g] _ hid
  | openGeneration cleanup m now =>
    rcases (Store.mem_generations_open hexec).1 hr with ⟨hr, hid⟩ | rfl
    · have hrows := Store.activeRows_open hexec
      obtain ⟨_, -, hstate⟩ := Option.map_eq_some_iff.1 hexec
      rw [hrows, ← hw r hr hcurrent hcontract, ← hstate]
      exact Store.counts_cleanup hid
    · cases hcurrent
  | stage g kind offset items payloadHash receiptDigest identityDigest rows now =>
    have hrows := Store.activeRows_stage hexec
    obtain ⟨_, _, -, -, hstate⟩ := Store.stage_eq_some hexec
    rw [hrows]
    rw [hstate] at hr ⊢
    exact hw r hr hcurrent hcontract
  | activate m progress counted now =>
    obtain ⟨⟨r₀, hr₀, rfl, hstaging⟩, -⟩ := htimely
    obtain ⟨r₁, hr₁, rfl⟩ := (Store.mem_generations_activate hexec).1 hr
    obtain rfl := w.state.generations.eq_of_key_eq hr₁ hr₀ (Store.current_afterActivation hcurrent)
    rw [Store.manifest_afterActivation, horderly.sound.contract r₁ hr₀ hstaging] at hcontract
    cases hcontract
  | verify g missing violations current now =>
    have hstate := Option.some.inj hexec
    rw [← hstate] at hr ⊢
    obtain ⟨r₀, hr₀, rfl⟩ := Store.mem_generations_verify.1 hr
    have htouch : (if r₀.id = g then r₀.touch now else r₀).state = r₀.state ∧
        (if r₀.id = g then r₀.touch now else r₀).manifest = r₀.manifest := by
      split <;> exact ⟨rfl, rfl⟩
    have hid : (if r₀.id = g then r₀.touch now else r₀).id = r₀.id := congrArg Manifest.generationId htouch.2
    rw [hid]
    exact hw r₀ hr₀ (htouch.1 ▸ hcurrent) (htouch.2 ▸ hcontract)
  | delta d serialized now =>
    have hpatched := Store.applyDelta_eq_some hexec
    rcases (Store.mem_generations_patched hpatched).1 hr with ⟨r₀, hr₀, -, rfl⟩ | rfl
    · split at hcurrent
      · cases hcurrent
      · next hne => exact absurd hcurrent hne
    · show w'.state.counts.rows.filter (fun c => c.generation = d.computed) = _
      have hactive : w'.state.activeRows = (w.state.patched d w'.state.details now).activeRows := by
        rw [Store.activeRows, Store.activeRows, hpatched.index]
        rfl
      rw [hactive, Table.rows_insertAll hpatched.counts, List.filter_append, List.filter_eq_nil_iff.2,
        List.nil_append, List.filter_eq_self.2]
      · rfl
      · exact fun c hc => decide_eq_true (generation_of_counts hc)
      · -- a row that is left belongs to a generation that is left, which has another id
        intro c hc hgen
        obtain ⟨hc, hspent⟩ := Table.mem_delete.1 hc
        obtain ⟨r, hr, hid, -⟩ := horderly.replayed.counts c hc
        have hleft : r ∈ w.state.generations.delete fun g => g.id ∈ w.state.spentIds d := by
          refine Table.mem_delete.2 ⟨hr, ?_⟩
          rw [hid]
          exact hspent
        have hnew := (Table.new_of_insertAll hpatched.generations).2 _
          ((Table.mem_update (Generation.id_supersede now)).2 ⟨r, hleft, rfl⟩) _ (List.mem_singleton_self _)
        refine hnew ?_
        have hsame : (if decide (r.state = .current) = true then r.supersede now else r).id = r.id := by
          split <;> rfl
        rw [hsame, hid]
        exact of_decide_eq_true hgen

/-! ## Exact counts -/

/-- The rows of a generation tally with the active rows. The candidates of the
    summary that expire at given instants are counted at every millisecond. -/
structure CountsExact (s : Store) (g : String) : Prop where
  rows : ∀ c, c ∈ s.counts ∧ c.generation = g ↔ Tally g (s.activeRows.map (·.entry)) c
  candidates : ∀ expiry : IndexEntry → ℤ,
    (∀ r ∈ s.activeRows, r.entry.modelCandidate = true →
      IsoTime.InRange (expiry r.entry) ∧ r.entry.impactExpiresAt = .str (IsoTime.iso (expiry r.entry))) →
    ∀ c ∈ s.counts, c.generation = g → c.review = .all →
    ∀ millis, IsoTime.InRange (1000 * millis) →
      activeCandidateCount (serializedExpiries c.candidateExpiries) (IsoTime.isoMillis (1000 * millis)) =
        .ok (s.activeRows.countP fun r => r.entry.modelCandidate && decide (1000 * millis < expiry r.entry))

theorem iso_le {t u : ℤ} (ht : IsoTime.InRange t) (hu : IsoTime.InRange u) (h : t ≤ u) :
    IsoTime.iso t ≤ IsoTime.iso u := by
  rcases h.lt_or_eq with h | rfl
  · exact (IsoTime.iso_lt ht.1 hu h).le
  · exact le_rfl

/-- The expiries of the candidates, as instants. -/
theorem candidateExpiries_eq {rows : List IndexEntry} {expiry : IndexEntry → ℤ}
    (h : ∀ e ∈ rows, e.modelCandidate = true →
      IsoTime.InRange (expiry e) ∧ e.impactExpiresAt = .str (IsoTime.iso (expiry e))) :
    rows.filterMap candidateExpiry =
      ((rows.filter (·.modelCandidate)).map expiry).map IsoTime.iso := by
  induction rows with
  | nil => rfl
  | cons e rows ih =>
    obtain ⟨he, hrows⟩ := List.forall_mem_cons.1 h
    rw [List.filterMap_cons]
    cases hcandidate : e.modelCandidate with
    | true =>
      have hexpiry : candidateExpiry e = some (IsoTime.iso (expiry e)) := by
        rw [candidateExpiry, (he hcandidate).2]
        exact if_pos hcandidate
      rw [hexpiry, List.filter_cons_of_pos hcandidate, ih hrows]
      rfl
    | false =>
      have hexpiry : candidateExpiry e = none := by
        unfold candidateExpiry
        split
        · exact if_neg (by simp [hcandidate])
        · rfl
      rw [hexpiry, List.filter_cons_of_neg (by simp [hcandidate]), ih hrows]

/-- Rows that tally with the active rows count their candidates exactly. -/
theorem candidates_of_rows {s : Store} {g : String}
    (hrows : ∀ c, c ∈ s.counts ∧ c.generation = g ↔ Tally g (s.activeRows.map (·.entry)) c) : CountsExact s g := by
  refine ⟨hrows, fun expiry hexpiry c hc hgen hall millis hnow => ?_⟩
  have hentries : ∀ e ∈ s.activeRows.map (·.entry), e.modelCandidate = true →
      IsoTime.InRange (expiry e) ∧ e.impactExpiresAt = .str (IsoTime.iso (expiry e)) := by
    intro e he
    obtain ⟨r, hr, rfl⟩ := List.mem_map.1 he
    exact hexpiry r hr
  set times := ((s.activeRows.map (·.entry)).filter (·.modelCandidate)).map expiry with htimes
  have hrange : ∀ t ∈ times.insertionSort (· ≤ ·), IsoTime.InRange t := by
    intro t ht
    obtain ⟨e, he, rfl⟩ := List.mem_map.1 ((List.mem_insertionSort _).1 ht)
    exact (hentries e (List.mem_of_mem_filter he) (List.of_mem_filter he)).1
  have hsorted : ((times.insertionSort (· ≤ ·)).map IsoTime.iso).Pairwise (· ≤ ·) := by
    refine List.pairwise_map.2 ((List.pairwise_insertionSort (· ≤ ·) times).imp_of_mem fun ht hu hle => ?_)
    exact iso_le (hrange _ ht) (hrange _ hu) hle
  have hlines : c.candidateExpiries = (times.insertionSort (· ≤ ·)).map IsoTime.iso := by
    have htally := (hrows c).1 ⟨hc, hgen⟩
    cases htally with
    | group e he => exact absurd hall (reviewStateOf_ne_all _)
    | review e he => exact absurd hall (reviewStateOf_ne_all _)
    | all e he =>
      show ((s.activeRows.map (·.entry)).filterMap candidateExpiry).insertionSort (· ≤ ·) = _
      rw [candidateExpiries_eq hentries]
      refine List.Perm.eq_of_pairwise (fun _ _ _ _ => le_antisymm) (List.pairwise_insertionSort _ _) hsorted ?_
      exact (List.perm_insertionSort _ _).trans ((List.perm_insertionSort _ times).symm.map _)
  rw [hlines, activeCandidateCount_exact hsorted hrange hnow, (List.perm_insertionSort _ times).countP_eq,
    htimes, List.countP_map, List.countP_filter, List.countP_map]
  simp only [Function.comp_def, Bool.and_comm]

/-- Each key of some items is served by one row. -/
theorem Store.keys_perm {s : Store} {items : List Json}
    (h : ∀ key, s.activeAt key = (lastItem items key).map indexEntry) :
    (s.activeRows.map IndexRow.key).Perm (items.map itemKey).dedup := by
  refine (List.perm_ext_iff_of_nodup s.nodup_activeRows (List.nodup_dedup _)).2 fun key => ?_
  rw [List.mem_dedup, ← Store.key_mem_of_lastItem]
  constructor
  · intro hkey
    obtain ⟨r, hr, rfl⟩ := List.mem_map.1 hkey
    have hactive := Store.activeAt_of_mem hr
    rw [h, Option.map_eq_some_iff] at hactive
    obtain ⟨item, hitem, -⟩ := hactive
    rw [hitem]
    rfl
  · intro hkey
    obtain ⟨item, hitem⟩ := Option.isSome_iff_exists.1 hkey
    have hactive : s.activeAt key = some (indexEntry item) := by
      rw [h, hitem]
      rfl
    obtain ⟨r, hr, -, rfl⟩ := Store.exists_of_activeAt hactive
    exact List.mem_map_of_mem hr

theorem exact_of_filter {s : Store} {g : String} {rows : List IndexEntry}
    (hcounts : s.counts.rows.filter (fun c => c.generation = g) = newsProjectionCounts g rows) (c : CountRow) :
    c ∈ s.counts ∧ c.generation = g ↔ Tally g rows c := by
  rw [← mem_newsProjectionCounts, ← hcounts, List.mem_filter, decide_eq_true_eq]
  rfl

/-- A complete generation is counted exactly iff its items have different keys. -/
theorem countsExact_iff_nodup {w : World} (horderly : Orderly w) {r : Generation} (hw : Complete w r) :
    CountsExact w.state r.id ↔ ((stagedItems r.id .index w.log).map itemKey).Nodup := by
  have hserved : ∀ key, w.state.activeAt key =
      (lastItem (stagedItems r.id .index w.log) key).map indexEntry := fun key => by
    rw [horderly.served.archive, hw.archive]
  have hrows := exact_of_filter hw.counts
  constructor
  · intro hexact
    by_contra hnot
    have hne : stagedItems r.id .index w.log ≠ [] := by
      rintro hnil
      rw [hnil] at hnot
      exact hnot List.nodup_nil
    obtain ⟨item, hitem⟩ := List.exists_mem_of_ne_nil _ hne
    have hall := (hexact.rows _).1 ((hrows _).2 (Tally.all (indexEntry item) (List.mem_map_of_mem hitem)))
    have hlength : (stagedItems r.id .index w.log).length = w.state.activeRows.length := by
      generalize hc : CountRow.mk r.id .all "" _ _ _ = c at hall
      cases hall with
      | group e he => exact absurd (congrArg CountRow.review hc).symm (reviewStateOf_ne_all _)
      | review e he => exact absurd (congrArg CountRow.review hc).symm (reviewStateOf_ne_all _)
      | all e he => simpa using congrArg CountRow.itemCount hc
    have hkeys := (Store.keys_perm hserved).length_eq
    rw [List.length_map, ← hlength, ← List.length_map (f := itemKey)] at hkeys
    refine hnot ?_
    rw [← (List.dedup_sublist _).eq_of_length hkeys.symm]
    exact List.nodup_dedup _
  · intro hnodup
    refine candidates_of_rows fun c => ?_
    rw [hrows, tally_perm_iff (Store.perm_of_activeAt hnodup hserved).symm]

/-! ## Runs -/

/-- Requests one at a time keep what is served complete, and tallied. -/
theorem tallied_run [Platform] (requests : List Request) :
    Orderly (Machine.run serve World.empty requests) ∧
      ActiveComplete (Machine.run serve World.empty requests) ∧
      PatchedTally (Machine.run serve World.empty requests) :=
  serve_invariant (I := fun w => Orderly w ∧ ActiveComplete w ∧ PatchedTally w) (D := fun _ => True)
    (fun r _ => r.sends_formed) (fun r _ hw => r.commits_timely hw.1.sound)
    (fun _ _ _ hb htimely hw h => ⟨orderly_land hb htimely hw.1 h, complete_land hb htimely hw.1 hw.2.1 h,
      patchedTally_land htimely hw.1 hw.2.2 h⟩)
    ⟨orderly_empty, fun _ hr => absurd hr (Table.not_mem_empty _), fun _ hr => absurd hr (Table.not_mem_empty _)⟩
    fun _ _ => trivial

/-- **Counts that are exact.** Whatever requests were served, the stored counts
    of the generation that is served tally with its active rows, and its
    candidates are counted at every millisecond, if and only if it was published
    sparsely or its replay listed no key under two index items. -/
theorem counts_exact_iff [Platform] (requests : List Request) {st : StateRow}
    (hst : (Machine.run serve World.empty requests).state.state = some st) :
    CountsExact (Machine.run serve World.empty requests).state st.activeGenerationId ↔
      ∀ r ∈ (Machine.run serve World.empty requests).state.generations, r.id = st.activeGenerationId →
        r.manifest.contractVersion = .generation →
          ((stagedItems r.id .index (Machine.run serve World.empty requests).log).map itemKey).Nodup := by
  obtain ⟨horderly, hactive, hpatched⟩ := tallied_run requests
  obtain ⟨r, hr, hid, hcurrent, -⟩ := horderly.sound.active st hst
  rw [← hid]
  cases hcontract : r.manifest.contractVersion with
  | generation =>
    rw [countsExact_iff_nodup horderly (hactive r hr hcurrent hcontract)]
    refine ⟨fun h r' hr' hid' _ => ?_, fun h => h r hr rfl hcontract⟩
    rw [hid']
    exact h
  | delta =>
    refine ⟨fun _ r' hr' hid' hcontract' => ?_, fun _ => candidates_of_rows fun c => ?_⟩
    · rw [Table.eq_of_key_eq _ hr' hr hid', hcontract] at hcontract'
      cases hcontract'
    · exact exact_of_filter (hpatched r hr hcurrent hcontract) c

/-- The samples replayed and activated. -/
def sampleRun (bits : BitVec 64) (clusters : List String) : World :=
  Machine.run (@serve sampleDates) World.empty (sampleRequests bits clusters ++ [.activate firstId 0])

/-- What a sample leaves: its generation is served, with the items replayed. -/
theorem sampleRun_active {clusters : List String} (hne : clusters ≠ []) (hsize : clusters.length ≤ 4)
    (hnodup : clusters.Nodup) {bits : BitVec 64} (hbits : safeCount (.num bits) = some clusters.length) :
    ∃ st, (sampleRun bits clusters).state.state = some st ∧ st.activeGenerationId = firstId ∧
      stagedItems firstId .index (sampleRun bits clusters).log = clusters.map (sampleIndex firstId) := by
  obtain ⟨w', hserve, -, hindex, -⟩ := sample_activated hne hsize hnodup hbits
  have hrun : sampleRun bits clusters = w' := by
    rw [sampleRun, Machine.run_append, Machine.run_cons, hserve]
    rfl
  obtain ⟨st, hst, hid⟩ := @active_of_activated _ _ _ _ _ _ _ sampleDates hserve
  rw [hrun]
  exact ⟨st, hst, hid, hindex⟩

theorem counts_exact_sample : ∃ st, (sampleRun 0x3ff0000000000000 ["a"]).state.state = some st ∧
    CountsExact (sampleRun 0x3ff0000000000000 ["a"]).state st.activeGenerationId := by
  obtain ⟨st, hst, hid, hindex⟩ := @sampleRun_active ["a"] (by simp) (by simp) (by simp) 0x3ff0000000000000 (by decide)
  refine ⟨st, hst, (@counts_exact_iff sampleDates _ st hst).2 fun r _ hr _ => ?_⟩
  rw [hr, hid]
  show ((stagedItems firstId .index (sampleRun 0x3ff0000000000000 ["a"]).log).map itemKey).Nodup
  rw [hindex]
  simp

/-- **Two items under one key are counted twice**, and one row serves them. -/
theorem counts_not_exact_duplicate : ∃ st, (sampleRun 0x4000000000000000 ["a", "b"]).state.state = some st ∧
    ¬ CountsExact (sampleRun 0x4000000000000000 ["a", "b"]).state st.activeGenerationId := by
  obtain ⟨st, hst, hid, hindex⟩ := @sampleRun_active ["a", "b"] (by simp) (by simp) (by simp)
    0x4000000000000000 (by decide)
  have hreplay : ∀ r ∈ sampleRequests 0x4000000000000000 ["a", "b"] ++ [.activate firstId 0],
      r.isReplay = true := by
    intro r hr
    rcases List.mem_append.1 hr with hr | hr
    · exact sampleRequests_replay _ _ r hr
    · rw [List.mem_singleton.1 hr]
      rfl
  obtain ⟨horderly, hactive, hall⟩ := @replay_run sampleDates _ hreplay
  obtain ⟨r, hr, hrid, hcurrent, -⟩ := horderly.sound.active st hst
  refine ⟨st, hst, fun hexact => ?_⟩
  rw [← hrid] at hexact
  have hnodup := (countsExact_iff_nodup horderly (hactive r hr hcurrent (hall r hr))).1 hexact
  rw [hrid, hid] at hnodup
  have hkeys : ((stagedItems firstId .index (sampleRun 0x4000000000000000 ["a", "b"]).log).map itemKey).Nodup :=
    hnodup
  rw [hindex] at hkeys
  simp [itemKey, sampleIndex, Json.get, List.lookup] at hkeys

end Xauusd.Projection
