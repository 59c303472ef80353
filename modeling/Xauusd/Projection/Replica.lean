/-
  What is served right after an activation.

  * `Complete w r`: what an activation leaves of the generation that it
    publishes, and what every later request keeps of it while it is current;
  * `Replica w r`: the store serves exactly the generation;
  * `served_exactly_iff`: **after an activation that reports success, it does
    if and only if the generation's index items have different keys, each with
    a detail**.
-/
import Xauusd.Projection.Advance

namespace Xauusd.Projection

open Program

/-! ## Complete generations -/

structure Complete (w : World) (r : Generation) : Prop where
  totals : ∀ kind, total kind (stagedReceipts r.id w.log) = r.manifest.expected kind
  digest : chainDigest (stagedReceipts r.id w.log) = r.manifest.expectedReceiptDigest
  archive : ∀ key, archive w.log key = lastItem (stagedItems r.id .index w.log) key
  counts : w.state.counts.rows.filter (fun c => c.generation = r.id) =
    newsProjectionCounts r.id ((stagedItems r.id .index w.log).map indexEntry)
  details : ∀ item ∈ stagedItems r.id .detail w.log, (w.state.activeAt (itemKey item)).isSome = true →
    ∃ d ∈ w.state.details, d.Holds item

/-- The generation that is served is complete, if it was replayed. -/
def ActiveComplete (w : World) : Prop :=
  ∀ r ∈ w.state.generations, r.state = .current → r.manifest.contractVersion = .generation → Complete w r

section
variable {w w' : World}

theorem complete_of_same {r r' : Generation} (hw : Complete w r) (hmanifest : r'.manifest = r.manifest)
    (hstaged : staged r.id w'.log = staged r.id w.log) (harchive : ∀ key, archive w'.log key = archive w.log key)
    (hcounts : w'.state.counts.rows.filter (fun c => c.generation = r.id) =
      w.state.counts.rows.filter fun c => c.generation = r.id)
    (hserved : ∀ key, w'.state.activeAt key = w.state.activeAt key)
    (hdetails : ∀ d ∈ w.state.details, (w.state.activeAt d.detailKey).isSome = true → d ∈ w'.state.details) :
    Complete w' r' := by
  have hid : r'.id = r.id := congrArg Manifest.generationId hmanifest
  refine ⟨fun kind => ?_, ?_, fun key => ?_, ?_, fun item hitem hsome => ?_⟩
  · rw [stagedReceipts, hid, hstaged, hmanifest]
    exact hw.totals kind
  · rw [stagedReceipts, hid, hstaged, hmanifest]
    exact hw.digest
  · rw [harchive, stagedItems, hid, hstaged]
    exact hw.archive key
  · rw [hid, hcounts, stagedItems, hstaged]
    exact hw.counts
  · rw [stagedItems, hid, hstaged] at hitem
    rw [hserved] at hsome
    obtain ⟨d, hd, hholds⟩ := hw.details item hitem hsome
    exact ⟨d, hdetails d hd (by rw [hholds.key]; exact hsome), hholds⟩

/-- The counts of a generation that a cleanup does not take. -/
theorem Store.counts_cleanup {s : Store} {cleanup : List String} {g : String} (hg : g ∉ cleanup) :
    (cleanup.foldl Store.deleteGeneration s).counts.rows.filter (fun c => c.generation = g) =
      s.counts.rows.filter fun c => c.generation = g := by
  induction cleanup generalizing s with
  | nil => rfl
  | cons g' cleanup ih =>
    rw [List.foldl_cons, ih fun hmem => hg (List.mem_cons_of_mem _ hmem)]
    have hne : g ≠ g' := fun h => hg (h ▸ List.mem_cons_self)
    show (s.counts.rows.filter fun c => !decide (c.generation = g')).filter _ = _
    rw [List.filter_filter]
    refine List.filter_congr fun c _ => ?_
    by_cases hc : c.generation = g
    · simp [hc, hne]
    · simp [hc]

/-- **A timely batch keeps the served generation complete**, and an activation
    finds it so. -/
theorem complete_land [Platform] {b : Batch} (hb : b.Formed) (htimely : Timely w b) (horderly : Orderly w)
    (hw : ActiveComplete w) (h : land Batch.exec b w = some w') : ActiveComplete w' := by
  have hfresh := fresh_of_timely horderly.sound htimely
  have hkept := kept_land hfresh h
  have hdetails : ∀ d ∈ w.state.details, (w.state.activeAt d.detailKey).isSome = true →
      d ∈ w'.state.details := fun d hd hserved => hkept d hd (.inl hserved)
  obtain ⟨hexec, hlog⟩ := land_eq_some h
  intro r hr hcurrent hcontract
  cases b with
  | deleteGeneration g =>
    have hstate := Option.some.inj hexec
    rw [← hstate] at hr
    obtain ⟨hr, hid⟩ := (@Store.mem_generations_cleanup _ [g] _).1 hr
    refine complete_of_same (hw r hr hcurrent hcontract) rfl ?_ (fun key => ?_) ?_ ?_ hdetails
    · rw [hlog, staged, if_neg fun h => hid (List.mem_singleton.2 h.symm)]
    · rw [hlog]
      rfl
    · rw [← hstate]
      exact @Store.counts_cleanup _ [g] _ hid
    · rw [← hstate]
      exact Store.activeAt_congr (Store.activeRows_deleteGeneration w.state g)
  | openGeneration cleanup m now =>
    rcases (Store.mem_generations_open hexec).1 hr with ⟨hr, hid⟩ | rfl
    · have hrows := Store.activeRows_open hexec
      obtain ⟨_, -, hstate⟩ := Option.map_eq_some_iff.1 hexec
      refine complete_of_same (hw r hr hcurrent hcontract) rfl ?_ (fun key => ?_) ?_ (Store.activeAt_congr hrows)
        hdetails
      · rw [hlog, staged, if_neg hid]
      · rw [hlog]
        rfl
      · rw [← hstate]
        exact Store.counts_cleanup hid
    · cases hcurrent
  | stage g kind offset items payloadHash receiptDigest identityDigest rows now =>
    obtain ⟨⟨r₀, hr₀, rfl, hstaging, -⟩, -⟩ := htimely
    have hrows := Store.activeRows_stage hexec
    obtain ⟨_, _, -, -, hstate⟩ := Store.stage_eq_some hexec
    rw [hstate] at hr
    refine complete_of_same (hw r hr hcurrent hcontract) rfl ?_ (fun key => ?_) ?_ (Store.activeAt_congr hrows)
      hdetails
    · rw [hlog, staged, if_neg]
      intro hid
      rw [w.state.generations.eq_of_key_eq hr₀ hr hid, hcurrent] at hstaging
      cases hstaging
    · rw [hlog]
      rfl
    · rw [hstate]
  | activate m progress counted now =>
    obtain ⟨⟨r₀, hr₀, rfl, hstaging⟩, rfl, rfl, hcomplete⟩ := htimely
    obtain ⟨r₁, hr₁, rfl⟩ := (Store.mem_generations_activate hexec).1 hr
    obtain rfl := w.state.generations.eq_of_key_eq hr₁ hr₀ (Store.current_afterActivation hcurrent)
    have hcontract₀ := horderly.sound.contract r₁ hr₀ hstaging
    have hchain := horderly.replayed.chain r₁ hr₀ hcontract₀
    have hitems := receiptItems_staged horderly hr₀ hcontract₀
    obtain ⟨htotal, hdigest, -⟩ :=
      progress_eq (l := stagedReceipts r₁.id w.log) (horderly.recorded r₁.id) hchain
    simp only [complete, Bool.and_eq_true, decide_eq_true_eq] at hcomplete
    obtain ⟨⟨⟨⟨⟨⟨⟨hdetail, hindex⟩, -⟩, -⟩, -⟩, -⟩, -⟩, hreceipt⟩ := hcomplete
    have hstaged : ∀ g, staged g w'.log = staged g w.log := fun g => by
      rw [hlog]
      rfl
    refine ⟨fun kind => ?_, ?_, fun key => ?_, ?_, fun item hitem _ => ?_⟩
    all_goals simp only [Store.id_afterActivation, Store.manifest_afterActivation, stagedReceipts, stagedItems,
      hstaged] at *
    · cases kind
      · exact (htotal .detail).symm.trans hdetail
      · exact (htotal .index).symm.trans hindex
    · exact hdigest.symm.trans hreceipt
    · rw [hlog]
      exact congrArg (lastItem · key) hitems
    · obtain ⟨counts, hcounts, hstate⟩ := Option.map_eq_some_iff.1 hexec
      rw [← hstate]
      show counts.rows.filter _ = _
      rw [Table.rows_insertAll hcounts, List.filter_append, List.filter_eq_nil_iff.2, List.nil_append,
        List.filter_eq_self.2]
      · exact congrArg (fun items => newsProjectionCounts r₁.id (items.map indexEntry)) hitems
      · exact fun c hc => decide_eq_true (generation_of_counts hc)
      · intro c hc hgen
        obtain ⟨r, hr, hid, hne⟩ := horderly.replayed.counts c hc
        obtain rfl := w.state.generations.eq_of_key_eq hr hr₀ (hid.trans (by simpa using hgen))
        exact hne hstaging
    · obtain ⟨b, hb, hkind, hitem⟩ := mem_stagedItems.1 hitem
      obtain ⟨d, hd, hholds⟩ := horderly.replayed.details r₁ hr₀ hstaging b hb hkind item hitem
      obtain ⟨_, -, hstate⟩ := Option.map_eq_some_iff.1 hexec
      exact ⟨d, hstate ▸ hd, hholds⟩
  | verify g missing violations current now =>
    have hstate := Option.some.inj hexec
    rw [← hstate] at hr
    obtain ⟨r₀, hr₀, rfl⟩ := Store.mem_generations_verify.1 hr
    have htouch : (if r₀.id = g then r₀.touch now else r₀).state = r₀.state ∧
        (if r₀.id = g then r₀.touch now else r₀).manifest = r₀.manifest := by
      split <;> exact ⟨rfl, rfl⟩
    refine complete_of_same (hw r₀ hr₀ (htouch.1 ▸ hcurrent) (htouch.2 ▸ hcontract)) htouch.2 ?_
      (fun key => ?_) ?_ (fun key => ?_) hdetails
    · rw [hlog]
      rfl
    · rw [hlog]
      rfl
    · rw [← hstate]
      rfl
    · rw [← hstate]
      rfl
  | delta d serialized now =>
    rcases (Store.mem_generations_patched (Store.applyDelta_eq_some hexec)).1 hr with ⟨r₀, hr₀, -, rfl⟩ | rfl
    · split at hcurrent
      · cases hcurrent
      · next hne => exact absurd hcurrent hne
    · cases hcontract

end

/-! ## Replicas -/

/-- The store serves exactly the generation of a row: its receipts tile what
    the manifest expects and fold to its digest, the served rows are its index
    items, one for one, and each has the detail that was staged for its key. -/
structure Replica (w : World) (r : Generation) : Prop where
  tiles : ∀ kind, Tiles 0 (w.state.receiptsOf r.id kind) (r.manifest.expected kind)
  digest : foldReceipts EMPTY_RECEIPT_DIGEST (w.state.receiptsOf r.id .detail ++ w.state.receiptsOf r.id .index) =
    r.manifest.expectedReceiptDigest
  rows : (w.state.activeRows.map (·.entry)).Perm ((stagedItems r.id .index w.log).map indexEntry)
  published : ∃ st, w.state.state = some st ∧ st.activeGenerationId = r.id ∧
    st.indexCount = w.state.activeRows.length
  counts : (((w.state.counts.rows.filter fun c => c.generation = r.id).filter
    fun c => c.review = .all).map (·.itemCount)).sum = w.state.activeRows.length
  details : ∀ row ∈ w.state.activeRows, ∃ d ∈ w.state.details, d.detailKey = row.key ∧
    (∃ item ∈ stagedItems r.id .detail w.log, itemKey item = row.key) ∧
    ∀ item ∈ stagedItems r.id .detail w.log, itemKey item = row.key → d.Holds item

theorem replica_iff {w : World} (horderly : Orderly w) {r : Generation} (hr : r ∈ w.state.generations)
    (hcontract : r.manifest.contractVersion = .generation) (hw : Complete w r)
    (hactive : ∃ st, w.state.state = some st ∧ st.activeGenerationId = r.id) :
    Replica w r ↔ ((stagedItems r.id .index w.log).map itemKey).Nodup ∧
      ∀ key ∈ (stagedItems r.id .index w.log).map itemKey,
        key ∈ (stagedItems r.id .detail w.log).map itemKey := by
  have haccepted := horderly.replayed.accepted r.id
  have hchain := horderly.replayed.chain r hr hcontract
  have hreceipts := Store.receiptsOf_eq (horderly.recorded r.id)
  constructor
  · intro h
    have hkeys := h.rows.map IndexEntry.detailKey
    rw [List.map_map, List.map_map] at hkeys
    refine ⟨hkeys.nodup w.state.nodup_activeRows, fun key hkey => ?_⟩
    obtain ⟨row, hrow, rfl⟩ := List.mem_map.1 (hkeys.mem_iff.2 hkey)
    obtain ⟨_, -, -, ⟨item, hitem, hkey⟩, -⟩ := h.details row hrow
    exact List.mem_map.2 ⟨item, hitem, hkey⟩
  · rintro ⟨hnodup, hdetails⟩
    have hserved : ∀ key, w.state.activeAt key =
        (lastItem (stagedItems r.id .index w.log) key).map indexEntry := fun key => by
      rw [horderly.served.archive, hw.archive]
    have hperm := Store.perm_of_activeAt hnodup hserved
    have hlength : (stagedItems r.id .index w.log).length = w.state.activeRows.length := by
      have hlength := hperm.length_eq
      rw [List.length_map, List.length_map] at hlength
      exact hlength.symm
    have hfold := chain_split hchain
    refine ⟨fun kind => ?_, ?_, hperm, ?_, ?_, fun row hrow => ?_⟩
    · rw [hreceipts, ← hw.totals kind]
      exact chain_tiles hchain kind
    · rw [hreceipts, hreceipts, ← hw.digest, ← chain_fold hchain]
      exact congrArg _ hfold.symm
    · obtain ⟨st, hst, hid⟩ := hactive
      obtain ⟨r', hr', hid', -, hcount⟩ := horderly.sound.active st hst
      obtain rfl := w.state.generations.eq_of_key_eq hr' hr (hid'.trans hid)
      refine ⟨st, hst, hid, ?_⟩
      rw [← hcount, ← hlength, ← total_staged haccepted, hw.totals]
      rfl
    · rw [hw.counts, sum_all_counts, List.length_map, hlength]
    · have hsome := Store.activeAt_of_mem hrow
      have hkey : row.key ∈ (stagedItems r.id .index w.log).map itemKey := by
        rw [hserved] at hsome
        obtain ⟨item, hitem, -⟩ := Option.map_eq_some_iff.1 hsome
        exact Store.key_mem_of_lastItem.1 (by rw [hitem]; rfl)
      obtain ⟨item, hitem, hitemKey⟩ := List.mem_map.1 (hdetails row.key hkey)
      have hholds : ∀ item ∈ stagedItems r.id .detail w.log, itemKey item = row.key →
          ∃ d ∈ w.state.details, d.Holds item := fun item hitem hkey =>
        hw.details item hitem (by rw [hkey, hsome]; rfl)
      obtain ⟨d, hd, hdholds⟩ := hholds item hitem hitemKey
      refine ⟨d, hd, hdholds.key.trans hitemKey, ⟨item, hitem, hitemKey⟩, fun item' hitem' hkey' => ?_⟩
      obtain ⟨d', hd', hd'holds⟩ := hholds item' hitem' hkey'
      rw [w.state.details.eq_of_key_eq hd hd'
        (hdholds.key.trans (hitemKey.trans (hkey'.symm.trans hd'holds.key.symm)))]
      exact hd'holds

/-! ## Runs -/

/-- Every generation is a replayed one. -/
def AllReplayed (w : World) : Prop := ∀ r ∈ w.state.generations, r.manifest.contractVersion = .generation

theorem allReplayed_land [Platform] {b : Batch} {w w' : World} (hb : b.Replays) (hw : AllReplayed w)
    (h : land Batch.exec b w = some w') : AllReplayed w' := by
  obtain ⟨hexec, -⟩ := land_eq_some h
  intro r hr
  cases b with
  | deleteGeneration g =>
    rw [← Option.some.inj hexec] at hr
    exact hw r ((@Store.mem_generations_cleanup _ [g] _).1 hr).1
  | openGeneration cleanup m now =>
    rcases (Store.mem_generations_open hexec).1 hr with ⟨hr, -⟩ | rfl
    · exact hw r hr
    · exact hb
  | stage g kind offset items payloadHash receiptDigest identityDigest rows now =>
    obtain ⟨_, _, -, -, hstate⟩ := Store.stage_eq_some hexec
    rw [hstate] at hr
    exact hw r hr
  | activate m progress counted now =>
    obtain ⟨r₀, hr₀, rfl⟩ := (Store.mem_generations_activate hexec).1 hr
    rw [Store.manifest_afterActivation]
    exact hw r₀ hr₀
  | verify g missing violations current now =>
    rw [← Option.some.inj hexec] at hr
    obtain ⟨r₀, hr₀, rfl⟩ := Store.mem_generations_verify.1 hr
    split <;> exact hw r₀ hr₀
  | delta d serialized now => cases hb

/-- **Replay requests one at a time** keep the store orderly, and what is
    served complete. -/
theorem replay_run [Platform] {requests : List Request} (hreplay : ∀ r ∈ requests, r.isReplay = true) :
    Orderly (Machine.run serve World.empty requests) ∧
      ActiveComplete (Machine.run serve World.empty requests) ∧
      AllReplayed (Machine.run serve World.empty requests) :=
  serve_invariant (I := fun w => Orderly w ∧ ActiveComplete w ∧ AllReplayed w)
    (fun _ => Request.sends_replays) (fun r _ hw => r.commits_timely hw.1.sound)
    (fun _ _ _ hb htimely hw h => ⟨orderly_land (Batch.formed_of_replays hb) htimely hw.1 h,
      complete_land (Batch.formed_of_replays hb) htimely hw.1 hw.2.1 h, allReplayed_land hb hw.2.2 h⟩)
    ⟨orderly_empty, fun _ hr => absurd hr (Table.not_mem_empty _), fun _ hr => absurd hr (Table.not_mem_empty _)⟩ hreplay

/-- An activation that reports success leaves its generation active. -/
theorem active_of_activated {w w' : World} {g : String} {now : ℤ} {unchanged : Bool} {i d : ℕ} [Platform]
    (h : serve w (.activate g now) = (.activated g unchanged i d, w')) :
    ∃ st, w'.state.state = some st ∧ st.activeGenerationId = g := by
  change (activateNewsProjection g now).run Batch.exec w = _ at h
  unfold activateNewsProjection at h
  split at h
  · simp at h
  · rw [run_read] at h
    split at h
    · next st hst =>
      obtain ⟨hst, hid⟩ := Option.filter_eq_some_iff.1 hst
      obtain ⟨-, rfl⟩ := Prod.mk.inj h
      simp only [decide_eq_true_eq] at hid
      exact ⟨st, hst, hid.1⟩
    · rw [run_read] at h
      split at h
      · simp at h
      · next row hrow =>
        obtain ⟨-, rfl⟩ := Table.find?_eq_some_iff.1 hrow
        split at h
        · simp at h
        · rw [run_read, run_read] at h
          dsimp only at h
          split at h
          · simp at h
          · rw [run] at h
            split at h
            · next w₁ hland =>
              obtain ⟨-, rfl⟩ := Prod.mk.inj h
              obtain ⟨_, -, hstate⟩ := Option.map_eq_some_iff.1 (land_eq_some hland).1
              exact ⟨_, congrArg Store.state hstate.symm, rfl⟩
            · simp at h

/-- **After an activation that reports success the store serves exactly the
    generation, if and only if its index items have different keys, each with a
    detail of the generation.** -/
theorem served_exactly_iff [Platform] {requests : List Request} (hreplay : ∀ r ∈ requests, r.isReplay = true)
    {g : String} {now : ℤ} {unchanged : Bool} {i d : ℕ} {w' : World}
    (h : serve (Machine.run serve World.empty requests) (.activate g now) = (.activated g unchanged i d, w')) :
    ∃ r ∈ w'.state.generations, r.id = g ∧ r.state = .current ∧
      (Replica w' r ↔ ((stagedItems g .index w'.log).map itemKey).Nodup ∧
        ∀ key ∈ (stagedItems g .index w'.log).map itemKey, key ∈ (stagedItems g .detail w'.log).map itemKey) := by
  have hrequests : ∀ r ∈ requests ++ [.activate g now], r.isReplay = true := by
    intro r hr
    rcases List.mem_append.1 hr with hr | hr
    · exact hreplay r hr
    · rw [List.mem_singleton.1 hr]
      rfl
  have hrun := replay_run hrequests
  rw [Machine.run_append, Machine.run_cons, h] at hrun
  obtain ⟨horderly, hactive, hall⟩ := hrun
  obtain ⟨st, hst, hid⟩ := active_of_activated h
  obtain ⟨r, hr, hrid, hcurrent, -⟩ := horderly.sound.active st hst
  obtain rfl := hrid.trans hid
  exact ⟨r, hr, rfl, hcurrent, replica_iff horderly hr (hall r hr) (hactive r hr hcurrent (hall r hr)) ⟨st, hst, hid⟩⟩

/-! ## Samples -/

def sampleDetail (key : String) : Json :=
  .obj [("detail_key", .str key), ("detail_hash", .str key), ("payload", .obj [])]

def sampleIndex (key cluster : String) : Json :=
  .obj [("detail_key", .str key), ("category", .str "其他"), ("cluster_id", .str cluster),
    ("collector_first_seen_time", .str "2026-01-01"), ("mirror_contract", .str "v4"),
    ("annotation_status", .str "QUEUED"), ("model_visibility", .str "NOT_YET_PARSED")]

def sampleManifest (count : BitVec 64) (digest : String) : Json :=
  .obj [("generation_id", .str firstId), ("snapshot_id", .str firstId),
    ("contract_version", .str NEWS_PROJECTION_CONTRACT_VERSION), ("window_start", .str "2026-01-01"),
    ("watermark", .str "2026-01-02"), ("expected_index_count", .num count), ("expected_detail_count", .num count),
    ("withdrawal_count", .num 0), ("source_digest", .str firstId), ("expected_receipt_digest", .str digest)]

/-- What the manifest of a sample says. -/
def sampleGeneration (count : ℕ) (digest : String) : Manifest :=
  { generationId := firstId, snapshotId := firstId, contractVersion := .generation, windowStart := "2026-01-01"
    watermark := "2026-01-02", expectedIndexCount := count, expectedDetailCount := count, withdrawalCount := 0
    sourceDigest := firstId, expectedReceiptDigest := digest }

theorem isSha256Hex_firstId : Text.isSha256Hex firstId = true := by decide

theorem validate_sampleManifest {bits : BitVec 64} {count : ℕ} (hcount : safeCount (.num bits) = some count)
    {digest : String} (hdigest : Text.isSha256Hex digest = true) :
    @validateNewsProjectionManifest sampleDates (sampleManifest bits digest) =
      some (sampleGeneration count digest) := by
  have hdates : Text.utf16Less "2026-01-02" "2026-01-01" = false := by decide
  have hzero : safeCount (.num 0#64) = some 0 := by decide
  simp [validateNewsProjectionManifest, sampleManifest, sampleGeneration, Json.get, List.lookup, hcount, hzero,
    isDigest, isSha256Hex_firstId, hdigest, isDate, textOf, hdates, dateParses]

def sampleDetailBatch : SourceBatch :=
  ⟨.detail, [sampleDetail firstId], by simp [Json.WF, Json.wfItems, Json.wfMembers, sampleDetail]⟩

def sampleIndexBatch (clusters : List String) : SourceBatch :=
  ⟨.index, clusters.map (sampleIndex firstId), by
    rw [Json.WF, Json.wfItems_iff]
    rintro _ hitem
    obtain ⟨cluster, -, rfl⟩ := List.mem_map.1 hitem
    simp [Json.WF, Json.wfMembers, sampleIndex]⟩

/-- A detail in a batch of its own for every cluster, all under one key, and the
    clusters in one batch. -/
def sampleBatches (clusters : List String) : List SourceBatch :=
  clusters.map (fun _ => sampleDetailBatch) ++ [sampleIndexBatch clusters]

def sampleDigest (clusters : List String) : String := sentDigest ((sampleBatches clusters).map (·.sent)).reverse

theorem sampleBatches_items (clusters : List String) :
    ((sampleBatches clusters).filter fun b => b.kind = .detail).flatMap (·.items) =
        clusters.map (fun _ => sampleDetail firstId) ∧
      ((sampleBatches clusters).filter fun b => b.kind = .index).flatMap (·.items) =
        clusters.map (sampleIndex firstId) := by
  have hdetail : sampleDetailBatch.kind = .detail ∧ sampleDetailBatch.items = [sampleDetail firstId] := ⟨rfl, rfl⟩
  have hindex : (sampleIndexBatch clusters).kind = .index ∧
      (sampleIndexBatch clusters).items = clusters.map (sampleIndex firstId) := ⟨rfl, rfl⟩
  rw [sampleBatches]
  generalize sampleIndexBatch clusters = b at hindex
  generalize clusters.map (sampleIndex firstId) = items at hindex ⊢
  constructor
  · induction clusters with
    | nil => simp [hindex]
    | cons cluster clusters ih => simpa [hdetail] using ih
  · induction clusters with
    | nil => simp [hindex]
    | cons cluster clusters ih => simpa [hdetail] using ih

theorem sampleBatches_fit (clusters : List String) (digest : String) :
    Fits (sampleGeneration clusters.length digest) 0 0 (sampleBatches clusters) := by
  have hfit : ∀ (l : List String) (d : ℕ), d + l.length = clusters.length →
      Fits (sampleGeneration clusters.length digest) d 0
        (l.map (fun _ => sampleDetailBatch) ++ [sampleIndexBatch clusters]) := by
    intro l
    induction l with
    | nil => exact fun d hd => ⟨hd, by simp [sampleIndexBatch, sampleGeneration], trivial⟩
    | cons cluster l ih =>
      intro d hd
      rw [List.length_cons] at hd
      exact ⟨show d + 1 ≤ clusters.length by omega, ih (d + 1) (by omega)⟩
  exact hfit clusters 0 (Nat.zero_add _)

def sampleRequests (bits : BitVec 64) (clusters : List String) : List Request :=
  .prepare (sampleManifest bits (sampleDigest clusters)) 0 ::
    stageRequests firstId (fun _ _ => 0) 0 0 (sampleBatches clusters)

theorem sample_activated {clusters : List String} (hne : clusters ≠ []) (hsize : clusters.length ≤ 4)
    (hnodup : clusters.Nodup) {bits : BitVec 64} (hbits : safeCount (.num bits) = some clusters.length) :
    ∃ w', @serve sampleDates (Machine.run (@serve sampleDates) World.empty (sampleRequests bits clusters))
        (.activate firstId 0) = (.activated firstId false clusters.length clusters.length, w') ∧
      (∃ r ∈ w'.state.generations, r.id = firstId) ∧ stagedItems firstId .index w'.log = clusters.map (sampleIndex firstId) ∧
      stagedItems firstId .detail w'.log = clusters.map fun _ => sampleDetail firstId := by
  obtain ⟨hdetails, hindexes⟩ := sampleBatches_items clusters
  have hdigest : Text.isSha256Hex (sampleDigest clusters) = true := by
    rw [sampleDigest, sampleBatches, List.map_append, List.reverse_append]
    exact isSha256Hex_sha256 _
  have hdetail : ∀ item ∈ detailItems (sampleBatches clusters), item = sampleDetail firstId := by
    intro item hitem
    rw [detailItems, hdetails] at hitem
    obtain ⟨_, -, rfl⟩ := List.mem_map.1 hitem
    rfl
  have hvalid : validDetail (sampleDetail firstId) = true := by
    simp [validDetail, sampleDetail, Json.get, List.lookup, isDigest, isSha256Hex_firstId, isContainer]
  have hindex : ∀ cluster, validIndex (sampleIndex firstId cluster) = true ∧
      reviewViolation (indexEntry (sampleIndex firstId cluster)) = false := by
    intro cluster
    have hcontract : isContract (.str "v4") = true := by decide
    constructor
    · simp [validIndex, sampleIndex, Json.get, List.lookup, isDigest, isSha256Hex_firstId, isStr, textOf, hcontract,
        NEWS_PROJECTION_CATEGORIES]
    · simp [reviewViolation, reviewInvariant, indexEntry, sampleIndex, Json.get, List.lookup, textOf, sqlEq, sqlAnd,
        sqlOr, isStr, NEWS_PROJECTION_CATEGORIES, ALIGNED_UNPARSED_ANNOTATION_STATUSES]
  have hformed : ∀ b ∈ sampleBatches clusters, b.Formed := by
    intro b hb
    rcases List.mem_append.1 hb with hb | hb
    · obtain ⟨_, -, rfl⟩ := List.mem_map.1 hb
      refine ⟨by simp [sampleDetailBatch], by decide, ?_, ?_, fun _ => by simp [sampleDetailBatch]⟩
      · rintro item hitem
        rw [List.mem_singleton.1 hitem]
        exact hvalid
      · exact ⟨_, if_pos (by simp [sampleDetailBatch, sampleDetail, Json.finite, Json.finiteItems, Json.finiteMembers])⟩
    · rw [List.mem_singleton.1 hb]
      refine ⟨by simpa [sampleIndexBatch] using hne, ?_, ?_, ?_, fun hkind => by cases hkind⟩
      · rw [sampleIndexBatch, List.length_map]
        exact hsize
      · rintro item hitem
        obtain ⟨cluster, -, rfl⟩ := List.mem_map.1 hitem
        exact (hindex cluster).1
      · refine ⟨_, if_pos (Json.finiteItems_iff.2 fun item hitem => ?_)⟩
        obtain ⟨cluster, -, rfl⟩ := List.mem_map.1 hitem
        simp [sampleIndex, Json.finite, Json.finiteMembers]
  obtain ⟨w', hserve, -, hsent, r, hr, hmanifest, -⟩ := @exists_full_replay sampleDates World.empty orderly_empty _ _
    (validate_sampleManifest hbits hdigest) isSha256Hex_firstId (fun _ hr => absurd hr (Table.not_mem_empty _))
    (fun _ hr => absurd hr (Table.not_mem_empty _)) (fun _ _ => 0) 0 0 (sampleBatches clusters) hformed
    (fun item hitem item' hitem' _ => (hdetail item hitem).trans (hdetail item' hitem').symm)
    (fun _ _ _ hd => absurd hd (Table.not_mem_empty _)) (sampleBatches_fit clusters _)
    { totals := fun kind => by cases kind <;> simp [sentItems_source, hdetails, hindexes, Manifest.expected, sampleGeneration]
      reviews := fun item hitem => by
        rw [sentItems_source, hindexes] at hitem
        obtain ⟨cluster, -, rfl⟩ := List.mem_map.1 hitem
        exact (hindex cluster).2
      clusters := by
        rw [sentItems_source, hindexes, List.map_map]
        simpa [Function.comp_def, indexEntry, sampleIndex, Json.get, List.lookup, textOf] using hnodup
      keys := by
        rw [sentItems_source, sentItems_source, hdetails, hindexes, List.map_map, List.map_map]
        simp [Function.comp_def, itemKey, sampleIndex, sampleDetail, Json.get, List.lookup, textOf]
      digest := rfl }
  refine ⟨w', hserve, ⟨r, hr, congrArg Manifest.generationId hmanifest⟩, ?_, ?_⟩
  · rw [stagedItems_eq]
    exact (congrArg _ hsent).trans ((sentItems_source _ _).trans hindexes)
  · rw [stagedItems_eq]
    exact (congrArg _ hsent).trans ((sentItems_source _ _).trans hdetails)

theorem sampleRequests_replay (bits : BitVec 64) (clusters : List String) :
    ∀ r ∈ sampleRequests bits clusters, r.isReplay = true := by
  have hstages : ∀ (bs : List SourceBatch) (d i : ℕ), ∀ r ∈ stageRequests firstId (fun _ _ => 0) d i bs,
      r.isReplay = true := by
    intro bs
    induction bs with
    | nil => exact fun _ _ _ hr => nomatch hr
    | cons b bs ih =>
      obtain ⟨kind, items, parsed⟩ := b
      intro d i r hr
      cases kind
      all_goals
        rcases List.mem_cons.1 hr with rfl | hr
        · rfl
        · exact ih _ _ r hr
  intro r hr
  rcases List.mem_cons.1 hr with rfl | hr
  · rfl
  · exact hstages _ _ _ r hr

/-- Replaying one item serves it. -/
theorem served_exactly_sample : ∃ w', ∃ r ∈ w'.state.generations, r.id = firstId ∧ r.state = .current ∧
    Replica w' r := by
  obtain ⟨w', hserve, -, hindex, hdetail⟩ := @sample_activated ["a"] (by simp) (by simp) (by simp)
    0x3ff0000000000000 (by decide)
  obtain ⟨r, hr, hid, hcurrent, hiff⟩ := @served_exactly_iff sampleDates
    (sampleRequests 0x3ff0000000000000 ["a"]) (sampleRequests_replay _ _) _ _ _ _ _ _ hserve
  refine ⟨w', r, hr, hid, hcurrent, hiff.2 ?_⟩
  rw [hindex, hdetail]
  simp [itemKey, sampleIndex, sampleDetail, Json.get, List.lookup]

/-- **Two items under one key are activated**, and one row serves them. -/
theorem duplicate_key_not_replica :
    (∀ r ∈ sampleRequests 0x4000000000000000 ["a", "b"], r.isReplay = true) ∧
    ∃ w', @serve sampleDates (Machine.run (@serve sampleDates) World.empty
        (sampleRequests 0x4000000000000000 ["a", "b"])) (.activate firstId 0) =
        (.activated firstId false 2 2, w') ∧ ∃ r ∈ w'.state.generations, r.id = firstId ∧ ¬ Replica w' r := by
  obtain ⟨w', hserve, ⟨r, hr, hid⟩, hindex, -⟩ := @sample_activated ["a", "b"] (by simp) (by simp)
    (by simp) 0x4000000000000000 (by decide)
  refine ⟨sampleRequests_replay _ _, w', hserve, r, hr, hid, fun hreplica => ?_⟩
  have hkeys := hreplica.rows.map IndexEntry.detailKey
  rw [List.map_map, List.map_map, hid, hindex] at hkeys
  have hnodup := hkeys.nodup w'.state.nodup_activeRows
  simp [itemKey, indexEntry, sampleIndex, Json.get, List.lookup] at hnodup

end Xauusd.Projection
