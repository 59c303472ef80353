/-
  The rows of the index that are served, as a map from keys to entries, and
  what every batch does to it.

  * `Store.activeAt key`: the served entry under a key;
  * `activeAt_activate`: an activation serves the items of the receipts, under
    each key the last one, and nothing else;
  * `activeAt_applyDelta`: a sparse patch changes its own keys only;
  * `Served w`: **the store serves the archive of the log**, and
    `served_land`.
-/
import Xauusd.Projection.Ledger

namespace Xauusd.Projection

/-! ## Payloads -/

theorem isObject_of_get {j : Json} {key : String} (h : j.get key ≠ .null) : j.isObject = true := by
  cases j with
  | obj members => rfl
  | _ => exact absurd rfl h

theorem isObject_of_validIndex {item : Json} (h : validIndex item = true) : item.isObject = true := by
  have hkey : item.get "detail_key" ≠ .null := by
    intro hnull
    simp [validIndex, hnull, isDigest] at h
  exact isObject_of_get hkey

theorem activeNews_supersede {e : IndexEntry} (h : e.payload.isObject = true) :
    activeNews e.supersede.payload = false := by
  have hstatus : e.supersede.payload.get "annotation_status" = .str "SUPERSEDED_CONTRACT" := by
    rw [IndexEntry.supersede, Json.get_set_ne (by decide), Json.get_set_ne (by decide), Json.get_set h]
  simp [activeNews, hstatus]

/-- The review invariant excludes a tombstone. -/
theorem activeNews_of_reviewViolation {e : IndexEntry} (h : reviewViolation e = false) :
    activeNews e.payload = true := by
  by_contra hactive
  have hstatus : e.payload.get "annotation_status" = .str "SUPERSEDED_CONTRACT" := by
    simpa [activeNews] using hactive
  have hinvariant : reviewInvariant e.payload = some false := by
    simp [reviewInvariant, hstatus, sqlEq, sqlAnd, sqlOr, textOf, ALIGNED_UNPARSED_ANNOTATION_STATUSES]
  simp [reviewViolation, hinvariant] at h

/-! ## The served entries -/

namespace Store

variable {s s' : Store}

def activeAt (s : Store) (key : String) : Option IndexEntry :=
  ((s.index.find? key).map (·.entry)).filter fun e => activeNews e.payload

/-- The payloads of the index are objects. -/
def Objects (s : Store) : Prop := ∀ r ∈ s.index, r.entry.payload.isObject = true

theorem mem_activeRows {r : IndexRow} :
    r ∈ s.activeRows ↔ r ∈ s.index ∧ activeNews r.entry.payload = true := List.mem_filter

theorem activeAt_of_mem {r : IndexRow} (hr : r ∈ s.activeRows) : s.activeAt r.key = some r.entry := by
  obtain ⟨hr, hactive⟩ := mem_activeRows.1 hr
  rw [activeAt, Table.find?_eq_some_iff.2 ⟨hr, rfl⟩]
  simp [hactive]

theorem exists_of_activeAt {key : String} {e : IndexEntry} (h : s.activeAt key = some e) :
    ∃ r ∈ s.activeRows, r.entry = e ∧ r.key = key := by
  rw [activeAt, Option.filter_eq_some_iff, Option.map_eq_some_iff] at h
  obtain ⟨⟨r, hr, rfl⟩, hactive⟩ := h
  obtain ⟨hr, hkey⟩ := Table.find?_eq_some_iff.1 hr
  exact ⟨r, mem_activeRows.2 ⟨hr, hactive⟩, rfl, hkey⟩

theorem nodup_activeRows (s : Store) : (s.activeRows.map IndexRow.key).Nodup :=
  (List.filter_sublist.map _).nodup s.index.nodup

/-! ## Deletions -/

theorem activeRows_deleteGeneration (s : Store) (g : String) :
    (s.deleteGeneration g).activeRows = s.activeRows := by
  show (s.index.rows.filter fun r => !!activeNews r.entry.payload).filter _ = _
  rw [List.filter_filter]
  exact List.filter_congr fun r _ => by simp

theorem activeAt_congr (h : s'.activeRows = s.activeRows) (key : String) : s'.activeAt key = s.activeAt key := by
  ext e
  refine ⟨fun he => ?_, fun he => ?_⟩
  · obtain ⟨r, hr, rfl, rfl⟩ := exists_of_activeAt he
    exact activeAt_of_mem (h ▸ hr)
  · obtain ⟨r, hr, rfl, rfl⟩ := exists_of_activeAt he
    exact activeAt_of_mem (h.symm ▸ hr)

theorem activeRows_cleanup (s : Store) (cleanup : List String) :
    (cleanup.foldl deleteGeneration s).activeRows = s.activeRows := by
  induction cleanup generalizing s with
  | nil => rfl
  | cons g cleanup ih => rw [List.foldl_cons, ih, activeRows_deleteGeneration]

theorem activeRows_open {cleanup : List String} {m : Manifest} {now : ℤ}
    (h : s.openGeneration cleanup m now = some s') : s'.activeRows = s.activeRows := by
  obtain ⟨_, -, rfl⟩ := Option.map_eq_some_iff.1 h
  exact activeRows_cleanup s cleanup

theorem activeRows_stage {rows : List DetailRow} {r : Receipt} (h : s.stage rows r = some s') :
    s'.activeRows = s.activeRows := by
  obtain ⟨details, receipts, -, -, rfl⟩ := stage_eq_some h
  rfl

/-! ## Publications -/

theorem find?_indexRows (items : List Json) (now : ℤ) (key : String) :
    (((items.map fun item => (⟨indexEntry item, now⟩ : IndexRow)).reverse.find?
      fun r => r.key = key).map (·.entry)) = (lastItem items key).map indexEntry := by
  rw [lastItem, ← List.map_reverse, List.find?_map, Option.map_map]
  rfl

theorem key_mem_of_lastItem {items : List Json} {key : String} :
    (lastItem items key).isSome = true ↔ key ∈ items.map itemKey := by
  rw [lastItem, List.find?_isSome, List.mem_map]
  simp

theorem lastItem_mem {items : List Json} {key : String} {item : Json} (h : lastItem items key = some item) :
    item ∈ items ∧ itemKey item = key :=
  ⟨List.mem_reverse.1 (List.mem_of_find?_eq_some h), by simpa using List.find?_some h⟩

theorem entry_overwrite (r r' : IndexRow) (h : r'.key = r.key) : (r.overwrite r').entry = r.entry := by
  unfold IndexRow.overwrite
  split
  · next heq => exact heq
  · exact congrArg (fun key => { r.entry with detailKey := key }) h

theorem entry_replace (r r' : IndexRow) (h : r'.key = r.key) : (r.replace r').entry = r.entry :=
  congrArg (fun key => { r.entry with detailKey := key }) h

/-- Supersede the served rows outside some keys: what a key finds. -/
theorem filter_superseded {t : Table IndexRow.key} (ht : ∀ r ∈ t, r.entry.payload.isObject = true)
    (keys : List String) (key : String) :
    (((t.update (fun r => activeNews r.entry.payload && decide (r.key ∉ keys)) IndexRow.supersede
      IndexRow.key_supersede).find? key).map (·.entry)).filter (fun e => activeNews e.payload) =
      if key ∈ keys then ((t.find? key).map (·.entry)).filter fun e => activeNews e.payload else none := by
  rw [Table.find?_update]
  cases hr : t.find? key with
  | none => simp
  | some r =>
    obtain ⟨hmem, hkey⟩ := Table.find?_eq_some_iff.1 hr
    by_cases hin : key ∈ keys
    · simp [hkey, hin]
    · by_cases hactive : activeNews r.entry.payload = true
      · simp [hkey, hin, hactive, IndexRow.supersede, activeNews_supersede (ht r hmem)]
      · simp [hin, hactive]

theorem objects_upsertAll {t : Table IndexRow.key} (ht : ∀ r ∈ t, r.entry.payload.isObject = true)
    {merge : IndexRow → IndexRow → IndexRow} (hm : ∀ r r', (merge r r').key = r'.key)
    (hentry : ∀ r r' : IndexRow, r'.key = r.key → (merge r r').entry = r.entry) {rows : List IndexRow}
    (hrows : ∀ r ∈ rows, r.entry.payload.isObject = true) :
    ∀ r ∈ t.upsertAll rows merge hm, r.entry.payload.isObject = true := by
  induction rows generalizing t with
  | nil => exact ht
  | cons r rows ih =>
    refine ih (Table.forall_upsert ht (hrows r List.mem_cons_self) fun r' _ hkey _ => ?_)
      fun r' hr' => hrows r' (List.mem_cons_of_mem _ hr')
    rw [hentry r r' hkey]
    exact hrows r List.mem_cons_self

/-- **An activation serves the items of the receipts**, under each key the last. -/
theorem activeAt_activate {m : Manifest} {p : Progress} {now : ℤ} (h : s.activate m p now = some s')
    (hobjects : s.Objects) (hitems : ∀ item ∈ s.receiptItems m.generationId, item.isObject = true)
    (hactive : ∀ item ∈ s.receiptItems m.generationId, activeNews item = true) (key : String) :
    s'.activeAt key = (lastItem (s.receiptItems m.generationId) key).map indexEntry := by
  obtain ⟨_, -, rfl⟩ := Option.map_eq_some_iff.1 h
  generalize s.receiptItems m.generationId = items at hitems hactive ⊢
  have hkeys : (items.map indexEntry).map (·.detailKey) = items.map itemKey := by
    rw [List.map_map]
    rfl
  have hrows : ∀ r ∈ (items.map indexEntry).map (fun e => (⟨e, now⟩ : IndexRow)),
      r.entry.payload.isObject = true := by
    intro r hr
    obtain ⟨e, he, rfl⟩ := List.mem_map.1 hr
    obtain ⟨item, hitem, rfl⟩ := List.mem_map.1 he
    exact hitems item hitem
  have hfind := @Table.find?_upsertAll _ _ _ _ s.index
    ((items.map indexEntry).map fun e => ⟨e, now⟩) _ _ IndexRow.key_overwrite
    (fun r => r.entry) entry_overwrite key
  refine (filter_superseded (objects_upsertAll hobjects IndexRow.key_overwrite entry_overwrite hrows)
    ((items.map indexEntry).map (·.detailKey)) key).trans ?_
  rw [hfind, hkeys, List.map_map]
  erw [find?_indexRows]
  cases hlast : lastItem items key with
  | some item =>
    obtain ⟨hmem, hkey⟩ := lastItem_mem hlast
    have hin : key ∈ items.map itemKey := hkey ▸ List.mem_map_of_mem hmem
    rw [if_pos hin, Option.map_some, Option.some_or, Option.filter_eq_some_iff]
    exact ⟨rfl, hactive item hmem⟩
  | none =>
    have hout : key ∉ items.map itemKey := by
      rw [← key_mem_of_lastItem, hlast]
      simp
    rw [if_neg hout, Option.map_none]

/-! ## Sparse patches -/

/-- The store with a patch's details and index rows. -/
def patched (s : Store) (d : Delta) (details : Table DetailRow.detailKey) (now : ℤ) : Store :=
  { s with details := details, index := patchIndex s.index d now }

def spentIds (s : Store) (d : Delta) : List String :=
  (s.generations.rows.filter (spentDelta d.baseGenerationId)).map (·.id)

/-- What a patch that takes effect found and did. -/
structure Patched [Platform] (s : Store) (d : Delta) (serialized : List Json) (now : ℤ) (s' : Store) :
    Prop where
  base : s.servesBase d = true
  removed : ∀ key ∈ d.removed, ∃ r ∈ s.activeRows, r.key = key
  details : (d.details.zip serialized).foldlM (insertDetail now) s.details = some s'.details
  membership : (s.patched d s'.details now).completeMembership d.source.expectedIndexCount = true
  counts : (s.counts.delete fun c => c.generation ∈ s.spentIds d).insertAll
    (newsProjectionCounts d.computed ((s.patched d s'.details now).activeRows.map (·.entry))) = some s'.counts
  generations : ((s.generations.delete fun g => g.id ∈ s.spentIds d).update (fun g => g.state = .current)
    (Generation.supersede now) (Generation.id_supersede now)).insertAll
      [⟨d.manifest, .current, now, some now⟩] = some s'.generations
  index : s'.index = patchIndex s.index d now
  receipts : s'.receipts = s.receipts
  state : s'.state = some
    { activeGenerationId := d.computed, snapshotId := d.source.snapshotId, contractVersion := .delta
      sourceDigest := d.source.sourceDigest, receiptDigest := d.computed
      indexCount := d.source.expectedIndexCount, detailCount := d.source.expectedDetailCount
      missingDetailCount := 0, invariantViolationCount := 0, projectionState := .current
      activatedAt := now, verifiedAt := now }

theorem applyDelta_eq_some [Platform] {d : Delta} {serialized : List Json} {now : ℤ}
    (h : s.applyDelta d serialized now = some s') : s.Patched d serialized now s' := by
  simp only [applyDelta, Option.bind_eq_bind, Option.bind_eq_some_iff, Option.guard_eq_some'] at h
  obtain ⟨-, hbase, -, hremoved, details, hdetails, -, hmembership, counts, hcounts, generations,
    hgenerations, h⟩ := h
  cases h
  refine
    { base := hbase, removed := fun key hkey => ?_, details := hdetails, membership := hmembership
      counts := hcounts, generations := hgenerations, index := rfl, receipts := rfl, state := rfl }
  simpa using List.all_eq_true.1 hremoved key hkey

theorem activeAt_patchIndex {s' : Store} {d : Delta} {now : ℤ} (hindex : s'.index = patchIndex s.index d now)
    (hobjects : s.Objects) (key : String) :
    s'.activeAt key = match lastItem d.indexes key with
      | some item => if activeNews item then some (indexEntry item) else none
      | none => if key ∈ d.removed then none else s.activeAt key := by
  have hfind := @Table.find?_upsertAll _ _ _ _
    (s.index.update (fun r => r.key ∈ d.removed) IndexRow.supersede IndexRow.key_supersede)
    (d.indexes.map fun item => ⟨indexEntry item, now⟩) _ _ IndexRow.key_replace
    (fun r => r.entry) entry_replace key
  rw [find?_indexRows] at hfind
  rw [activeAt, hindex, patchIndex, hfind]
  cases lastItem d.indexes key with
  | some item =>
    rw [Option.map_some, Option.some_or]
    dsimp only
    split
    · next hactive =>
      rw [Option.filter_eq_some_iff]
      exact ⟨rfl, hactive⟩
    · next hactive =>
      rw [Option.filter_eq_none_iff]
      rintro e he
      cases he
      exact hactive
  | none =>
    rw [Option.map_none, Option.none_or, Table.find?_update, activeAt]
    cases hr : s.index.find? key with
    | none => simp
    | some r =>
      obtain ⟨hmem, hkey⟩ := Table.find?_eq_some_iff.1 hr
      by_cases hin : key ∈ d.removed
      · simp [hkey, hin, IndexRow.supersede, activeNews_supersede (hobjects r hmem)]
      · simp [hkey, hin]

/-! ## Payloads stay objects -/

theorem objects_cleanup (hs : s.Objects) (cleanup : List String) :
    (cleanup.foldl deleteGeneration s).Objects := by
  induction cleanup generalizing s with
  | nil => exact hs
  | cons g cleanup ih => exact ih fun r hr => hs r (Table.mem_delete.1 hr).1

theorem objects_supersede {t : Table IndexRow.key} (ht : ∀ r ∈ t, r.entry.payload.isObject = true)
    (p : IndexRow → Bool) : ∀ r ∈ t.update p IndexRow.supersede IndexRow.key_supersede,
      r.entry.payload.isObject = true := by
  refine Table.forall_update IndexRow.key_supersede ht fun r hr _ _ => ?_
  simpa [IndexRow.supersede, IndexEntry.supersede] using ht r hr

theorem objects_activate {m : Manifest} {p : Progress} {now : ℤ} (h : s.activate m p now = some s')
    (hobjects : s.Objects) (hitems : ∀ item ∈ s.receiptItems m.generationId, item.isObject = true) :
    s'.Objects := by
  obtain ⟨_, -, rfl⟩ := Option.map_eq_some_iff.1 h
  refine objects_supersede (objects_upsertAll hobjects IndexRow.key_overwrite entry_overwrite ?_) _
  intro r hr
  obtain ⟨e, he, rfl⟩ := List.mem_map.1 hr
  obtain ⟨item, hitem, rfl⟩ := List.mem_map.1 he
  exact hitems item hitem

theorem objects_patchIndex {s' : Store} {d : Delta} {now : ℤ} (hindex : s'.index = patchIndex s.index d now)
    (hobjects : s.Objects) (hitems : ∀ item ∈ d.indexes, item.isObject = true) : s'.Objects := by
  rw [Objects, hindex]
  refine objects_upsertAll (objects_supersede hobjects _) IndexRow.key_replace entry_replace ?_
  intro r hr
  obtain ⟨item, hitem, rfl⟩ := List.mem_map.1 hr
  exact hitems item hitem

/-! ## The items of the receipts -/

/-- The receipts hold valid items only. -/
def ValidReceipts (s : Store) : Prop := ∀ r ∈ s.receipts, ∀ item ∈ r.items, validIndex item = true

theorem valid_receiptItems (hs : s.ValidReceipts) {g : String} {item : Json} (h : item ∈ s.receiptItems g) :
    validIndex item = true := by
  obtain ⟨r, hr, hitem⟩ := List.mem_flatMap.1 h
  have hmem := (List.mem_filter.1 ((List.mem_insertionSort _).1 hr)).1
  exact hs r hmem item hitem

theorem validReceipts_cleanup (hs : s.ValidReceipts) (cleanup : List String) :
    (cleanup.foldl deleteGeneration s).ValidReceipts := by
  induction cleanup generalizing s with
  | nil => exact hs
  | cons g cleanup ih => exact ih fun r hr => hs r (Table.mem_delete.1 hr).1

end Store

/-! ## The archive -/

/-- The store serves the archive of its log, and holds what it needs to. -/
structure Served (w : World) : Prop where
  objects : w.state.Objects
  receipts : w.state.ValidReceipts
  archive : ∀ key, w.state.activeAt key = (archive w.log key).map indexEntry

theorem served_empty : Served World.empty where
  objects := fun _ hr => nomatch hr
  receipts := fun _ hr => nomatch hr
  archive := fun _ => rfl

/-- An activation lands while the receipts are those it counted. -/
def Counted (w : World) : Batch → Prop
  | .activate m _ counted _ =>
    m.contractVersion = .generation ∧ w.state.receiptItems m.generationId = counted
  | _ => True

/-- **Every batch that lands keeps the store serving its archive.** -/
theorem served_land [Platform] {b : Batch} {w w' : World} (hb : b.Formed) (hcounted : Counted w b)
    (hw : Served w) (h : Program.land Batch.exec b w = some w') : Served w' := by
  obtain ⟨hexec, hlog⟩ := Program.land_eq_some h
  cases b with
  | deleteGeneration g =>
    have hstate := Option.some.inj hexec
    have hrows : w'.state.activeRows = w.state.activeRows := by
      rw [← hstate, Store.activeRows_deleteGeneration]
    exact
      { objects := fun r hr => hw.objects r (Table.mem_delete.1 (hstate ▸ hr)).1
        receipts := fun r hr => hw.receipts r (Table.mem_delete.1 (hstate ▸ hr)).1
        archive := fun key => by
          rw [Store.activeAt_congr hrows, hlog]
          exact hw.archive key }
  | openGeneration cleanup m now =>
    have hrows := Store.activeRows_open hexec
    obtain ⟨_, -, hstate⟩ := Option.map_eq_some_iff.1 hexec
    exact
      { objects := hstate ▸ Store.objects_cleanup hw.objects cleanup
        receipts := hstate ▸ Store.validReceipts_cleanup hw.receipts cleanup
        archive := fun key => by
          rw [Store.activeAt_congr hrows, hlog]
          exact hw.archive key }
  | stage g kind offset items payloadHash receiptDigest identityDigest rows now =>
    have hrows := Store.activeRows_stage hexec
    obtain ⟨details, receipts, -, hreceipts, hstate⟩ := Store.stage_eq_some hexec
    refine ⟨hstate ▸ hw.objects, fun r hr item hitem => ?_, fun key => ?_⟩
    · rw [hstate] at hr
      rcases (Table.mem_insertAll hreceipts).1 hr with hr | hr
      · exact hw.receipts r hr item hitem
      · rw [List.mem_singleton.1 hr] at hitem
        cases kind with
        | detail => cases hitem
        | index => exact hb.2.2.2.1 item hitem
    · rw [Store.activeAt_congr hrows, hlog]
      exact hw.archive key
  | activate m p counted now =>
    obtain ⟨hcontract, hitems⟩ := hcounted
    have hobject : ∀ item ∈ w.state.receiptItems m.generationId, item.isObject = true := fun item hitem =>
      isObject_of_validIndex (Store.valid_receiptItems hw.receipts hitem)
    have hactive : ∀ item ∈ w.state.receiptItems m.generationId, activeNews item = true := by
      intro item hitem
      exact activeNews_of_reviewViolation ((hb hcontract).2 item (hitems ▸ hitem))
    have hreceipts := Store.activate_receipts hexec
    refine ⟨Store.objects_activate hexec hw.objects hobject, fun r hr => ?_, fun key => ?_⟩
    · exact hw.receipts r (hreceipts ▸ hr)
    · rw [Store.activeAt_activate hexec hw.objects hobject hactive, hlog, hitems]
      rfl
  | verify g missing violations current now =>
    have hstate := Option.some.inj hexec
    refine ⟨hstate ▸ hw.objects, hstate ▸ hw.receipts, fun key => ?_⟩
    rw [← hstate, hlog]
    exact hw.archive key
  | delta d serialized now =>
    have hpatched := Store.applyDelta_eq_some hexec
    have hobject : ∀ item ∈ d.indexes, item.isObject = true := fun item hitem =>
      isObject_of_validIndex (hb.indexes item hitem)
    refine ⟨Store.objects_patchIndex hpatched.index hw.objects hobject, fun r hr => ?_, fun key => ?_⟩
    · exact hw.receipts r (hpatched.receipts ▸ hr)
    · rw [Store.activeAt_patchIndex hpatched.index hw.objects, hlog, archive]
      cases lastItem d.indexes key with
      | some item =>
        by_cases hactive : activeNews item = true <;> simp [hactive]
      | none =>
        by_cases hin : key ∈ d.removed
        · simp [hin]
        · simp [hin, hw.archive key]

end Xauusd.Projection
