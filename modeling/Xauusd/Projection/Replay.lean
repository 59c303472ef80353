/-
  Full replays, one request at a time.

  * `Accepted g b`: what a staged batch left in its receipt;
  * `Replayed w`: the receipts of every generation are a chain of accepted
    batches, and the details of the staging one are stored;
  * `replayed_land`: **a timely batch keeps the store replayed**;
  * `orderly_run`: so does every run of requests, one at a time;
  * `stagedItems g kind log`: the items of a generation, in the order of their
    batches.
-/
import Xauusd.Projection.Chain
import Xauusd.Projection.Counts

namespace Xauusd.Projection

open Program

/-! ## Accepted batches -/

/-- What a staged batch left in its receipt. -/
structure Accepted (g : String) (b : Receipt × List Json) : Prop where
  id : Text.isSha256Hex g = true
  generation : b.1.generation = g
  count : b.1.itemCount = b.2.length
  size : b.2.length ≤ maxBatchItems b.1.kind
  keys : b.1.identityKeys = b.2.map itemKey
  items : b.1.items = match b.1.kind with
    | .index => b.2
    | .detail => []
  nonempty : b.2 ≠ []
  valid : ∀ item ∈ b.2, validItem b.1.kind item = true
  parsed : (Json.arr b.2).WF = true
  hash : newsProjectionPayloadHash (.arr b.2) = some b.1.payloadHash

/-- The detail of an item, as it was sent. -/
structure DetailRow.Holds (d : DetailRow) (item : Json) : Prop where
  key : d.detailKey = itemKey item
  hash : d.detailHash = textOf (item.get "detail_hash")
  payload : d.payload.same (item.get "payload") = true

/-- After a detail batch, every item is stored: it was, or it is inserted. -/
theorem newDetailRows_holds {s : Store} {now : ℤ} {items : List Json} {rows : List DetailRow}
    (h : newDetailRows s now items = some rows) (hwf : ∀ item ∈ items, item.WF = true) :
    ∀ item ∈ items, ∃ d : DetailRow, (d ∈ s.details ∨ d ∈ rows) ∧ d.Holds item := by
  induction items generalizing rows with
  | nil => exact fun _ hitem => nomatch hitem
  | cons item items ih =>
    have hitem := Json.same_refl (Json.wf_get (hwf item List.mem_cons_self) "payload")
    have hrest := fun item' hitem' => hwf item' (List.mem_cons_of_mem _ hitem')
    intro item' hitem'
    simp only [newDetailRows] at h
    split at h
    · next prior hprior =>
      obtain ⟨hmem, hkey⟩ := Table.find?_eq_some_iff.1 hprior
      split at h
      · next hsame =>
        rcases List.mem_cons.1 hitem' with rfl | hitem'
        · exact ⟨prior, .inl hmem, hkey, hsame.1, hsame.2⟩
        · exact ih h hrest item' hitem'
      · cases h
    · obtain ⟨rows', hrows', rfl⟩ := Option.map_eq_some_iff.1 h
      rcases List.mem_cons.1 hitem' with rfl | hitem'
      · exact ⟨_, .inr List.mem_cons_self, rfl, rfl, hitem⟩
      · obtain ⟨d, hd, hholds⟩ := ih hrows' hrest item' hitem'
        exact ⟨d, hd.imp id (List.mem_cons_of_mem _), hholds⟩

/-! ## The invariant -/

def stagedReceipts (g : String) (log : List Batch) : List Receipt := (staged g log).map (·.1)

structure Replayed (w : World) : Prop where
  accepted : ∀ g, ∀ b ∈ staged g w.log, Accepted g b
  chain : ∀ r ∈ w.state.generations, r.manifest.contractVersion = .generation →
    Chain r.manifest (stagedReceipts r.id w.log)
  orphan : ∀ g, (∀ r ∈ w.state.generations, r.id ≠ g) → staged g w.log = []
  sparse : ∀ r ∈ w.state.generations, r.manifest.contractVersion = .delta → staged r.id w.log = []
  counts : ∀ c ∈ w.state.counts, ∃ r ∈ w.state.generations, r.id = c.generation ∧ r.state ≠ .staging
  details : ∀ r ∈ w.state.generations, r.state = .staging → ∀ b ∈ staged r.id w.log, b.1.kind = .detail →
    ∀ item ∈ b.2, ∃ d ∈ w.state.details, d.Holds item

/-- All that holds of a store which serves one request at a time. -/
structure Orderly (w : World) : Prop where
  sound : Sound w
  served : Served w
  recorded : Recorded w
  replayed : Replayed w

theorem replayed_empty : Replayed World.empty where
  accepted := fun _ _ hb => nomatch hb
  chain := fun _ hr => nomatch hr
  orphan := fun _ _ => rfl
  sparse := fun _ hr => nomatch hr
  counts := fun _ hc => nomatch hc
  details := fun _ hr => nomatch hr

theorem orderly_empty : Orderly World.empty := ⟨sound_empty, served_empty, recorded_empty, replayed_empty⟩

/-! ## One batch -/

section
variable {w w' : World}

/-- A batch that stages nothing, and leaves every row that is there with its
    manifest. -/
theorem replayed_of_same (hw : Replayed w) (hstaged : ∀ g, staged g w'.log = staged g w.log)
    (hrows : ∀ r' ∈ w'.state.generations, ∃ r ∈ w.state.generations, r'.id = r.id ∧
      r'.manifest = r.manifest ∧ (r'.state = .staging → r.state = .staging))
    (hback : ∀ r ∈ w.state.generations, ∃ r' ∈ w'.state.generations, r'.id = r.id ∧
      (r'.state = .staging → r.state = .staging))
    (hcounts : ∀ c ∈ w'.state.counts, c ∈ w.state.counts ∨
      ∃ r ∈ w'.state.generations, r.id = c.generation ∧ r.state ≠ .staging)
    (hdetails : ∀ d ∈ w.state.details, d ∈ w'.state.details) : Replayed w' where
  accepted g b hb := hw.accepted g b (hstaged g ▸ hb)
  chain r hr hcontract := by
    obtain ⟨r₀, hr₀, hid, hmanifest, -⟩ := hrows r hr
    rw [stagedReceipts, hstaged, hid, hmanifest]
    exact hw.chain r₀ hr₀ (hmanifest ▸ hcontract)
  orphan g hg := by
    rw [hstaged]
    refine hw.orphan g fun r hr hid => ?_
    obtain ⟨r', hr', hid', -⟩ := hback r hr
    exact hg r' hr' (hid'.trans hid)
  sparse r hr hcontract := by
    obtain ⟨r₀, hr₀, hid, hmanifest, -⟩ := hrows r hr
    rw [hstaged, hid]
    exact hw.sparse r₀ hr₀ (hmanifest ▸ hcontract)
  counts c hc := by
    rcases hcounts c hc with hc | hc
    · obtain ⟨r, hr, hid, hstate⟩ := hw.counts c hc
      obtain ⟨r', hr', hid', hstate'⟩ := hback r hr
      exact ⟨r', hr', hid'.trans hid, fun hs => hstate (hstate' hs)⟩
    · exact hc
  details r hr hstaging b hb hkind item hitem := by
    obtain ⟨r₀, hr₀, hid, -, hstaging₀⟩ := hrows r hr
    rw [hstaged, hid] at hb
    obtain ⟨d, hd, hholds⟩ := hw.details r₀ hr₀ (hstaging₀ hstaging) b hb hkind item hitem
    exact ⟨d, hdetails d hd, hholds⟩

/-- A cleanup that takes every staging generation. -/
theorem replayed_cleanup (hw : Replayed w) {cleanup : List String}
    (hstaged : ∀ g, staged g w'.log = if g ∈ cleanup then [] else staged g w.log)
    (hstate : w'.state = cleanup.foldl Store.deleteGeneration w.state)
    (hclean : ∀ r ∈ w.state.generations, r.state = .staging → r.id ∈ cleanup) :
    Replayed w' ∧ ∀ r ∈ w'.state.generations, r.state ≠ .staging := by
  have hrows : ∀ r, r ∈ w'.state.generations ↔ r ∈ w.state.generations ∧ r.id ∉ cleanup := fun r => by
    rw [hstate]
    exact Store.mem_generations_cleanup
  have hkeep : ∀ r ∈ w'.state.generations, staged r.id w'.log = staged r.id w.log := fun r hr => by
    rw [hstaged, if_neg ((hrows r).1 hr).2]
  have hnone : ∀ r ∈ w'.state.generations, r.state ≠ .staging := fun r hr hs =>
    ((hrows r).1 hr).2 (hclean r ((hrows r).1 hr).1 hs)
  have hcounts : ∀ c ∈ w'.state.counts, c ∈ w.state.counts ∧ c.generation ∉ cleanup := by
    rw [hstate]
    clear hstate hstaged hrows hkeep hnone hclean hw
    generalize w.state = s
    induction cleanup generalizing s with
    | nil => exact fun c hc => ⟨hc, List.not_mem_nil⟩
    | cons g cleanup ih =>
      intro c hc
      obtain ⟨hc, hout⟩ := ih _ c hc
      obtain ⟨hc, hg⟩ := Table.mem_delete.1 hc
      exact ⟨hc, by simpa [hout] using hg⟩
  refine ⟨?_, hnone⟩
  exact
    { accepted := fun g b hb => by
        rw [hstaged] at hb
        split at hb
        · cases hb
        · exact hw.accepted g b hb
      chain := fun r hr hcontract => by
        rw [stagedReceipts, hkeep r hr]
        exact hw.chain r ((hrows r).1 hr).1 hcontract
      orphan := fun g hg => by
        rw [hstaged]
        split
        · rfl
        · next hout => exact hw.orphan g fun r hr hid => hg r ((hrows r).2 ⟨hr, hid ▸ hout⟩) hid
      sparse := fun r hr hcontract => by
        rw [hkeep r hr]
        exact hw.sparse r ((hrows r).1 hr).1 hcontract
      counts := fun c hc => by
        obtain ⟨hc, hout⟩ := hcounts c hc
        obtain ⟨r, hr, hid, hs⟩ := hw.counts c hc
        exact ⟨r, (hrows r).2 ⟨hr, hid ▸ hout⟩, hid, hs⟩
      details := fun r hr hs => absurd hs (hnone r hr) }

namespace Store

variable [Platform] {s s' : Store} {d : Delta} {serialized : List Json} {now : ℤ}

/-- A patch finds and leaves no staging generation. -/
theorem staging_patched (h : s.Patched d serialized now s') : ∀ r ∈ s'.generations, r.state ≠ .staging := by
  have hbase := h.base
  unfold servesBase at hbase
  split at hbase
  · cases hbase
  · simp only [Bool.and_eq_true, Bool.not_eq_true', isStaging, List.any_eq_false, decide_eq_true_eq] at hbase
    intro r hr hs
    rcases (mem_generations_patched h).1 hr with ⟨r₀, hr₀, -, rfl⟩ | rfl
    · split at hs
      · cases hs
      · exact hbase.2 r₀ hr₀ hs
    · cases hs

/-- The row of a patch has a key that no row it leaves has. -/
theorem fresh_patched (h : s.Patched d serialized now s') {r : Generation} (hr : r ∈ s.generations)
    (hout : r.id ∉ s.spentIds d) : r.id ≠ d.manifest.generationId := by
  have hnew := (Table.new_of_insertAll h.generations).2 (if r.state = .current then r.supersede now else r)
    ((Table.mem_update (Generation.id_supersede now)).2
      ⟨r, Table.mem_delete.2 ⟨hr, by simpa using hout⟩, by simp⟩) _ (List.mem_singleton.2 rfl)
  intro hid
  refine hnew (Eq.trans ?_ hid)
  split <;> rfl

end Store

/-- A new row of a generation that has staged nothing. -/
theorem replayed_open {w : World} (hw : Replayed w) {m : Manifest} {now : ℤ}
    (hstate : ∀ r, r ∈ w'.state.generations ↔ r ∈ w.state.generations ∨ r = ⟨m, .staging, now, none⟩)
    (hcounts : w'.state.counts = w.state.counts) (hdetails : w'.state.details = w.state.details)
    (hlog : ∀ g, staged g w'.log = staged g w.log) (hnew : staged m.generationId w.log = []) : Replayed w' where
  accepted g b hb := hw.accepted g b (hlog g ▸ hb)
  chain r hr hcontract := by
    rw [stagedReceipts, hlog]
    rcases (hstate r).1 hr with hr | rfl
    · exact hw.chain r hr hcontract
    · rw [show (⟨m, .staging, now, none⟩ : Generation).id = m.generationId from rfl, hnew]
      trivial
  orphan g hg := by
    rw [hlog]
    exact hw.orphan g fun r hr => hg r ((hstate r).2 (.inl hr))
  sparse r hr hcontract := by
    rw [hlog]
    rcases (hstate r).1 hr with hr | rfl
    · exact hw.sparse r hr hcontract
    · exact hnew
  counts c hc := by
    rw [hcounts] at hc
    obtain ⟨r, hr, h⟩ := hw.counts c hc
    exact ⟨r, (hstate r).2 (.inl hr), h⟩
  details r hr hs b hb hkind item hitem := by
    rw [hlog] at hb
    rw [hdetails]
    rcases (hstate r).1 hr with hr | rfl
    · exact hw.details r hr hs b hb hkind item hitem
    · rw [show (⟨m, .staging, now, none⟩ : Generation).id = m.generationId from rfl, hnew] at hb
      cases hb

/-- **A timely batch keeps the store replayed.** -/
theorem replayed_land [Platform] {b : Batch} (hb : b.Formed) (htimely : Timely w b) (hsound : Sound w)
    (hrecorded : Recorded w) (hw : Replayed w) (h : land Batch.exec b w = some w') : Replayed w' := by
  obtain ⟨hexec, hlog⟩ := land_eq_some h
  cases b with
  | deleteGeneration g =>
    refine (@replayed_cleanup w w' hw [g] (fun g' => ?_) (Option.some.inj hexec).symm ?_).1
    · rw [hlog, staged]
      simp [eq_comm]
    · exact fun r hr hs => List.mem_singleton.2 (((fresh_of_timely hsound htimely) r hr).2 hs)
  | openGeneration cleanup m now =>
    have hclean := (@replayed_cleanup w ⟨cleanup.foldl Store.deleteGeneration w.state,
      .openGeneration cleanup m now :: w.log⟩ hw cleanup (fun _ => rfl) rfl
      fun r hr hs => ((fresh_of_timely hsound htimely) r hr).2 hs).1
    have hnew : staged m.generationId (.openGeneration cleanup m now :: w.log) = [] := by
      rw [staged, hw.orphan m.generationId htimely.1]
      exact ite_self []
    obtain ⟨generations, hgenerations, hstate⟩ := Option.map_eq_some_iff.1 hexec
    refine @replayed_open w' _ hclean m now (fun r => ?_) ?_ ?_ (fun g => by rw [hlog]) hnew
    · rw [← hstate]
      show r ∈ generations ↔ _
      rw [Table.mem_insertAll hgenerations, List.mem_singleton]
    · rw [← hstate]
    · rw [← hstate]
  | stage g kind offset items payloadHash receiptDigest identityDigest rows now =>
    obtain ⟨hhex, hsize, hne, hvalid, hparsed, hhash⟩ := hb
    obtain ⟨⟨r₀, hr₀, rfl, hstaging, hbound, hindex⟩, hoffset, hdigest, hidentity, hrows⟩ := htimely
    have hcontract := hsound.contract r₀ hr₀ hstaging
    have hchain := hw.chain r₀ hr₀ hcontract
    obtain ⟨htotal, hlast, hlastIdentity⟩ := progress_eq (l := stagedReceipts r₀.id w.log) (hrecorded r₀.id) hchain
    obtain ⟨details, receipts, hdetails, hreceipts, hstate⟩ := Store.stage_eq_some hexec
    have hstaged : ∀ g, staged g w'.log = if r₀.id = g then
        (stagedReceipt r₀.id kind offset items payloadHash receiptDigest identityDigest now, items) ::
          staged g w.log else staged g w.log := fun g => by rw [hlog, staged]
    have haccepted : Accepted r₀.id
        (stagedReceipt r₀.id kind offset items payloadHash receiptDigest identityDigest now, items) :=
      ⟨hhex, rfl, rfl, hsize, rfl, rfl, hne, hvalid, hparsed, hhash⟩
    have hgens : w'.state.generations = w.state.generations := by rw [hstate]
    refine ⟨fun g b hb => ?_, fun r hr hc => ?_, fun g hg => ?_, fun r hr hc => ?_, fun c hc => ?_, ?_⟩
    · rw [hstaged] at hb
      split at hb
      · next hid =>
        rcases List.mem_cons.1 hb with rfl | hb
        · exact hid ▸ haccepted
        · exact hw.accepted g b hb
      · exact hw.accepted g b hb
    · rw [hgens] at hr
      rw [stagedReceipts, hstaged]
      split
      · next hid =>
        obtain rfl := w.state.generations.eq_of_key_eq hr₀ hr hid
        refine ⟨⟨hoffset.trans (htotal kind), List.length_pos_of_ne_nil hne, hbound, fun hkind => ?_, ?_, ?_⟩,
          hchain⟩
        · rw [← hindex hkind]
          exact (htotal .detail).symm
        · exact hdigest.trans (by rw [hlast]; rfl)
        · exact hidentity.trans (by rw [hlastIdentity]; rfl)
      · exact hw.chain r hr hc
    · rw [hstaged, if_neg (hg r₀ (hgens ▸ hr₀))]
      exact hw.orphan g fun r hr => hg r (hgens ▸ hr)
    · rw [hgens] at hr
      rw [hstaged, if_neg]
      · exact hw.sparse r hr hc
      · intro hid
        rw [w.state.generations.eq_of_key_eq hr₀ hr hid, hc] at hcontract
        cases hcontract
    · rw [hstate] at hc
      obtain ⟨r, hr, hid, hs⟩ := hw.counts c hc
      exact ⟨r, hgens ▸ hr, hid, hs⟩
    · intro r hr hs b hb hkind item hitem
      rw [hgens] at hr
      have hmem : ∀ d ∈ w.state.details, d ∈ w'.state.details := fun d hd => by
        rw [hstate]
        exact (Table.mem_insertAll hdetails).2 (.inl hd)
      rw [hstaged] at hb
      split at hb
      · rcases List.mem_cons.1 hb with rfl | hb
        · simp only [stagedReceipt] at hkind
          subst hkind
          obtain ⟨d, hd, hholds⟩ := newDetailRows_holds hrows
            (fun item hitem => Json.wfItems_iff.1 hparsed item hitem) item hitem
          refine ⟨d, ?_, hholds⟩
          rw [hstate]
          exact (Table.mem_insertAll hdetails).2 hd
        · obtain ⟨d, hd, hholds⟩ := hw.details r hr hs b hb hkind item hitem
          exact ⟨d, hmem d hd, hholds⟩
      · obtain ⟨d, hd, hholds⟩ := hw.details r hr hs b hb hkind item hitem
        exact ⟨d, hmem d hd, hholds⟩
  | activate m progress counted now =>
    have hrows := fun r => Store.mem_generations_activate (r := r) hexec
    obtain ⟨⟨r₀, hr₀, rfl, hstaging⟩, -⟩ := htimely
    obtain ⟨counts, hcounts, hstate⟩ := Option.map_eq_some_iff.1 hexec
    refine replayed_of_same hw (fun g => by rw [hlog]; rfl) (fun r hr => ?_) (fun r hr => ?_)
      (fun c hc => ?_) (fun d hd => by rw [← hstate]; exact hd)
    · obtain ⟨r₁, hr₁, rfl⟩ := (hrows r).1 hr
      exact ⟨r₁, hr₁, Store.id_afterActivation _ _ _, Store.manifest_afterActivation _ _ _,
        fun hs => (Store.staging_afterActivation hs).2⟩
    · exact ⟨_, (hrows _).2 ⟨r, hr, rfl⟩, Store.id_afterActivation _ _ _,
        fun hs => (Store.staging_afterActivation hs).2⟩
    · rw [← hstate] at hc
      rcases (Table.mem_insertAll hcounts).1 hc with hc | hc
      · exact .inl hc
      · refine .inr ⟨_, (hrows _).2 ⟨r₀, hr₀, rfl⟩, ?_, ?_⟩
        · rw [Store.id_afterActivation, generation_of_counts hc]
          rfl
        · have hpub : r₀.id = r₀.manifest.generationId ∧ r₀.state = .staging := ⟨rfl, hstaging⟩
          rw [Store.afterActivation, if_pos hpub]
          intro hs
          cases hs
  | verify g missing violations current now =>
    have hstate := Option.some.inj hexec
    have hrows : ∀ r, r ∈ w'.state.generations ↔ ∃ r₀ ∈ w.state.generations,
        r = if r₀.id = g then r₀.touch now else r₀ := fun r => hstate ▸ Store.mem_generations_verify
    have htouch : ∀ r : Generation, (if r.id = g then r.touch now else r).id = r.id ∧
        (if r.id = g then r.touch now else r).manifest = r.manifest ∧
        ((if r.id = g then r.touch now else r).state = .staging → r.state = .staging) := by
      intro r
      split <;> exact ⟨rfl, rfl, id⟩
    refine replayed_of_same hw (fun g => by rw [hlog]; rfl) (fun r hr => ?_) (fun r hr => ?_)
      (fun c hc => .inl ?_) (fun d hd => ?_)
    · obtain ⟨r₁, hr₁, rfl⟩ := (hrows r).1 hr
      exact ⟨r₁, hr₁, htouch r₁⟩
    · exact ⟨_, (hrows _).2 ⟨r, hr, rfl⟩, (htouch r).1, (htouch r).2.2⟩
    · rw [← hstate] at hc
      exact hc
    · rw [← hstate]
      exact hd
  | delta d serialized now =>
    have hpatched := Store.applyDelta_eq_some hexec
    have hrows := fun r => Store.mem_generations_patched (r := r) hpatched
    have hstaged : ∀ g, staged g w'.log = staged g w.log := fun g => by rw [hlog]; rfl
    have hspent : ∀ r ∈ w.state.generations, r.id ∈ w.state.spentIds d → staged r.id w.log = [] := by
      intro r hr hspent
      obtain ⟨r₁, hr₁, hid⟩ := List.mem_map.1 hspent
      obtain ⟨hr₁, hdelta⟩ := List.mem_filter.1 hr₁
      obtain rfl := w.state.generations.eq_of_key_eq hr₁ hr hid
      simp only [Store.spentDelta, Bool.and_eq_true, decide_eq_true_eq] at hdelta
      exact hw.sparse _ hr hdelta.1.2
    have hnone := Store.staging_patched hpatched
    have hgone : ∀ g, (∀ r ∈ w.state.generations, r.id = g → r.id ∈ w.state.spentIds d) →
        staged g w.log = [] := by
      intro g hg
      by_cases hin : ∃ r ∈ w.state.generations, r.id = g
      · obtain ⟨r, hr, rfl⟩ := hin
        exact hspent r hr (hg r hr rfl)
      · exact hw.orphan g fun r hr hid => hin ⟨r, hr, hid⟩
    have hsame : ∀ r : Generation, (if r.state = .current then r.supersede now else r).id = r.id ∧
        (if r.state = .current then r.supersede now else r).manifest = r.manifest := by
      intro r
      split <;> exact ⟨rfl, rfl⟩
    refine ⟨fun g b hb => hw.accepted g b (hstaged g ▸ hb), fun r hr hc => ?_, fun g hg => ?_,
      fun r hr hc => ?_, fun c hc => ?_, fun r hr hs => absurd hs (hnone r hr)⟩
    · rw [stagedReceipts, hstaged]
      rcases (hrows r).1 hr with ⟨r₁, hr₁, -, rfl⟩ | rfl
      · rw [(hsame r₁).1, (hsame r₁).2]
        exact hw.chain r₁ hr₁ ((hsame r₁).2 ▸ hc)
      · cases hc
    · rw [hstaged]
      refine hgone g fun r hr hid => ?_
      by_contra hs
      exact hg _ ((hrows _).2 (.inl ⟨r, hr, hs, rfl⟩)) ((hsame r).1.trans hid)
    · rw [hstaged]
      rcases (hrows r).1 hr with ⟨r₁, hr₁, -, rfl⟩ | rfl
      · rw [(hsame r₁).1]
        exact hw.sparse r₁ hr₁ ((hsame r₁).2 ▸ hc)
      · refine hgone _ fun r hr hid => ?_
        by_contra hs
        exact Store.fresh_patched hpatched hr hs hid
    · rcases (Table.mem_insertAll hpatched.counts).1 hc with hc | hc
      · obtain ⟨hc, hs⟩ := Table.mem_delete.1 hc
        obtain ⟨r, hr, hid, -⟩ := hw.counts c hc
        have hmem := (hrows _).2 (.inl ⟨r, hr, by simpa [hid] using hs, rfl⟩)
        exact ⟨_, hmem, (hsame r).1.trans hid, hnone _ hmem⟩
      · exact ⟨_, (hrows _).2 (.inr rfl), (generation_of_counts hc).symm, by simp⟩

/-- **All of it.** -/
theorem orderly_land [Platform] {b : Batch} (hb : b.Formed) (htimely : Timely w b) (hw : Orderly w)
    (h : land Batch.exec b w = some w') : Orderly w' where
  sound := sound_land hb (fresh_of_timely hw.sound htimely) hw.sound h
  served := served_land hb (counted_of_fresh hw.sound (fresh_of_timely hw.sound htimely)) hw.served h
  recorded := recorded_land h hw.recorded
  replayed := replayed_land hb htimely hw.sound hw.recorded hw.replayed h

end

/-! ## Runs -/

/-- **Requests one at a time keep the store orderly.** -/
theorem orderly_run [Platform] {w : World} (hw : Orderly w) (requests : List Request) :
    Orderly (Machine.run serve w requests) :=
  serve_invariant (D := fun _ => True) (fun r _ => r.sends_formed) (fun r _ hw => r.commits_timely hw.sound)
    (fun _ _ _ hb htimely hw h => orderly_land hb htimely hw h) hw fun _ _ => trivial

/-! ## Staged items -/

def stagedItems (g : String) (kind : Kind) (log : List Batch) : List Json :=
  ((staged g log).reverse.filter fun b => b.1.kind = kind).flatMap (·.2)

section
variable {g : String} {log : List Batch}

theorem stagedReceipts_filter (kind : Kind) :
    (stagedReceipts g log).reverse.filter (fun r => r.kind = kind) =
      ((staged g log).reverse.filter fun b => b.1.kind = kind).map (·.1) := by
  rw [stagedReceipts, ← List.map_reverse, List.filter_map]
  rfl

theorem mem_staged_filter {b : Receipt × List Json} {kind : Kind}
    (hb : b ∈ (staged g log).reverse.filter fun b => b.1.kind = kind) : b ∈ staged g log ∧ b.1.kind = kind := by
  obtain ⟨hmem, hkind⟩ := List.mem_filter.1 hb
  exact ⟨List.mem_reverse.1 hmem, by simpa using hkind⟩

theorem mem_stagedItems {kind : Kind} {item : Json} :
    item ∈ stagedItems g kind log ↔ ∃ b ∈ staged g log, b.1.kind = kind ∧ item ∈ b.2 := by
  simp [stagedItems, and_assoc]

/-- The keys that the receipts list are those of the items. -/
theorem identityKeys_staged (h : ∀ b ∈ staged g log, Accepted g b) (kind : Kind) :
    ((stagedReceipts g log).reverse.filter fun r => r.kind = kind).flatMap (·.identityKeys) =
      (stagedItems g kind log).map itemKey := by
  rw [stagedReceipts_filter, List.flatMap_map, stagedItems, List.map_flatMap]
  exact List.flatMap_congr fun b hb => (h b (mem_staged_filter hb).1).keys

/-- The items that the index receipts hold are the index items. -/
theorem items_staged (h : ∀ b ∈ staged g log, Accepted g b) :
    ((stagedReceipts g log).reverse.filter fun r => r.kind = .index).flatMap (·.items) =
      stagedItems g .index log := by
  rw [stagedReceipts_filter, List.flatMap_map, stagedItems]
  refine List.flatMap_congr fun b hb => ?_
  obtain ⟨hmem, hkind⟩ := mem_staged_filter hb
  rw [(h b hmem).items, hkind]

theorem total_staged (h : ∀ b ∈ staged g log, Accepted g b) (kind : Kind) :
    total kind (stagedReceipts g log) = (stagedItems g kind log).length := by
  rw [stagedItems, stagedReceipts]
  generalize staged g log = l at h
  induction l with
  | nil => rfl
  | cons b l ih =>
    have hcount := (h b List.mem_cons_self).count
    rw [List.map_cons, total, ih fun b hb => h b (List.mem_cons_of_mem _ hb), List.reverse_cons,
      List.filter_append, List.flatMap_append, List.length_append]
    by_cases hkind : b.1.kind = kind <;> simp [hkind, hcount]

end

/-- The items of the receipts of a replay are the staged ones. -/
theorem receiptItems_staged {w : World} (hw : Orderly w) {r : Generation} (hr : r ∈ w.state.generations)
    (hcontract : r.manifest.contractVersion = .generation) :
    w.state.receiptItems r.id = stagedItems r.id .index w.log := by
  rw [chain_receiptItems (hw.recorded r.id) (hw.replayed.chain r hr hcontract)]
  exact items_staged (hw.replayed.accepted r.id)

end Xauusd.Projection
