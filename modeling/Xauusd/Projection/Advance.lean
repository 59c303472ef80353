/-
  What a replay needs in order to go on.

  * `Agrees s items`: no stored detail contradicts the items;
  * `exists_stage`: **the next batch of a staging generation is accepted**;
  * `exists_activate`: **a complete staging generation is activated**.
-/
import Xauusd.Projection.Replay

namespace Xauusd.Projection

open Program

/-! ## Details -/

/-- The stored details of the items' keys are those of the items. -/
def Agrees (s : Store) (items : List Json) : Prop :=
  ∀ item ∈ items, ∀ d ∈ s.details, d.detailKey = itemKey item → d.Holds item

theorem Agrees.of_cons {s : Store} {item : Json} {items : List Json} (h : Agrees s (item :: items)) :
    Agrees s items := fun item' hitem' => h item' (List.mem_cons_of_mem _ hitem')

theorem newDetailRows_eq {s : Store} {items : List Json} (now : ℤ) (hagrees : Agrees s items)
    (hwf : ∀ item ∈ items, item.WF = true) :
    ∃ rows, newDetailRows s now items = some rows ∧
      (rows.map (·.detailKey)).Sublist (items.map itemKey) ∧
      ∀ row ∈ rows, s.details.find? row.detailKey = none ∧ ∃ item ∈ items, row.Holds item := by
  induction items with
  | nil => exact ⟨[], rfl, List.Sublist.slnil, fun _ hrow => nomatch hrow⟩
  | cons item items ih =>
    obtain ⟨rows, hrows, hsub, hnew⟩ := ih hagrees.of_cons fun item' hitem' => hwf item' (List.mem_cons_of_mem _ hitem')
    have hrest : ∀ row ∈ rows, s.details.find? row.detailKey = none ∧ ∃ item' ∈ item :: items, row.Holds item' :=
      fun row hrow => ⟨(hnew row hrow).1, (hnew row hrow).2.imp fun _ h => ⟨List.mem_cons_of_mem _ h.1, h.2⟩⟩
    simp only [newDetailRows]
    cases hprior : s.details.find? (itemKey item) with
    | some prior =>
      obtain ⟨hmem, hkey⟩ := Table.find?_eq_some_iff.1 hprior
      have hholds := hagrees item List.mem_cons_self prior hmem hkey
      refine ⟨rows, ?_, hsub.cons _, hrest⟩
      dsimp only
      rw [if_pos ⟨hholds.hash, hholds.payload⟩, hrows]
    | none =>
      refine ⟨⟨itemKey item, textOf (item.get "detail_hash"), item.get "payload", now⟩ :: rows,
        by rw [hrows]; rfl, hsub.cons_cons (itemKey item), fun row hrow => ?_⟩
      rcases List.mem_cons.1 hrow with rfl | hrow
      · exact ⟨hprior, item, List.mem_cons_self, rfl, rfl,
          Json.same_refl (Json.wf_get (hwf item List.mem_cons_self) "payload")⟩
      · exact hrest row hrow

/-! ## Batches -/

/-- What an accepted batch leaves. -/
structure Extends (w w' : World) (r : Generation) (kind : Kind) (items : List Json) : Prop where
  orderly : Orderly w'
  generations : w'.state.generations = w.state.generations
  index : w'.state.index = w.state.index
  state : w'.state.state = w.state.state
  staged : ∃ receipt : Receipt, receipt.kind = kind ∧ staged r.id w'.log = (receipt, items) :: staged r.id w.log
  kept : ∀ d ∈ w.state.details, d ∈ w'.state.details
  new : ∀ d ∈ w'.state.details, d ∈ w.state.details ∨ kind = .detail ∧ ∃ item ∈ items, d.Holds item

section
variable [Platform] {w : World}

/-- **The next batch of a staging generation is accepted.** -/
theorem exists_stage (hw : Orderly w) {r : Generation} (hr : r ∈ w.state.generations)
    (hstaging : r.state = .staging) (hid : Text.isSha256Hex r.id = true) {kind : Kind} {items : List Json} (now : ℤ)
    (hne : items ≠ []) (hmax : items.length ≤ maxBatchItems kind) (hvalid : ∀ item ∈ items, validItem kind item = true)
    (hparsed : (Json.arr items).WF = true) {payloadHash : String}
    (hhash : newsProjectionPayloadHash (.arr items) = some payloadHash)
    (hbound : total kind (stagedReceipts r.id w.log) + items.length ≤ r.manifest.expected kind)
    (hindex : kind = .index → total .detail (stagedReceipts r.id w.log) = r.manifest.expectedDetailCount)
    (hdetails : kind = .detail → (items.map itemKey).Nodup ∧ Agrees w.state items) :
    ∃ w', serve w (.stage kind r.id (total kind (stagedReceipts r.id w.log)) items now hparsed) =
        (.staged false items.length (advanceNewsReceiptDigest (chainDigest (stagedReceipts r.id w.log)) kind
          (total kind (stagedReceipts r.id w.log)) items.length payloadHash), w') ∧
      Extends w w' r kind items := by
  have hchain := hw.replayed.chain r hr (hw.sound.contract r hr hstaging)
  have hreceipts := hw.recorded r.id
  obtain ⟨htotal, hdigest, -⟩ := progress_eq (l := stagedReceipts r.id w.log) hreceipts hchain
  have hwf := Json.wfItems_iff.1 hparsed
  generalize hoffset : total kind (stagedReceipts r.id w.log) = offset at hbound ⊢
  generalize hreceiptDigest : advanceNewsReceiptDigest (chainDigest (stagedReceipts r.id w.log)) kind offset
    items.length payloadHash = receiptDigest
  generalize hidentity : advanceNewsIdentityDigest ((w.state.progress r.id).identity kind) (items.map itemKey) =
    identityDigest
  have hrows : ∃ rows details, (kind = .index → rows = []) ∧
      (kind = .detail → newDetailRows w.state now items = some rows) ∧ w.state.details.insertAll rows = some details ∧
      ∀ row ∈ rows, kind = .detail ∧ ∃ item ∈ items, row.Holds item := by
    cases kind with
    | index => exact ⟨[], _, fun _ => rfl, (fun hkind => by cases hkind), Table.insertAll_nil _, fun _ hrow => absurd hrow List.not_mem_nil⟩
    | detail =>
      obtain ⟨hnodup, hagrees⟩ := hdetails rfl
      obtain ⟨rows, hrows, hsub, hnew⟩ := newDetailRows_eq now hagrees hwf
      obtain ⟨details, hdetails⟩ := Table.exists_insertAll (t := w.state.details) (hsub.nodup hnodup)
        fun d hd row hrow => Table.find?_eq_none_iff.1 (hnew row hrow).1 d hd
      exact ⟨rows, details, (fun hkind => by cases hkind), fun _ => hrows, hdetails,
        fun row hrow => ⟨rfl, (hnew row hrow).2⟩⟩
  obtain ⟨rows, details, hnone, hrows, hdetails, hholds⟩ := hrows
  obtain ⟨receipts, hinsert⟩ := @Table.exists_insertAll _ _ _ _ w.state.receipts
    [stagedReceipt r.id kind offset items payloadHash receiptDigest identityDigest now] (by simp) (by
      intro r' hr' row hrow hkey
      rw [List.mem_singleton.1 hrow] at hkey
      obtain ⟨hgen, hkind, hoff⟩ : r'.generation = r.id ∧ r'.kind = kind ∧ r'.offset = offset := by
        simpa [Receipt.key, stagedReceipt] using hkey
      have hmem : r' ∈ stagedReceipts r.id w.log := by
        rw [← List.mem_reverse, stagedReceipts, ← hreceipts]
        exact List.mem_filter.2 ⟨hr', by simpa using hgen⟩
      obtain ⟨hpos, hle⟩ := chain_le hchain r' hmem
      rw [hkind, hoffset, hoff] at hle
      omega)
  have hexec : Batch.exec (.stage r.id kind offset items payloadHash receiptDigest identityDigest rows now) w.state =
      some { w.state with details := details, receipts := receipts } := by
    simp only [Batch.exec, Store.stage, hdetails, hinsert]
    rfl
  have hland : land Batch.exec (.stage r.id kind offset items payloadHash receiptDigest identityDigest rows now) w =
      some ⟨{ w.state with details := details, receipts := receipts },
        .stage r.id kind offset items payloadHash receiptDigest identityDigest rows now :: w.log⟩ := by
    rw [land, hexec]
    rfl
  have hserve : serve w (.stage kind r.id offset items now hparsed) = (.staged false items.length receiptDigest,
      ⟨{ w.state with details := details, receipts := receipts },
        .stage r.id kind offset items payloadHash receiptDigest identityDigest rows now :: w.log⟩) := by
    have hbody : (!Text.isSha256Hex r.id || decide ((offset : ℤ) < 0) || decide (items.length < 1)
        || decide (maxBatchItems kind < items.length) || items.any fun item => !validItem kind item) = false := by
      have hpos := List.length_pos_of_ne_nil hne
      simp only [hid, Bool.or_eq_false_iff, decide_eq_false_iff_not, List.any_eq_false, Bool.not_true,
        not_lt, Bool.not_eq_true', Bool.not_eq_false]
      exact ⟨⟨⟨⟨trivial, by omega⟩, by omega⟩, hmax⟩, hvalid⟩
    have hfind : w.state.generations.find? r.id = some r := Table.find?_eq_some_iff.2 ⟨hr, rfl⟩
    show (stageNewsProjectionBatch kind r.id offset items now).run Batch.exec w = _
    unfold stageNewsProjectionBatch
    rw [if_neg (by rw [hbody]; exact Bool.false_ne_true), run_read, hfind]
    dsimp only
    rw [if_neg (by simp [hstaging]), run_read]
    dsimp only [Int.toNat_natCast]
    have hdetail : ¬ (decide (kind = .index) && decide ((w.state.progress r.id).nextDetailOffset ≠
        r.manifest.expectedDetailCount)) = true := by
      simp only [Bool.and_eq_true, decide_eq_true_eq, not_and, not_not]
      exact fun hkind => (htotal .detail).trans (hindex hkind)
    rw [if_neg hdetail, if_neg (by omega), hhash]
    dsimp only
    rw [htotal, hoffset, if_neg (lt_irrefl _), if_neg (by simp), hdigest, hreceiptDigest, hidentity]
    cases kind with
    | index =>
      obtain rfl := hnone rfl
      simp only [run, hland, if_true]
    | detail =>
      rw [run_read, hrows rfl]
      simp only [run, hland, if_true]
  refine ⟨_, hserve, ?_, rfl, rfl, rfl, ⟨stagedReceipt r.id kind offset items payloadHash receiptDigest identityDigest
    now, rfl, ?_⟩, fun d hd => ?_, fun d hd => ?_⟩
  · have horderly := orderly_run hw [.stage kind r.id offset items now hparsed]
    rw [Machine.run_cons, hserve] at horderly
    exact horderly
  · rw [staged, if_pos rfl]
  · exact (Table.mem_insertAll hdetails).2 (.inl hd)
  · exact ((Table.mem_insertAll hdetails).1 hd).imp id (hholds d)

/-! ## Activations -/

/-! ## Completeness -/

omit [Platform] in
theorem countP_duplicates_eq_zero {l : List String} : (l.dedup.countP fun c => 1 < l.count c) = 0 ↔ l.Nodup := by
  rw [List.countP_eq_zero, List.nodup_iff_count_le_one]
  constructor
  · intro h c
    by_cases hc : c ∈ l
    · simpa using h c (List.mem_dedup.2 hc)
    · rw [List.count_eq_zero_of_not_mem hc]
      exact Nat.zero_le 1
  · intro h c _
    simpa using h c

/-- What makes a replay complete, of its items. -/
structure Completed (w : World) (r : Generation) : Prop where
  totals : ∀ kind, total kind (stagedReceipts r.id w.log) = r.manifest.expected kind
  balanced : r.manifest.expectedDetailCount = r.manifest.expectedIndexCount
  details : ∀ item ∈ stagedItems r.id .index w.log, w.state.hasDetail (itemKey item) = true
  reviews : ∀ item ∈ stagedItems r.id .index w.log, reviewViolation (indexEntry item) = false
  clusters : ((stagedItems r.id .index w.log).map fun item => (indexEntry item).clusterId).Nodup
  identity : chainIdentity .detail (stagedReceipts r.id w.log) = chainIdentity .index (stagedReceipts r.id w.log)
  digest : chainDigest (stagedReceipts r.id w.log) = r.manifest.expectedReceiptDigest

omit [Platform] in
theorem complete_iff (hw : Orderly w) {r : Generation} (hr : r ∈ w.state.generations)
    (hcontract : r.manifest.contractVersion = .generation) :
    complete r.manifest (w.state.progress r.id) (w.state.projectionCounts r.id r.manifest.contractVersion) = true ↔
      Completed w r := by
  have hchain := hw.replayed.chain r hr hcontract
  obtain ⟨htotal, hdigest, hidentity⟩ := progress_eq (l := stagedReceipts r.id w.log) (hw.recorded r.id) hchain
  have hlength := total_staged (hw.replayed.accepted r.id) .index
  have hdetail : (w.state.progress r.id).nextDetailOffset = total .detail (stagedReceipts r.id w.log) := htotal .detail
  have hindex : (w.state.progress r.id).nextIndexOffset = total .index (stagedReceipts r.id w.log) := htotal .index
  have hdetailIdentity : (w.state.progress r.id).detailIdentityDigest = _ := hidentity .detail
  have hindexIdentity : (w.state.progress r.id).indexIdentityDigest = _ := hidentity .index
  simp only [complete, Bool.and_eq_true, decide_eq_true_eq, hdetail, hindex, hdetailIdentity, hindexIdentity, hdigest,
    Store.projectionCounts, hcontract, Store.projection, receiptItems_staged hw hr hcontract, List.length_map,
    List.countP_map, List.map_map, Nat.add_eq_zero_iff, countP_duplicates_eq_zero]
  constructor
  · rintro ⟨⟨⟨⟨⟨⟨⟨hd, hi⟩, hcount⟩, hitems⟩, hmissing⟩, hreviews, hclusters⟩, hids⟩, hreceipt⟩
    have hall : ∀ item ∈ stagedItems r.id .index w.log, w.state.hasDetail (itemKey item) = true := by
      intro item hitem
      simpa [indexEntry] using List.countP_eq_zero.1 hmissing item hitem
    refine ⟨fun kind => by cases kind <;> assumption, ?_, hall, fun item hitem => ?_, hclusters, hids, hreceipt⟩
    · rw [← hcount, ← hitems]
      exact List.countP_eq_length.2 hall
    · simpa using List.countP_eq_zero.1 hreviews item hitem
  · intro h
    have hitems : (stagedItems r.id .index w.log).length = r.manifest.expectedIndexCount :=
      hlength.symm.trans (h.totals .index)
    refine ⟨⟨⟨⟨⟨⟨⟨h.totals .detail, h.totals .index⟩, ?_⟩, hitems⟩, ?_⟩, ?_, h.clusters⟩, h.identity⟩, h.digest⟩
    · exact (List.countP_eq_length.2 h.details).trans (hitems.trans h.balanced.symm)
    · exact List.countP_eq_zero.2 fun item hitem => by simp [indexEntry, h.details item hitem]
    · exact List.countP_eq_zero.2 fun item hitem => by simp [h.reviews item hitem]

/-! ## Batches of a source -/

/-- A batch as a producer has it. -/
structure SourceBatch where
  kind : Kind
  items : List Json
  parsed : (Json.arr items).WF = true

structure SourceBatch.Formed (b : SourceBatch) : Prop where
  nonempty : b.items ≠ []
  size : b.items.length ≤ maxBatchItems b.kind
  valid : ∀ item ∈ b.items, validItem b.kind item = true
  hash : ∃ payloadHash, newsProjectionPayloadHash (.arr b.items) = some payloadHash
  keys : b.kind = .detail → (b.items.map itemKey).Nodup

/-- The requests that stage some batches, each where the ones before it end. -/
def stageRequests (g : String) (clock : Kind → ℕ → ℤ) : ℕ → ℕ → List SourceBatch → List Request
  | _, _, [] => []
  | d, i, b :: bs => match b.kind with
    | .detail => .stage .detail g d b.items (clock .detail d) b.parsed ::
        stageRequests g clock (d + b.items.length) i bs
    | .index => .stage .index g i b.items (clock .index i) b.parsed ::
        stageRequests g clock d (i + b.items.length) bs

/-- The batches fit into what a manifest expects, and no index batch comes
    before the last detail. -/
def Fits (m : Manifest) : ℕ → ℕ → List SourceBatch → Prop
  | _, _, [] => True
  | d, i, b :: bs => match b.kind with
    | .detail => d + b.items.length ≤ m.expectedDetailCount ∧ Fits m (d + b.items.length) i bs
    | .index => d = m.expectedDetailCount ∧ i + b.items.length ≤ m.expectedIndexCount ∧
        Fits m d (i + b.items.length) bs

/-- The batches that a log staged of a generation, newest first. -/
def sent (g : String) (log : List Batch) : List (Kind × List Json) :=
  (staged g log).map fun b => (b.1.kind, b.2)

/-- The items of a kind among some batches, newest first, in order. -/
def sentItems (kind : Kind) (l : List (Kind × List Json)) : List Json :=
  (l.reverse.filter fun b => b.1 = kind).flatMap (·.2)

/-- The digest of the receipts of some batches, newest first. -/
def sentDigest : List (Kind × List Json) → String
  | [] => EMPTY_RECEIPT_DIGEST
  | b :: l => advanceNewsReceiptDigest (sentDigest l) b.1 (sentItems b.1 l).length b.2.length
      ((newsProjectionPayloadHash (.arr b.2)).getD "")

omit [Platform] in
theorem stagedItems_eq (g : String) (kind : Kind) (log : List Batch) :
    stagedItems g kind log = sentItems kind (sent g log) := by
  rw [stagedItems, sentItems, sent, ← List.map_reverse, List.filter_map, List.flatMap_map]
  rfl

omit [Platform] in
theorem chainDigest_sent {m : Manifest} {g : String} {log : List Batch} (hchain : Chain m (stagedReceipts g log))
    (haccepted : ∀ b ∈ staged g log, Accepted g b) :
    chainDigest (stagedReceipts g log) = sentDigest (sent g log) := by
  have htotal : ∀ l : List (Receipt × List Json), (∀ b ∈ l, Accepted g b) → ∀ kind,
      total kind (l.map (·.1)) = (sentItems kind (l.map fun b => (b.1.kind, b.2))).length := by
    intro l hl kind
    induction l with
    | nil => rfl
    | cons b l ih =>
      have hcount := (hl b List.mem_cons_self).count
      rw [List.map_cons, total, ih fun b hb => hl b (List.mem_cons_of_mem _ hb), List.map_cons, sentItems, sentItems,
        List.reverse_cons, List.filter_append, List.flatMap_append, List.length_append]
      by_cases hkind : b.1.kind = kind <;> simp [hkind, hcount]
  rw [stagedReceipts, sent] at *
  generalize staged g log = l at hchain haccepted ⊢
  induction l with
  | nil => rfl
  | cons b l ih =>
    obtain ⟨hlinks, hl⟩ := hchain
    have hb := haccepted b List.mem_cons_self
    have hrest := fun b hb => haccepted b (List.mem_cons_of_mem _ hb)
    rw [List.map_cons, chainDigest, List.map_cons, sentDigest, hlinks.digest, ih hl hrest, hlinks.offset,
      htotal l hrest, hb.count, hb.hash]
    rfl

def SourceBatch.sent (b : SourceBatch) : Kind × List Json := (b.kind, b.items)

/-- The details of some batches. -/
def detailItems (bs : List SourceBatch) : List Json := (bs.filter fun b => b.kind = .detail).flatMap (·.items)

omit [Platform] in
theorem mem_detailItems {bs : List SourceBatch} {item : Json} :
    item ∈ detailItems bs ↔ ∃ b ∈ bs, b.kind = .detail ∧ item ∈ b.items := by
  simp [detailItems, and_assoc]

omit [Platform] in
theorem sentItems_source (kind : Kind) (bs : List SourceBatch) :
    sentItems kind (bs.map (·.sent)).reverse = (bs.filter fun b => b.kind = kind).flatMap (·.items) := by
  rw [sentItems, List.reverse_reverse, List.filter_map, List.flatMap_map]
  rfl

/-- What some accepted batches leave. -/
structure Advanced (w w' : World) (r : Generation) (bs : List SourceBatch) : Prop where
  orderly : Orderly w'
  generations : w'.state.generations = w.state.generations
  index : w'.state.index = w.state.index
  state : w'.state.state = w.state.state
  sent : sent r.id w'.log = (bs.map (·.sent)).reverse ++ sent r.id w.log
  kept : ∀ d ∈ w.state.details, d ∈ w'.state.details

omit [Platform] in
theorem Agrees.extend {w' : World} {r : Generation} {kind : Kind} {items items' : List Json}
    (h : Extends w w' r kind items) (hagrees : Agrees w.state items')
    (hsame : kind = .detail → ∀ item ∈ items, ∀ item' ∈ items', itemKey item = itemKey item' → item = item') :
    Agrees w'.state items' := by
  intro item' hitem' d hd hkey
  rcases h.new d hd with hd | ⟨hkind, item, hitem, hholds⟩
  · exact hagrees item' hitem' d hd hkey
  · exact hsame hkind item hitem item' hitem' (hholds.key.symm.trans hkey) ▸ hholds

/-- **The batches of a source are accepted, one after the other.** -/
theorem exists_stages (hw : Orderly w) {r : Generation} (hr : r ∈ w.state.generations)
    (hstaging : r.state = .staging) (hid : Text.isSha256Hex r.id = true) (clock : Kind → ℕ → ℤ)
    {bs : List SourceBatch} (hformed : ∀ b ∈ bs, b.Formed)
    (hsame : ∀ item ∈ detailItems bs, ∀ item' ∈ detailItems bs, itemKey item = itemKey item' → item = item')
    (hagrees : Agrees w.state (detailItems bs)) {d i : ℕ} (hd : total .detail (stagedReceipts r.id w.log) = d)
    (hi : total .index (stagedReceipts r.id w.log) = i) (hfits : Fits r.manifest d i bs) :
    Advanced w (Machine.run serve w (stageRequests r.id clock d i bs)) r bs := by
  induction bs generalizing w d i with
  | nil => exact ⟨hw, rfl, rfl, rfl, rfl, fun _ hd => hd⟩
  | cons b bs ih =>
    obtain ⟨kind, items, hparsed⟩ := b
    have hb := hformed _ List.mem_cons_self
    obtain ⟨payloadHash, hhash⟩ := hb.hash
    have hstep : ∃ w', serve w (.stage kind r.id (total kind (stagedReceipts r.id w.log)) items
          (clock kind (total kind (stagedReceipts r.id w.log))) hparsed) =
        (.staged false items.length (advanceNewsReceiptDigest (chainDigest (stagedReceipts r.id w.log)) kind
          (total kind (stagedReceipts r.id w.log)) items.length payloadHash), w') ∧
      Extends w w' r kind items := by
      refine exists_stage hw hr hstaging hid _ hb.nonempty hb.size hb.valid hparsed hhash ?_ ?_ ?_
      · cases kind with
        | detail => exact hd ▸ hfits.1
        | index => exact hi ▸ hfits.2.1
      · rintro rfl
        exact hd.trans hfits.1
      · rintro rfl
        exact ⟨hb.keys rfl, fun item hitem =>
          hagrees item (mem_detailItems.2 ⟨_, List.mem_cons_self, rfl, hitem⟩)⟩
    obtain ⟨w', hserve, hextends⟩ := hstep
    obtain ⟨receipt, hkind, hstaged⟩ := hextends.staged
    have hcount : receipt.itemCount = items.length :=
      (hextends.orderly.replayed.accepted r.id _ (hstaged ▸ List.mem_cons_self)).count
    have htotal : ∀ kind', total kind' (stagedReceipts r.id w'.log) =
        if kind = kind' then total kind' (stagedReceipts r.id w.log) + items.length
        else total kind' (stagedReceipts r.id w.log) := fun kind' => by
      rw [stagedReceipts, hstaged, List.map_cons, total, hkind, hcount]
      rfl
    have hrest : ∀ item ∈ detailItems bs, item ∈ detailItems (⟨kind, items, hparsed⟩ :: bs) := by
      intro item hitem
      obtain ⟨b, hb, hkind, hitem⟩ := mem_detailItems.1 hitem
      exact mem_detailItems.2 ⟨b, List.mem_cons_of_mem _ hb, hkind, hitem⟩
    have hagrees' : Agrees w'.state (detailItems bs) := by
      refine Agrees.extend hextends (fun item hitem => hagrees item (hrest item hitem)) ?_
      rintro rfl item hitem item' hitem' hkey
      exact hsame item (mem_detailItems.2 ⟨_, List.mem_cons_self, rfl, hitem⟩) item' (hrest item' hitem') hkey
    have hbs := fun d' i' hd' hi' hfits' => ih hextends.orderly (hextends.generations ▸ hr)
      (fun b hb => hformed b (List.mem_cons_of_mem _ hb))
      (fun item hitem item' hitem' => hsame item (hrest item hitem) item' (hrest item' hitem'))
      hagrees' (d := d') (i := i') hd' hi' hfits'
    have hadvanced : Advanced w' (Machine.run serve w (stageRequests r.id clock d i (⟨kind, items, hparsed⟩ :: bs)))
        r bs := by
      cases kind with
      | detail =>
        rw [stageRequests, Machine.run_cons, ← hd, hserve]
        refine hbs _ _ ?_ ?_ (hd ▸ hfits.2)
        · rw [htotal, if_pos rfl]
        · rw [htotal, if_neg (by simp), hi]
      | index =>
        rw [stageRequests, Machine.run_cons, ← hi, hserve]
        refine hbs _ _ ?_ ?_ (hi ▸ hfits.2.2)
        · rw [htotal, if_neg (by simp), hd]
        · rw [htotal, if_pos rfl]
    refine ⟨hadvanced.orderly, hadvanced.generations.trans hextends.generations,
      hadvanced.index.trans hextends.index, hadvanced.state.trans hextends.state, ?_,
      fun d hd => hadvanced.kept d (hextends.kept d hd)⟩
    rw [hadvanced.sent, sent, sent, hstaged]
    simp [SourceBatch.sent, hkind]

/-- A source that completes what a log has staged. -/
structure Completes (m : Manifest) (l : List (Kind × List Json)) : Prop where
  totals : ∀ kind, (sentItems kind l).length = m.expected kind
  reviews : ∀ item ∈ sentItems .index l, reviewViolation (indexEntry item) = false
  clusters : ((sentItems .index l).map fun item => (indexEntry item).clusterId).Nodup
  keys : (sentItems .detail l).map itemKey = (sentItems .index l).map itemKey
  digest : sentDigest l = m.expectedReceiptDigest

omit [Platform] in
theorem completed_of_completes (hw : Orderly w) {r : Generation} (hr : r ∈ w.state.generations)
    (hstaging : r.state = .staging) (h : Completes r.manifest (sent r.id w.log)) : Completed w r := by
  have hchain := hw.replayed.chain r hr (hw.sound.contract r hr hstaging)
  have haccepted := hw.replayed.accepted r.id
  have hidentity : ∀ kind, chainIdentity kind (stagedReceipts r.id w.log) =
      advanceNewsIdentityDigest EMPTY_RECEIPT_DIGEST ((sentItems kind (sent r.id w.log)).map itemKey) := fun kind => by
    rw [← chain_identity hchain, identityKeys_staged haccepted, stagedItems_eq]
  have hbalanced : r.manifest.expectedDetailCount = r.manifest.expectedIndexCount := by
    have hlength := congrArg List.length h.keys
    rw [List.length_map, List.length_map, h.totals, h.totals] at hlength
    exact hlength
  refine ⟨fun kind => ?_, hbalanced, fun item hitem => ?_, fun item hitem => ?_, ?_, ?_, ?_⟩
  · rw [total_staged haccepted, stagedItems_eq, h.totals]
  · rw [stagedItems_eq] at hitem
    obtain ⟨detail, hdetail, hkey⟩ := List.mem_map.1 (h.keys ▸ List.mem_map_of_mem hitem)
    rw [← stagedItems_eq] at hdetail
    obtain ⟨b, hb, hkind, hdetail⟩ := mem_stagedItems.1 hdetail
    obtain ⟨d, hd, hholds⟩ := hw.replayed.details r hr hstaging b hb hkind detail hdetail
    rw [Store.hasDetail, Table.find?_eq_some_iff.2 ⟨hd, hholds.key.trans hkey⟩]
    rfl
  · exact h.reviews item (stagedItems_eq _ _ _ ▸ hitem)
  · rw [stagedItems_eq]
    exact h.clusters
  · rw [hidentity, hidentity, h.keys]
  · rw [chainDigest_sent hchain haccepted, h.digest]

/-- **A complete staging generation is activated.** -/
theorem exists_activate (hw : Orderly w) {r : Generation} (hr : r ∈ w.state.generations)
    (hstaging : r.state = .staging) (hid : Text.isSha256Hex r.id = true) (now : ℤ)
    (hcomplete : complete r.manifest (w.state.progress r.id)
      (w.state.projectionCounts r.id r.manifest.contractVersion) = true) :
    ∃ w', serve w (.activate r.id now) = (.activated r.id false r.manifest.expectedIndexCount
        r.manifest.expectedDetailCount, w') ∧ Orderly w' ∧
      land Batch.exec (.activate r.manifest (w.state.progress r.id) (w.state.receiptItems r.id) now) w = some w' := by
  have hentries : ∀ e ∈ (w.state.receiptItems r.id).map indexEntry, e.category ≠ "" := by
    intro e he
    obtain ⟨item, hitem, rfl⟩ := List.mem_map.1 he
    exact category_of_validIndex (Store.valid_receiptItems hw.served.receipts hitem)
  obtain ⟨counts, hcounts⟩ := Table.exists_insertAll (t := w.state.counts)
    (nodup_newsProjectionCounts (g := r.id) hentries) (by
      intro c hc c' hc' hkey
      obtain ⟨r', hr', hid', hne⟩ := hw.replayed.counts c hc
      have hgen : c.generation = r.id := (congrArg (·.1) hkey).trans (generation_of_counts hc')
      rw [w.state.generations.eq_of_key_eq hr' hr (hid'.trans hgen)] at hne
      exact hne hstaging)
  obtain ⟨w', hland⟩ : ∃ w', land Batch.exec
      (.activate r.manifest (w.state.progress r.id) (w.state.receiptItems r.id) now) w = some w' := by
    simp only [land, Batch.exec, Store.activate, show r.manifest.generationId = r.id from rfl, hcounts,
      Option.map_some]
    exact ⟨_, rfl⟩
  have hserve : serve w (.activate r.id now) = (.activated r.id false r.manifest.expectedIndexCount
      r.manifest.expectedDetailCount, w') := by
    have hnone : w.state.state.filter (fun st => decide (st.activeGenerationId = r.id ∧
        st.projectionState = .current)) = none := by
      rw [Option.filter_eq_none_iff]
      intro st hst
      obtain ⟨r', hr', hid', hcurrent, -⟩ := hw.sound.active st hst
      simp only [decide_eq_true_eq, not_and]
      intro hactive
      rw [w.state.generations.eq_of_key_eq hr' hr (hid'.trans hactive), hstaging] at hcurrent
      cases hcurrent
    have hfind : w.state.generations.find? r.id = some r := Table.find?_eq_some_iff.2 ⟨hr, rfl⟩
    show (activateNewsProjection r.id now).run Batch.exec w = _
    unfold activateNewsProjection
    rw [if_neg (by simp [hid]), run_read, hnone, run_read, hfind]
    dsimp only
    rw [if_neg (by simp [hstaging]), run_read, run_read, if_neg (by simp [hcomplete])]
    simp only [run, hland, if_true]
  refine ⟨w', hserve, ?_, hland⟩
  have horderly := orderly_run hw [.activate r.id now]
  rw [Machine.run_cons, hserve] at horderly
  exact horderly

/-- **Batches that complete a replay, and its activation, succeed.** -/
theorem exists_replay (hw : Orderly w) {r : Generation} (hr : r ∈ w.state.generations) (hstaging : r.state = .staging)
    (hid : Text.isSha256Hex r.id = true) (clock : Kind → ℕ → ℤ) (now : ℤ) {bs : List SourceBatch}
    (hformed : ∀ b ∈ bs, b.Formed)
    (hsame : ∀ item ∈ detailItems bs, ∀ item' ∈ detailItems bs, itemKey item = itemKey item' → item = item')
    (hagrees : Agrees w.state (detailItems bs)) {d i : ℕ} (hd : total .detail (stagedReceipts r.id w.log) = d)
    (hi : total .index (stagedReceipts r.id w.log) = i) (hfits : Fits r.manifest d i bs)
    (hcompletes : Completes r.manifest ((bs.map (·.sent)).reverse ++ sent r.id w.log)) :
    ∃ w', serve (Machine.run serve w (stageRequests r.id clock d i bs)) (.activate r.id now) =
        (.activated r.id false r.manifest.expectedIndexCount r.manifest.expectedDetailCount, w') ∧ Orderly w' ∧
      sent r.id w'.log = (bs.map (·.sent)).reverse ++ sent r.id w.log ∧
      (∃ r' ∈ w'.state.generations, r'.manifest = r.manifest ∧ r'.state = .current) ∧
      ∃ st, w'.state.state = some st ∧ st.activeGenerationId = r.id ∧ st.projectionState = .current := by
  have hadvanced := exists_stages hw hr hstaging hid clock hformed hsame hagrees hd hi hfits
  generalize Machine.run serve w (stageRequests r.id clock d i bs) = w₁ at hadvanced
  have hr₁ : r ∈ w₁.state.generations := hadvanced.generations ▸ hr
  have hcomplete := (complete_iff hadvanced.orderly hr₁ (hadvanced.orderly.sound.contract r hr₁ hstaging)).2
    (completed_of_completes hadvanced.orderly hr₁ hstaging (hadvanced.sent ▸ hcompletes))
  obtain ⟨w', hserve, horderly, hland⟩ := exists_activate hadvanced.orderly hr₁ hstaging hid now hcomplete
  obtain ⟨hexec, hlog⟩ := land_eq_some hland
  refine ⟨w', hserve, horderly, ?_, ⟨_, (Store.mem_generations_activate hexec).2 ⟨r, hr₁, rfl⟩,
    Store.manifest_afterActivation _ _ _, ?_⟩, ?_⟩
  · rw [hlog, ← hadvanced.sent]
    rfl
  · have hpub : r.id = r.manifest.generationId ∧ r.state = .staging := ⟨rfl, hstaging⟩
    rw [Store.afterActivation, if_pos hpub]
    rfl
  · obtain ⟨_, -, hstate⟩ := Option.map_eq_some_iff.1 hexec
    exact ⟨_, congrArg Store.state hstate.symm, rfl, rfl⟩

/-! ## Preparations -/

/-- **A new generation is prepared** where none is staging. -/
theorem exists_prepare (hw : Orderly w) {raw : Json} {m : Manifest} (hm : validateNewsProjectionManifest raw = some m)
    (now : ℤ) (hnone : ∀ r ∈ w.state.generations, r.state ≠ .staging)
    (hnew : ∀ r ∈ w.state.generations, r.id ≠ m.generationId) :
    ∃ w', serve w (.prepare raw now) = (.prepared false m.generationId 0 0 (some EMPTY_RECEIPT_DIGEST), w') ∧
      Orderly w' ∧ land Batch.exec (.openGeneration w.state.supersededIds m now) w = some w' := by
  obtain ⟨generations, hgenerations⟩ := @Table.exists_insertAll _ _ _ _
    (w.state.supersededIds.foldl Store.deleteGeneration w.state).generations
    [⟨m, .staging, now, none⟩] (by simp) (by
      intro r hr r' hr' hkey
      rw [List.mem_singleton.1 hr'] at hkey
      exact hnew r (Store.mem_generations_cleanup.1 hr).1 hkey)
  obtain ⟨w', hland⟩ : ∃ w', land Batch.exec (.openGeneration w.state.supersededIds m now) w = some w' := by
    simp only [land, Batch.exec, Store.openGeneration, hgenerations, Option.map_some]
    exact ⟨_, rfl⟩
  have hserve : serve w (.prepare raw now) =
      (.prepared false m.generationId 0 0 (some EMPTY_RECEIPT_DIGEST), w') := by
    have hinactive : ((w.state.state.map (alreadyActive · m)).getD false) = false := by
      cases hst : w.state.state with
      | none => rfl
      | some st =>
        obtain ⟨r, hr, hid, -⟩ := hw.sound.active st hst
        have hne : st.activeGenerationId ≠ m.generationId := hid ▸ hnew r hr
        simp [alreadyActive, hne]
    have hfind : w.state.generations.find? m.generationId = none := Table.find?_eq_none_iff.2 hnew
    have hfirst : w.state.firstStaging = none := by
      cases hfirst : w.state.firstStaging with
      | none => rfl
      | some r => exact absurd (firstStaging_mem hfirst).2 (hnone r (firstStaging_mem hfirst).1)
    show (prepareNewsProjection raw now).run Batch.exec w = _
    unfold prepareNewsProjection
    rw [hm]
    dsimp only
    rw [run_read, hinactive, if_neg Bool.false_ne_true, run_read, hfind]
    dsimp only [openNewsProjection]
    rw [run_read, hfirst]
    dsimp only
    rw [run_read, List.nil_append]
    simp only [run, hland, if_true]
  refine ⟨w', hserve, ?_, hland⟩
  have horderly := orderly_run hw [.prepare raw now]
  rw [Machine.run_cons, hserve] at horderly
  exact horderly

omit [Platform] in
/-- What a cleanup keeps of the details, it agrees with. -/
theorem agrees_cleanup {s : Store} {items : List Json} (h : Agrees s items) (cleanup : List String) :
    Agrees (cleanup.foldl Store.deleteGeneration s) items := by
  induction cleanup generalizing s with
  | nil => exact h
  | cons g cleanup ih => exact ih fun item hitem d hd => h item hitem d (Table.mem_delete.1 hd).1

/-- **A full replay of a new generation succeeds**: its preparation, its batches
    and its activation. -/
theorem exists_full_replay (hw : Orderly w) {raw : Json} {m : Manifest} (hm : validateNewsProjectionManifest raw = some m)
    (hid : Text.isSha256Hex m.generationId = true) (hnone : ∀ r ∈ w.state.generations, r.state ≠ .staging)
    (hnew : ∀ r ∈ w.state.generations, r.id ≠ m.generationId) (clock : Kind → ℕ → ℤ) (now now' : ℤ)
    {bs : List SourceBatch} (hformed : ∀ b ∈ bs, b.Formed)
    (hsame : ∀ item ∈ detailItems bs, ∀ item' ∈ detailItems bs, itemKey item = itemKey item' → item = item')
    (hagrees : Agrees w.state (detailItems bs)) (hfits : Fits m 0 0 bs)
    (hcompletes : Completes m (bs.map (·.sent)).reverse) :
    ∃ w', serve (Machine.run serve w (.prepare raw now :: stageRequests m.generationId clock 0 0 bs))
        (.activate m.generationId now') =
        (.activated m.generationId false m.expectedIndexCount m.expectedDetailCount, w') ∧ Orderly w' ∧
      sent m.generationId w'.log = (bs.map (·.sent)).reverse ∧
      ∃ r ∈ w'.state.generations, r.manifest = m ∧ r.state = .current := by
  obtain ⟨w₁, hprepare, horderly, hland⟩ := exists_prepare hw hm now hnone hnew
  obtain ⟨hexec, hlog⟩ := land_eq_some hland
  have hr : (⟨m, .staging, now, none⟩ : Generation) ∈ w₁.state.generations :=
    (Store.mem_generations_open hexec).2 (.inr rfl)
  have hstaged : staged m.generationId w₁.log = [] := by
    rw [hlog, staged, hw.replayed.orphan _ hnew]
    exact ite_self []
  have hagrees₁ : Agrees w₁.state (detailItems bs) := by
    obtain ⟨_, -, hstate⟩ := Option.map_eq_some_iff.1 hexec
    rw [← hstate]
    exact agrees_cleanup hagrees _
  have htotal : ∀ kind, total kind (stagedReceipts m.generationId w₁.log) = 0 := fun kind => by
    rw [stagedReceipts, hstaged]
    rfl
  have hsent : sent m.generationId w₁.log = [] := by
    rw [sent, hstaged]
    rfl
  obtain ⟨w', hserve, horderly', hsent', hcurrent, -⟩ := exists_replay horderly hr rfl hid clock now' hformed hsame
    hagrees₁ (htotal .detail) (htotal .index) hfits (by
      rw [show (⟨m, .staging, now, none⟩ : Generation).id = m.generationId from rfl, hsent, List.append_nil]
      exact hcompletes)
  refine ⟨w', ?_, horderly', ?_, hcurrent⟩
  · rw [Machine.run_cons, hprepare]
    exact hserve
  · exact hsent'.trans (by rw [show (⟨m, .staging, now, none⟩ : Generation).id = m.generationId from rfl, hsent,
      List.append_nil])

end

end Xauusd.Projection
