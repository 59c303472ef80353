/-
  Staging beside the archive that is served.

  * `Backed w`: every row that is served has its detail, in every run;
  * `Undisturbed g w w'`: the state row, the counts of `g`, the rows that are
    served and their details are the same;
  * `undisturbed_serve`: **no preparation, staged batch or abandonment changes
    what is served**;
  * `duplicate_serve`, `contradiction_serve`: what a batch is answered that
    starts below the next offset.
-/
import Xauusd.Projection.Resume
import Xauusd.Projection.Replica

namespace Xauusd.Projection

open Program

/-! ## Served details -/

def Backed (w : World) : Prop := ∀ key, (w.state.activeAt key).isSome = true → w.state.hasDetail key = true

theorem hasDetail_of_mem {s : Store} {d : DetailRow} (hd : d ∈ s.details) : s.hasDetail d.detailKey = true := by
  rw [Store.hasDetail, Table.find?_eq_some_iff.2 ⟨hd, rfl⟩]
  rfl

theorem exists_of_hasDetail {s : Store} {key : String} (h : s.hasDetail key = true) :
    ∃ d ∈ s.details, d.detailKey = key := by
  obtain ⟨d, hd⟩ := Option.isSome_iff_exists.1 h
  exact ⟨d, Table.find?_eq_some_iff.1 hd⟩

section
variable [Platform] {w w' : World} {b : Batch}

/-- The rows that are served stay, and so do their details. -/
theorem backed_of_kept (hfresh : Fresh w b) (hw : Backed w) (h : land Batch.exec b w = some w')
    (hrows : w'.state.activeRows = w.state.activeRows) : Backed w' := by
  intro key hkey
  rw [Store.activeAt_congr hrows] at hkey
  obtain ⟨d, hd, rfl⟩ := exists_of_hasDetail (hw key hkey)
  exact hasDetail_of_mem (kept_land hfresh h d hd (.inl hkey))

theorem backed_land (hb : b.Formed) (htimely : Timely w b) (horderly : Orderly w) (hw : Backed w)
    (h : land Batch.exec b w = some w') : Backed w' := by
  have hfresh := fresh_of_timely horderly.sound htimely
  have hserved := served_land hb (counted_of_fresh horderly.sound hfresh) horderly.served h
  have hkept := backed_of_kept hfresh hw h
  obtain ⟨hexec, hlog⟩ := land_eq_some h
  cases b with
  | deleteGeneration g =>
    refine hkept ?_
    rw [← Option.some.inj hexec, Store.activeRows_deleteGeneration]
  | openGeneration cleanup m now => exact hkept (Store.activeRows_open hexec)
  | stage g kind offset items payloadHash receiptDigest identityDigest rows now =>
    exact hkept (Store.activeRows_stage hexec)
  | activate m progress counted now =>
    obtain ⟨⟨r, hr, rfl, hstaging⟩, rfl, rfl, hcomplete⟩ := htimely
    simp only [complete, Bool.and_eq_true, decide_eq_true_eq, Store.projectionCounts, Store.projection,
      horderly.sound.contract r hr hstaging, List.countP_map, List.countP_eq_zero] at hcomplete
    intro key hkey
    rw [hserved.archive, hlog, archive, Option.isSome_map] at hkey
    obtain ⟨item, hitem, rfl⟩ := List.mem_map.1 (Store.key_mem_of_lastItem.1 hkey)
    have hdetail : w.state.hasDetail (itemKey item) = true := by
      have hmissing := hcomplete.1.1.1.2 item hitem
      simp only [Function.comp_apply, Bool.not_eq_true, Bool.not_eq_false'] at hmissing
      exact hmissing
    obtain ⟨_, -, hstate⟩ := Option.map_eq_some_iff.1 hexec
    rw [← hstate]
    exact hdetail
  | verify g missing violations current now =>
    refine hkept ?_
    rw [← Option.some.inj hexec]
    rfl
  | delta d serialized now =>
    have hpatched := Store.applyDelta_eq_some hexec
    have hmembership := hpatched.membership
    simp only [Store.completeMembership, Bool.and_eq_true, List.all_eq_true] at hmembership
    intro key hkey
    obtain ⟨e, he⟩ := Option.isSome_iff_exists.1 hkey
    obtain ⟨r, hr, -, rfl⟩ := Store.exists_of_activeAt he
    rw [Store.activeRows, hpatched.index] at hr
    exact (hmembership.2 r hr).2

theorem backed_run (requests : List Request) :
    Orderly (Machine.run serve World.empty requests) ∧ Backed (Machine.run serve World.empty requests) :=
  serve_invariant (I := fun w => Orderly w ∧ Backed w) (D := fun _ => True) (fun r _ => r.sends_formed)
    (fun r _ hw => r.commits_timely hw.1.sound)
    (fun _ _ _ hb htimely hw h => ⟨orderly_land hb htimely hw.1 h, backed_land hb htimely hw.1 hw.2 h⟩)
    ⟨orderly_empty, fun _ hkey => nomatch hkey⟩ fun _ _ => trivial

end

/-! ## What staging leaves -/

structure Undisturbed (g : String) (w w' : World) : Prop where
  state : w'.state.state = w.state.state
  counts : w'.state.counts.rows.filter (fun c => c.generation = g) =
    w.state.counts.rows.filter fun c => c.generation = g
  index : w'.state.activeRows = w.state.activeRows
  details : ∀ d, (w.state.activeAt d.detailKey).isSome = true → (d ∈ w'.state.details ↔ d ∈ w.state.details)

theorem undisturbed_refl (g : String) (w : World) : Undisturbed g w w := ⟨rfl, rfl, rfl, fun _ _ => .rfl⟩

theorem Undisturbed.trans {g : String} {w w₁ w₂ : World} (h : Undisturbed g w w₁) (h' : Undisturbed g w₁ w₂) :
    Undisturbed g w w₂ where
  state := h'.state.trans h.state
  counts := h'.counts.trans h.counts
  index := h'.index.trans h.index
  details := fun d hd => (h'.details d (by rw [Store.activeAt_congr h.index]; exact hd)).trans (h.details d hd)

/-- A batch that opens, fills or deletes a generation. -/
def Batch.publishes : Batch → Bool
  | activate .. | verify .. | delta .. => true
  | _ => false

/-- A cleanup only ever takes details away. -/
theorem mem_details_of_cleanup {s : Store} {cleanup : List String} {d : DetailRow}
    (hd : d ∈ (cleanup.foldl Store.deleteGeneration s).details) : d ∈ s.details := by
  induction cleanup generalizing s with
  | nil => exact hd
  | cons g cleanup ih => exact (Table.mem_delete.1 (ih hd)).1

section
variable [Platform] {w w' : World} {b : Batch} {g : String}

theorem undisturbed_land (hpublishes : b.publishes = false) (htimely : Timely w b) (horderly : Orderly w)
    (hw : Backed w) {st : StateRow} (hst : w.state.state = some st) (h : land Batch.exec b w = some w') :
    Undisturbed st.activeGenerationId w w' := by
  have hfresh := fresh_of_timely horderly.sound htimely
  have hkept := fun d hserved hd => kept_land hfresh h d hd (.inl hserved)
  obtain ⟨r, hr, hid, hcurrent, -⟩ := horderly.sound.active st hst
  obtain ⟨hexec, -⟩ := land_eq_some h
  cases b with
  | deleteGeneration g =>
    have hstate := Option.some.inj hexec
    have hout : st.activeGenerationId ∉ [g] := by
      rw [List.mem_singleton, ← hid]
      exact fun hg => (hfresh r hr).1 hg hcurrent
    refine ⟨?_, ?_, ?_, fun d hd => ⟨fun hd' => ?_, hkept d hd⟩⟩
    · rw [← hstate]
      rfl
    · rw [← hstate]
      exact @Store.counts_cleanup _ [g] _ hout
    · rw [← hstate, Store.activeRows_deleteGeneration]
    · rw [← hstate] at hd'
      exact @mem_details_of_cleanup _ [g] _ hd'
  | openGeneration cleanup m now =>
    have hout : st.activeGenerationId ∉ cleanup := hid ▸ fun hmem => (hfresh r hr).1 hmem hcurrent
    refine ⟨?_, ?_, Store.activeRows_open hexec, fun d hd => ⟨fun hd' => ?_, hkept d hd⟩⟩
    all_goals obtain ⟨_, -, hstate⟩ := Option.map_eq_some_iff.1 hexec
    · rw [← hstate]
      exact Store.state_cleanup w.state cleanup
    · rw [← hstate]
      exact Store.counts_cleanup hout
    · rw [← hstate] at hd'
      exact mem_details_of_cleanup hd'
  | stage g kind offset items payloadHash receiptDigest identityDigest rows now =>
    have hindex := Store.activeRows_stage hexec
    obtain ⟨_, _, hdetails, -, hstate⟩ := Store.stage_eq_some hexec
    refine ⟨by rw [hstate], by rw [hstate], hindex, fun d hd => ⟨fun hd' => ?_, hkept d hd⟩⟩
    rw [hstate] at hd'
    refine ((Table.mem_insertAll hdetails).1 hd').resolve_right fun hnew => ?_
    obtain ⟨d', hstored, hkey⟩ := exists_of_hasDetail (hw _ hd)
    exact (Table.new_of_insertAll hdetails).2 d' hstored d hnew hkey
  | _ => cases hpublishes

/-- A request that opens, fills or ends a replay. -/
def Request.isStaging : Request → Bool
  | prepare .. | stage .. | abandon .. => true
  | _ => false

theorem Request.sends_staging {r : Request} (hr : r.isStaging = true) :
    r.program.Sends fun b => b.Formed ∧ b.publishes = false := by
  cases r with
  | prepare raw now => exact prepare_sends (fun _ => ⟨trivial, rfl⟩) fun _ _ hm => ⟨hm, rfl⟩
  | stage kind g offset items now parsed =>
    refine (stage_sends kind g offset now parsed).mono fun b hb => ⟨Batch.formed_of_replays hb.1, ?_⟩
    cases b with
    | stage => rfl
    | _ => exact nomatch hb.2
  | abandon g => exact abandon_sends ⟨trivial, rfl⟩
  | _ => cases hr

/-- **No preparation, staged batch or abandonment changes what is served.** -/
theorem undisturbed_serve {r : Request} (hr : r.isStaging = true) (horderly : Orderly w) (hw : Backed w)
    {st : StateRow} (hst : w.state.state = some st) : Undisturbed st.activeGenerationId w (serve w r).2 := by
  refine (run_invariant (I := fun w' => (Orderly w' ∧ Backed w') ∧ Undisturbed st.activeGenerationId w w')
    (C := Timely) (fun b w₁ w₂ hb htimely hw₁ h => ?_) (Request.sends_staging hr) (r.commits_timely horderly.sound)
    ⟨⟨horderly, hw⟩, undisturbed_refl _ w⟩).2
  obtain ⟨⟨horderly₁, hbacked₁⟩, hkept⟩ := hw₁
  have hst₁ : w₁.state.state = some st := hkept.state.trans hst
  exact ⟨⟨orderly_land hb.1 htimely horderly₁ h, backed_land hb.1 htimely horderly₁ hbacked₁ h⟩,
    hkept.trans (undisturbed_land hb.2 htimely horderly₁ hbacked₁ hst₁ h)⟩

end

/-! ## Batches below the next offset -/

/-- The staged batch is one that the generation has accepted, up to the order of
    members. -/
def Accepts (w : World) (g : String) (kind : Kind) (offset : ℤ) (items : List Json) (receipt : Receipt) : Prop :=
  ∃ b ∈ staged g w.log, b.1 = receipt ∧ receipt.kind = kind ∧ (receipt.offset : ℤ) = offset ∧
    (Json.arr items).same (.arr b.2) = true

section
variable [Platform] {w : World} {r : Generation}

omit [Platform] in
theorem mem_receipts_staged (horderly : Orderly w) {g : String} {b : Receipt × List Json} (hb : b ∈ staged g w.log) :
    w.state.receipts.find? (g, b.1.kind, b.1.offset) = some b.1 := by
  have hmem : b.1 ∈ w.state.receiptRows g := by
    rw [horderly.recorded, List.mem_reverse]
    exact List.mem_map_of_mem hb
  obtain ⟨hmem, hgeneration⟩ := List.mem_filter.1 hmem
  refine Table.find?_eq_some_iff.2 ⟨hmem, ?_⟩
  rw [Receipt.key, of_decide_eq_true hgeneration]

/-- **A batch that was accepted is answered with its receipt**, and changes
    nothing. -/
theorem duplicate_serve (horderly : Orderly w) (hr : r ∈ w.state.generations) (hstaging : r.state = .staging)
    {kind : Kind} {offset : ℤ} {items : List Json} {receipt : Receipt} (h : Accepts w r.id kind offset items receipt)
    (now : ℤ) (hparsed : (Json.arr items).WF = true) :
    serve w (.stage kind r.id offset items now hparsed) = (.staged true items.length receipt.receiptDigest, w) := by
  obtain ⟨b, hb, rfl, rfl, rfl, hsame⟩ := h
  have haccepted := horderly.replayed.accepted r.id b hb
  have hchain := horderly.replayed.chain r hr (horderly.sound.contract r hr hstaging)
  obtain ⟨htotal, -, -⟩ := progress_eq (l := stagedReceipts r.id w.log) (horderly.recorded r.id) hchain
  have hlength : items.length = b.2.length := (Json.sameItems_iff.1 hsame).length_eq
  have hmem : b.1 ∈ stagedReceipts r.id w.log := List.mem_map_of_mem hb
  obtain ⟨hpos, hle⟩ := chain_le hchain b.1 hmem
  have hbound := total_le hchain b.1.kind
  rw [haccepted.count] at hpos hle
  have hvalid : ∀ item ∈ items, validItem b.1.kind item = true := by
    intro item hitem
    obtain ⟨i, hi, rfl⟩ := List.getElem_of_mem hitem
    have hitems := List.forall₂_iff_get.1 (Json.sameItems_iff.1 hsame)
    have hi' : i < b.2.length := hlength ▸ hi
    have hwf := Json.wfItems_iff.1 hparsed _ (List.getElem_mem hi)
    have hwf' := Json.wfItems_iff.1 haccepted.parsed _ (List.getElem_mem hi')
    rw [validItem_congr hwf hwf' (hitems.2 i hi hi')]
    exact haccepted.valid _ (List.getElem_mem hi')
  have hhash : newsProjectionPayloadHash (.arr items) = some b.1.payloadHash := by
    have hfinite := Json.finite_of_same hsame (finite_of_payloadHash haccepted.hash)
    rw [← haccepted.hash, newsProjectionPayloadHash, newsProjectionPayloadHash, if_pos hfinite,
      if_pos (finite_of_payloadHash haccepted.hash), Json.canonical_congr hparsed haccepted.parsed hsame]
  have hbody : (!Text.isSha256Hex r.id || decide ((b.1.offset : ℤ) < 0) || decide (items.length < 1)
      || decide (maxBatchItems b.1.kind < items.length) || items.any fun item => !validItem b.1.kind item) = false := by
    have hsize := haccepted.size
    simp only [Bool.or_eq_false_iff, Bool.not_eq_false', decide_eq_false_iff_not, List.any_eq_false, Bool.not_eq_true',
      Bool.not_eq_false]
    exact ⟨⟨⟨⟨haccepted.id, by omega⟩, by omega⟩, by omega⟩, hvalid⟩
  have hdetails : (decide (b.1.kind = .index) &&
      decide ((w.state.progress r.id).nextDetailOffset ≠ r.manifest.expectedDetailCount)) = false := by
    cases hkind : b.1.kind with
    | detail => rfl
    | index =>
      have hall := (htotal .detail).trans (details_of_index hchain hmem hkind)
      simpa [Progress.next] using hall
  change (stageNewsProjectionBatch b.1.kind r.id b.1.offset items now).run Batch.exec w = _
  rw [stageNewsProjectionBatch, hbody]
  simp only [Bool.false_eq_true, if_false, run_read, Table.find?_eq_some_iff.2 ⟨hr, rfl⟩, hstaging, ne_eq,
    not_true_eq_false, hhash, Int.toNat_natCast]
  rw [if_neg (by simpa using hdetails), if_neg (by omega), if_pos (by rw [htotal]; omega), run_read,
    mem_receipts_staged horderly hb]
  simp only
  rw [if_pos ⟨haccepted.count.trans hlength.symm, trivial, by rw [htotal]; omega⟩, run_done]

/-- **Any other batch below the next offset is refused**, and changes nothing,
    unless its text and an accepted one collide. -/
theorem contradiction_serve (horderly : Orderly w) (hr : r ∈ w.state.generations) (hstaging : r.state = .staging)
    {kind : Kind} {offset : ℤ} {items : List Json} (hnext : offset < (w.state.progress r.id).next kind)
    (h : ∀ receipt, ¬ Accepts w r.id kind offset items receipt) (now : ℤ) (hparsed : (Json.arr items).WF = true)
    (hinj : ∀ b ∈ staged r.id w.log, b.1.kind = kind → (b.1.offset : ℤ) = offset →
      sha256 (String.ofList (Json.arr items).canonical) = sha256 (String.ofList (Json.arr b.2).canonical) →
      (Json.arr items).canonical = (Json.arr b.2).canonical) :
    ∃ error, serve w (.stage kind r.id offset items now hparsed) = (.refused error, w) := by
  change ∃ error, (stageNewsProjectionBatch kind r.id offset items now).run Batch.exec w = _
  unfold stageNewsProjectionBatch
  split
  · exact ⟨_, rfl⟩
  · next hbody =>
    have hoffset : (offset.toNat : ℤ) = offset := by
      simp only [Bool.or_eq_true, decide_eq_true_eq, not_or] at hbody
      omega
    rw [run_read, Table.find?_eq_some_iff.2 ⟨hr, rfl⟩]
    simp only [hstaging, ne_eq, not_true_eq_false, if_false, run_read]
    split
    · exact ⟨_, rfl⟩
    · split
      · exact ⟨_, rfl⟩
      · split
        · exact ⟨_, rfl⟩
        · next payloadHash hhash =>
          rw [if_pos (by omega), run_read]
          split
          · next receipt hreceipt =>
            split
            · next hmatch =>
              -- the receipt is that of an accepted batch, whose text has the same digest
              exfalso
              obtain ⟨hmem, hkey⟩ := Table.find?_eq_some_iff.1 hreceipt
              have hrow : receipt ∈ w.state.receiptRows r.id :=
                List.mem_filter.2 ⟨hmem, decide_eq_true (congrArg Prod.fst hkey)⟩
              rw [horderly.recorded, List.mem_reverse] at hrow
              obtain ⟨b, hb, rfl⟩ := List.mem_map.1 hrow
              have haccepted := horderly.replayed.accepted r.id b hb
              have hkind : b.1.kind = kind := congrArg (fun k => k.2.1) hkey
              have hat : (b.1.offset : ℤ) = offset := by
                rw [← hoffset]
                exact congrArg Nat.cast (congrArg (fun k => k.2.2) hkey)
              have hhashes : newsProjectionPayloadHash (.arr items) = newsProjectionPayloadHash (.arr b.2) := by
                rw [hhash, haccepted.hash, hmatch.2.1]
              rw [newsProjectionPayloadHash, newsProjectionPayloadHash, if_pos (finite_of_payloadHash hhash),
                if_pos (finite_of_payloadHash haccepted.hash)] at hhashes
              have htext := hinj b hb hkind hat (Option.some.inj hhashes)
              exact h b.1 ⟨b, hb, rfl, hkind, hat, Json.canonical_inj hparsed haccepted.parsed htext⟩
            · exact ⟨_, rfl⟩
          · exact ⟨_, rfl⟩

end

/-- The text of the batch and that of an accepted one at its place are
    different, and have one digest. -/
def Collides (w : World) (g : String) (kind : Kind) (offset : ℤ) (items : List Json) : Prop :=
  ∃ b ∈ staged g w.log, b.1.kind = kind ∧ (b.1.offset : ℤ) = offset ∧
    (Json.arr items).canonical ≠ (Json.arr b.2).canonical ∧
    sha256 (String.ofList (Json.arr items).canonical) = sha256 (String.ofList (Json.arr b.2).canonical)

/-- **Staging never disturbs the archive that is served, and a batch that is
    sent again changes nothing.** -/
theorem staging_undisturbed [Platform] (requests : List Request) :
    let w := Machine.run serve World.empty requests
    (∀ st, w.state.state = some st → st.projectionState = .current → ∀ request : Request, request.isStaging = true →
      Undisturbed st.activeGenerationId w (serve w request).2) ∧
    ∀ r ∈ w.state.generations, r.state = .staging → ∀ kind offset items now (hparsed : (Json.arr items).WF = true),
      (∀ receipt, Accepts w r.id kind offset items receipt →
        w.state.receipts.find? (r.id, kind, offset.toNat) = some receipt ∧
        serve w (.stage kind r.id offset items now hparsed) = (.staged true items.length receipt.receiptDigest, w)) ∧
      (offset < (w.state.progress r.id).next kind → (∀ receipt, ¬ Accepts w r.id kind offset items receipt) →
        Collides w r.id kind offset items ∨
          ∃ error, serve w (.stage kind r.id offset items now hparsed) = (.refused error, w)) := by
  obtain ⟨horderly, hbacked⟩ := backed_run requests
  refine ⟨fun st hst _ request hrequest => undisturbed_serve hrequest horderly hbacked hst, ?_⟩
  intro r hr hstaging kind offset items now hparsed
  refine ⟨fun receipt haccepts => ⟨?_, duplicate_serve horderly hr hstaging haccepts now hparsed⟩,
    fun hnext hnone => ?_⟩
  · obtain ⟨b, hb, rfl, rfl, rfl, -⟩ := haccepts
    exact mem_receipts_staged horderly hb
  · by_cases hcollides : Collides (Machine.run serve World.empty requests) r.id kind offset items
    · exact .inl hcollides
    · refine .inr (contradiction_serve horderly hr hstaging hnext hnone now hparsed fun b hb hkind hat hdigest => ?_)
      by_contra htext
      exact hcollides ⟨b, hb, hkind, hat, htext, hdigest⟩

/-- A replay of one item, whose detail is sent twice. -/
theorem staging_undisturbed_sample : ∃ w digest,
    w = Machine.run (@serve sampleDates) World.empty
      [.prepare (sampleManifest 0x3ff0000000000000 firstId) 0, .stage .detail firstId 0 [sampleDetail firstId] 0
        sampleDetailBatch.parsed] ∧
    @serve sampleDates w (.stage .detail firstId 0 [sampleDetail firstId] 1 sampleDetailBatch.parsed) =
      (.staged true 1 digest, w) := by
  have hcount : safeCount (.num 0x3ff0000000000000) = some 1 := by decide
  obtain ⟨w₁, hprepare, horderly, hland⟩ := @exists_prepare sampleDates World.empty orderly_empty _ _
    (validate_sampleManifest hcount isSha256Hex_firstId) 0
    (fun _ hr => absurd hr (Table.not_mem_empty _)) fun _ hr => absurd hr (Table.not_mem_empty _)
  obtain ⟨hexec, hlog⟩ := land_eq_some hland
  replace hexec : World.empty.state.openGeneration World.empty.state.supersededIds (sampleGeneration 1 firstId) 0 =
    some w₁.state := hexec
  obtain ⟨r, hr, hid, hstaging, hmanifest⟩ : ∃ r ∈ w₁.state.generations, r.id = firstId ∧ r.state = .staging ∧
      r.manifest = sampleGeneration 1 firstId :=
    ⟨_, (Store.mem_generations_open hexec).2 (.inr rfl), rfl, rfl, rfl⟩
  have hnone : stagedReceipts r.id w₁.log = [] := by
    rw [stagedReceipts, hlog]
    rfl
  have hagrees : Agrees w₁.state [sampleDetail firstId] := by
    intro item _ d hd
    rw [Store.openGeneration, Option.map_eq_some_iff] at hexec
    obtain ⟨_, -, hstate⟩ := hexec
    rw [← hstate] at hd
    exact absurd (mem_details_of_cleanup hd) (Table.not_mem_empty _)
  have hhash : newsProjectionPayloadHash (.arr [sampleDetail firstId]) =
      some (sha256 (String.ofList (Json.arr [sampleDetail firstId]).canonical)) :=
    if_pos (by simp [sampleDetail, Json.finite, Json.finiteItems, Json.finiteMembers])
  obtain ⟨w₂, hstage, hextends⟩ := @exists_stage sampleDates w₁ horderly r hr hstaging (hid ▸ isSha256Hex_firstId)
    .detail [sampleDetail firstId] 0 (by simp) (by decide)
    (fun item hitem => by
      rw [List.mem_singleton.1 hitem]
      simp [validItem, validDetail, sampleDetail, Json.get, List.lookup, isDigest, isSha256Hex_firstId, isContainer])
    sampleDetailBatch.parsed _ hhash (by rw [hnone, hmanifest]; exact le_rfl) (fun hkind => by cases hkind)
    (fun _ => ⟨by simp, hagrees⟩)
  obtain ⟨receipt, hkind, hstaged⟩ := hextends.staged
  rw [hnone, hid] at hstage
  have hrun : Machine.run (@serve sampleDates) World.empty
      [.prepare (sampleManifest 0x3ff0000000000000 firstId) 0, .stage .detail firstId 0 [sampleDetail firstId] 0
        sampleDetailBatch.parsed] = w₂ := by
    rw [Machine.run_cons, hprepare, Machine.run_cons]
    exact congrArg Prod.snd hstage
  have hr₂ : r ∈ w₂.state.generations := hextends.generations ▸ hr
  have hchain := hextends.orderly.replayed.chain r hr₂ (hextends.orderly.sound.contract r hr₂ hstaging)
  rw [stagedReceipts, hstaged, List.map_cons] at hchain
  have hoffset : receipt.offset = 0 := by
    rw [hchain.1.offset]
    exact congrArg (total receipt.kind) hnone
  have hsame : (Json.arr [sampleDetail firstId]).same (.arr [sampleDetail firstId]) = true :=
    Json.same_refl sampleDetailBatch.parsed
  have hduplicate := @staging_undisturbed sampleDates
    [.prepare (sampleManifest 0x3ff0000000000000 firstId) 0, .stage .detail firstId 0 [sampleDetail firstId] 0
      sampleDetailBatch.parsed]
  rw [hrun] at hduplicate
  refine ⟨w₂, receipt.receiptDigest, hrun.symm, ?_⟩
  have haccepts : Accepts w₂ r.id .detail 0 [sampleDetail firstId] receipt :=
    ⟨_, hstaged ▸ List.mem_cons_self, rfl, hkind, by rw [hoffset]; rfl, hsame⟩
  have hreply := ((hduplicate.2 r hr₂ hstaging .detail 0 _ 1 sampleDetailBatch.parsed).1 receipt haccepts).2
  rw [hid] at hreply
  exact hreply

end Xauusd.Projection
