/-
  Requests one at a time: where nothing lands between the reads of a request
  and its batch, the batch is bound with what the store holds.

  * `Timely w b`: the values of the batch are those of the store;
  * `Request.commits_timely`: **a request alone sends timely batches only**;
  * `fresh_of_timely`: a timely batch is fresh.
-/
import Xauusd.Projection.Publication

namespace Xauusd.Projection

open Program

def Timely [Platform] (w : World) : Batch → Prop
  | .deleteGeneration g => ∃ r ∈ w.state.generations, r.id = g ∧ r.state = .staging
  | .openGeneration cleanup m _ => (∀ r ∈ w.state.generations, r.id ≠ m.generationId) ∧
      ∀ r ∈ w.state.generations, r.id ∈ cleanup ↔ r.state ≠ .current
  | .stage g kind offset items payloadHash receiptDigest identityDigest rows now =>
      (∃ r ∈ w.state.generations, r.id = g ∧ r.state = .staging ∧
        offset + items.length ≤ r.manifest.expected kind ∧
        (kind = .index → (w.state.progress g).nextDetailOffset = r.manifest.expectedDetailCount)) ∧
      offset = (w.state.progress g).next kind ∧
      receiptDigest =
        advanceNewsReceiptDigest (w.state.progress g).receiptDigest kind offset items.length payloadHash ∧
      identityDigest = advanceNewsIdentityDigest ((w.state.progress g).identity kind) (items.map itemKey) ∧
      (match kind with
        | .index => some []
        | .detail => newDetailRows w.state now items) = some rows
  | .activate m progress counted _ =>
      (∃ r ∈ w.state.generations, r.manifest = m ∧ r.state = .staging) ∧
      progress = w.state.progress m.generationId ∧ counted = w.state.receiptItems m.generationId ∧
      complete m progress (w.state.projectionCounts m.generationId m.contractVersion) = true
  | .verify .. | .delta .. => True

/-! ## What the reads find -/

theorem mem_supersededIds {s : Store} {r : Generation} (hr : r ∈ s.generations) :
    r.id ∈ s.supersededIds ↔ r.state = .superseded := by
  rw [Store.supersededIds, List.mem_map]
  constructor
  · rintro ⟨r', hr', hid⟩
    obtain ⟨hr', hstate⟩ := List.mem_filter.1 ((List.mem_insertionSort _).1 hr')
    rw [s.generations.eq_of_key_eq hr hr' hid.symm]
    simpa using hstate
  · intro hstate
    exact ⟨r, (List.mem_insertionSort _).2 (List.mem_filter.2 ⟨hr, by simpa using hstate⟩), rfl⟩

theorem firstStaging_eq_none {s : Store} (h : s.firstStaging = none) {r : Generation}
    (hr : r ∈ s.generations) : r.state ≠ .staging := by
  intro hstate
  have hnil := Table.firstBy_eq_none_iff.1 h
  have hmem : r ∈ s.generations.rows.filter (·.state = .staging) :=
    List.mem_filter.2 ⟨hr, by simpa using hstate⟩
  rw [hnil] at hmem
  cases hmem

theorem firstStaging_mem {s : Store} {r : Generation} (h : s.firstStaging = some r) :
    r ∈ s.generations ∧ r.state = .staging := by
  obtain ⟨hr, hstate⟩ := List.mem_filter.1 (Table.mem_of_firstBy h)
  exact ⟨hr, by simpa using hstate⟩

theorem GenerationState.ne_current {state : GenerationState} :
    state ≠ .current ↔ state = .staging ∨ state = .superseded := by cases state <;> decide

/-! ## What requests send -/

section
variable [Platform] {w : World}

theorem fresh_of_timely {b : Batch} (hw : Sound w) (hb : Timely w b) : Fresh w b := by
  cases b with
  | deleteGeneration g =>
    obtain ⟨r₀, hr₀, rfl, hstaging⟩ := hb
    refine fun r hr => ⟨fun hid hcurrent => ?_, fun hs => ?_⟩
    · rw [w.state.generations.eq_of_key_eq hr hr₀ hid, hstaging] at hcurrent
      cases hcurrent
    · rw [hw.oneStaging r hr r₀ hr₀ hs hstaging]
  | openGeneration cleanup m now =>
    exact fun r hr => ⟨(hb.2 r hr).1, fun hs => (hb.2 r hr).2 (by simp [hs])⟩
  | activate m progress counted now => exact ⟨hb.1, hb.2.2.1.symm⟩
  | _ => trivial

theorem open_commits {m : Manifest} {now : ℤ} (hw : Sound w)
    (hnew : ∀ r ∈ w.state.generations, r.id ≠ m.generationId) :
    (openNewsProjection m now).Commits Batch.exec Timely w := by
  unfold openNewsProjection
  simp only [Commits]
  split
  · next hnone =>
    refine ⟨⟨hnew, fun r hr => ?_⟩, by split <;> trivial⟩
    rw [List.nil_append, mem_supersededIds hr, GenerationState.ne_current]
    exact ⟨.inr, fun h => h.resolve_left (firstStaging_eq_none hnone hr)⟩
  · next staging hsome =>
    obtain ⟨hmem, hstaging⟩ := firstStaging_mem hsome
    simp only [Commits]
    split
    · trivial
    · refine ⟨⟨hnew, fun r hr => ?_⟩, by split <;> trivial⟩
      rw [List.singleton_append, List.mem_cons, mem_supersededIds hr, GenerationState.ne_current]
      refine or_congr_left ⟨fun hid => ?_, fun hs => ?_⟩
      · rw [w.state.generations.eq_of_key_eq hr hmem hid, hstaging]
      · rw [hw.oneStaging r hr staging hmem hs hstaging]

theorem abandon_commits (g : String) : (abandonNewsProjection g).Commits Batch.exec Timely w := by
  unfold abandonNewsProjection
  split
  · trivial
  · simp only [Commits]
    split
    · trivial
    · next row hrow =>
      split
      · trivial
      · next hstate =>
        obtain ⟨hmem, hid⟩ := Table.find?_eq_some_iff.1 hrow
        exact ⟨⟨row, hmem, hid, by simpa using hstate⟩, by split <;> trivial⟩

theorem prepare_commits (raw : Json) (now : ℤ) (hw : Sound w) :
    (prepareNewsProjection raw now).Commits Batch.exec Timely w := by
  unfold prepareNewsProjection
  split
  · trivial
  · next m hm =>
    simp only [Commits]
    split
    · trivial
    · simp only [Commits]
      split
      · next hnone => exact open_commits hw (Table.find?_eq_none_iff.1 hnone)
      · next row hrow =>
        obtain ⟨hmem, hid⟩ := Table.find?_eq_some_iff.1 hrow
        split
        · trivial
        · simp only [Commits]
          split
          · next hexpired =>
            have hstaging : row.state = .staging := by
              simp only [Bool.and_eq_true, decide_eq_true_eq] at hexpired
              exact hexpired.1
            have htimely : Timely w (.deleteGeneration m.generationId) := ⟨row, hmem, hid, hstaging⟩
            refine ⟨htimely, ?_⟩
            split
            · next w' hland =>
              have hw' := sound_land (b := .deleteGeneration m.generationId) trivial
                (fresh_of_timely hw htimely) hw hland
              refine open_commits hw' fun r hr hrid => ?_
              have hexec := Option.some.inj (land_eq_some hland).1
              have hout := (Table.mem_delete.1 (hexec ▸ hr)).2
              exact of_decide_eq_false hout hrid
            · trivial
          · trivial

theorem stage_commits (kind : Kind) (g : String) (offset : ℤ) (items : List Json) (now : ℤ) :
    (stageNewsProjectionBatch kind g offset items now).Commits Batch.exec Timely w := by
  unfold stageNewsProjectionBatch
  split
  · trivial
  · simp only [Commits]
    split
    · trivial
    · next row hrow =>
      obtain ⟨hmem, hid⟩ := Table.find?_eq_some_iff.1 hrow
      split
      · trivial
      · next hstate =>
        simp only [Commits]
        split
        · trivial
        · next hdetails =>
          split
          · trivial
          · next hoverflow =>
            split
            · trivial
            · next payloadHash hhash =>
              split
              · simp only [Commits]
                split
                · split <;> trivial
                · trivial
              · split
                · trivial
                · next hnext =>
                  have hgeneration : ∃ r ∈ w.state.generations, r.id = g ∧ r.state = .staging ∧
                      offset.toNat + items.length ≤ r.manifest.expected kind ∧
                      (kind = .index →
                        (w.state.progress g).nextDetailOffset = r.manifest.expectedDetailCount) := by
                    refine ⟨row, hmem, hid, by simpa using hstate, by omega, fun hkind => ?_⟩
                    simpa [hkind] using hdetails
                  split
                  · exact ⟨⟨hgeneration, by simpa using hnext, rfl, rfl, rfl⟩, by split <;> trivial⟩
                  · simp only [Commits]
                    split
                    · trivial
                    · next rows hrows =>
                      exact ⟨⟨hgeneration, by simpa using hnext, rfl, rfl, hrows⟩, by split <;> trivial⟩

theorem activate_commits (g : String) (now : ℤ) :
    (activateNewsProjection g now).Commits Batch.exec Timely w := by
  unfold activateNewsProjection
  split
  · trivial
  · simp only [Commits]
    split
    · trivial
    · simp only [Commits]
      split
      · trivial
      · next row hrow =>
        obtain ⟨hmem, rfl⟩ := Table.find?_eq_some_iff.1 hrow
        split
        · trivial
        · next hstate =>
          simp only [Commits]
          split
          · trivial
          · next hcomplete =>
            have hcomplete : complete row.manifest (w.state.progress row.id)
                (w.state.projectionCounts row.id row.manifest.contractVersion) = true := by
              simpa using hcomplete
            exact ⟨⟨⟨row, hmem, rfl, by simpa using hstate⟩, rfl, rfl, hcomplete⟩, by split <;> trivial⟩

theorem verify_commits (g : String) (now : ℤ) : (verifyNewsProjection g now).Commits Batch.exec Timely w := by
  simp only [verifyNewsProjection, Commits]
  split
  · trivial
  · simp only [Commits]
    exact ⟨trivial, by split <;> trivial⟩

theorem serializeDetails_commits (d : Delta) (now : ℤ) (items serialized : List Json) :
    (serializeDetails d now items serialized).Commits Batch.exec Timely w := by
  induction items generalizing serialized with
  | nil =>
    refine ⟨trivial, ?_⟩
    split
    · trivial
    · simp only [Bool.false_eq_true, if_false, Commits]
      split <;> trivial
  | cons item items ih =>
    simp only [serializeDetails, Commits]
    split
    · split
      · exact ih _
      · trivial
    · exact ih _

theorem applyDelta_commits (raw digest : Json) (now : ℤ) :
    (applyNewsProjectionDelta raw digest now).Commits Batch.exec Timely w := by
  unfold applyNewsProjectionDelta
  split
  · trivial
  · simp only [Commits]
    split
    · trivial
    · split
      · trivial
      · simp only [Commits]
        split
        · trivial
        · exact serializeDetails_commits _ now _ _

/-- **A request alone sends timely batches only.** -/
theorem Request.commits_timely (r : Request) (hw : Sound w) : r.program.Commits Batch.exec Timely w := by
  cases r with
  | prepare raw now => exact prepare_commits raw now hw
  | stage kind g offset items now parsed => exact stage_commits kind g offset items now
  | activate g now => exact activate_commits g now
  | verify g now => exact verify_commits g now
  | abandon g => exact abandon_commits g
  | applyDelta patch digest now parsed => exact applyDelta_commits patch digest now

end

end Xauusd.Projection
