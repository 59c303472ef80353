/-
  What the log of the batches says: the receipts of every generation, and the
  archive that is published.

  * `staged g log`: the batches of the generation since its rows were last
    deleted, newest first, each with its receipt;
  * `archive log`: the published archive, as a map from keys to items: an
    activation replaces it by what it counted, a sparse patch changes it;
  * `Batch.Formed`: what a request checks before it sends a batch, whatever it
    reads, and `Request.sends_formed`;
  * `recorded_land`: **the receipts of the store are those of the log**.
-/
import Xauusd.Projection.Requests

namespace Xauusd.Projection

/-! ## Histories -/

def staged (g : String) : List Batch → List (Receipt × List Json)
  | [] => []
  | .deleteGeneration g' :: log => if g' = g then [] else staged g log
  | .openGeneration cleanup _ _ :: log => if g ∈ cleanup then [] else staged g log
  | .stage g' kind offset items payloadHash receiptDigest identityDigest _ now :: log =>
    if g' = g then
      (stagedReceipt g' kind offset items payloadHash receiptDigest identityDigest now, items) :: staged g log
    else staged g log
  | _ :: log => staged g log

/-- The item of a list that an upsert of it, one after the other, leaves under
    a key. -/
def lastItem (items : List Json) (key : String) : Option Json :=
  items.reverse.find? fun item => itemKey item = key

def archive : List Batch → String → Option Json
  | [], _ => none
  | .activate _ _ counted _ :: _, key => lastItem counted key
  | .delta d _ _ :: log, key =>
    match lastItem d.indexes key with
    | some item => if activeNews item then some item else none
    | none => if key ∈ d.removed then none else archive log key
  | _ :: log, key => archive log key

/-! ## Well-formed batches -/

structure Delta.Formed (d : Delta) : Prop where
  indexes : ∀ item ∈ d.indexes, validIndex item = true
  details : ∀ item ∈ d.details, validDetail item = true
  keys : (d.indexes.map itemKey ++ d.removed).Nodup
  detailKeys : (d.details.map itemKey).Nodup
  referenced : ∀ key ∈ d.details.map itemKey, key ∈ d.indexes.map itemKey
  generation : d.source.contractVersion = .generation
  counts : d.source.expectedDetailCount = d.source.expectedIndexCount

def Batch.Formed : Batch → Prop
  | stage g kind _ items payloadHash _ _ _ _ =>
    Text.isSha256Hex g = true ∧ items.length ≤ maxBatchItems kind ∧ items ≠ [] ∧ (∀ item ∈ items, validItem kind item = true) ∧ (Json.arr items).WF = true ∧
      newsProjectionPayloadHash (.arr items) = some payloadHash
  | openGeneration _ m _ => m.contractVersion = .generation
  | activate m _ counted _ => m.contractVersion = .generation →
      counted.length = m.expectedIndexCount ∧ ∀ item ∈ counted, reviewViolation (indexEntry item) = false
  | verify _ missing violations current _ => current = true → missing = 0 ∧ violations = 0
  | delta d _ _ => d.Formed
  | deleteGeneration _ => True

/-- A well-formed batch of a full replay. -/
def Batch.Replays : Batch → Prop
  | delta .. => False
  | b => b.Formed

theorem Batch.formed_of_replays {b : Batch} (h : b.Replays) : b.Formed := by
  cases b with
  | delta d serialized now => cases h
  | _ => exact h

theorem validate_generation [Platform] {raw : Json} {m : Manifest} (h : validateNewsProjectionManifest raw = some m) :
    m.contractVersion = .generation := by
  simp only [validateNewsProjectionManifest, Option.bind_eq_bind, Option.bind_eq_some_iff] at h
  obtain ⟨_, -, _, -, _, -, _, -, h⟩ := h
  cases h
  rfl

theorem parseDelta_formed [Platform] {raw digest : Json} {d : Delta} (h : parseDelta raw digest = .ok d) : d.Formed := by
  unfold parseDelta at h
  simp only [bind, Except.bind, pure, Except.pure, throw, throwThe, MonadExceptOf.throw] at h
  repeat' split at h
  all_goals try cases h
  next hbody _ source hsource hcounts hkeys _ _ _ _ =>
    simp only [Bool.not_eq_true', Bool.not_eq_false, Bool.and_eq_true, decide_eq_true_eq,
      List.all_eq_true] at hbody hkeys
    exact
      { indexes := fun item hitem => (hbody.1.1.2 item hitem).1
        details := hbody.1.2
        keys := hkeys.1.1
        detailKeys := hkeys.1.2
        referenced := hkeys.2
        generation := validate_generation hsource
        counts := by simpa using hcounts }

/-! ## What requests send -/

theorem abandon_sends {P : Batch → Prop} {g : String} (hP : P (.deleteGeneration g)) :
    (abandonNewsProjection g).Sends P := by
  unfold abandonNewsProjection
  split
  · trivial
  · intro s
    dsimp only
    split
    · trivial
    · split
      · trivial
      · exact ⟨hP, fun ok => trivial⟩

theorem open_sends {P : Batch → Prop} {m : Manifest} {now : ℤ} (hP : ∀ cleanup, P (.openGeneration cleanup m now)) :
    (openNewsProjection m now).Sends P := by
  intro s
  dsimp only
  split
  · exact fun s => ⟨hP _, fun ok => trivial⟩
  · intro s
    dsimp only
    split
    · trivial
    · exact fun s => ⟨hP _, fun ok => trivial⟩

theorem prepare_sends [Platform] {P : Batch → Prop} {raw : Json} {now : ℤ} (hdelete : ∀ g, P (.deleteGeneration g))
    (hP : ∀ cleanup m, m.contractVersion = .generation → P (.openGeneration cleanup m now)) :
    (prepareNewsProjection raw now).Sends P := by
  unfold prepareNewsProjection
  split
  · trivial
  · next m hm =>
    have hopen := open_sends fun cleanup => hP cleanup m (validate_generation hm)
    intro s
    dsimp only
    split
    · trivial
    · intro s
      dsimp only
      split
      · exact hopen
      · split
        · trivial
        · intro s
          dsimp only
          split
          · refine ⟨hdelete _, fun ok => ?_⟩
            cases ok
            · trivial
            · exact hopen
          · trivial

def Batch.isStage : Batch → Bool
  | stage .. => true
  | _ => false

theorem stage_sends [Platform] (kind : Kind) (g : String) (offset : ℤ) {items : List Json} (now : ℤ)
    (hparsed : (Json.arr items).WF = true) :
    (stageNewsProjectionBatch kind g offset items now).Sends fun b => b.Replays ∧ b.isStage = true := by
  unfold stageNewsProjectionBatch
  split
  · trivial
  · next hbody =>
    simp only [Bool.or_eq_true, Bool.not_eq_true', decide_eq_true_eq, not_or, List.any_eq_true,
      not_exists, not_and, Bool.not_eq_false, not_lt] at hbody
    obtain ⟨⟨⟨⟨hid, -⟩, hlength⟩, hsize⟩, hvalid⟩ := hbody
    have hne : items ≠ [] := by
      rintro rfl
      simp at hlength
    intro s
    dsimp only
    split
    · trivial
    · split
      · trivial
      · intro s
        dsimp only
        split
        · trivial
        · split
          · trivial
          · split
            · trivial
            · next payloadHash hhash =>
              split
              · intro s
                dsimp only
                split
                · split <;> trivial
                · trivial
              · split
                · trivial
                · split
                  · exact ⟨⟨⟨hid, hsize, hne, hvalid, hparsed, hhash⟩, rfl⟩, fun ok => trivial⟩
                  · intro s
                    dsimp only
                    split
                    · trivial
                    · exact ⟨⟨⟨hid, hsize, hne, hvalid, hparsed, hhash⟩, rfl⟩, fun ok => trivial⟩

theorem activate_sends (g : String) (now : ℤ) : (activateNewsProjection g now).Sends Batch.Replays := by
  unfold activateNewsProjection
  split
  · trivial
  · intro s
    dsimp only
    split
    · trivial
    · intro s
      dsimp only
      split
      · trivial
      · next row _ =>
        split
        · trivial
        · intro s s
          dsimp only
          split
          · trivial
          · next hcomplete =>
            refine ⟨fun hcontract => ?_, fun ok => trivial⟩
            simp only [Bool.not_eq_true', Bool.not_eq_false, complete, Bool.and_eq_true,
              decide_eq_true_eq, hcontract, Store.projectionCounts, Store.projection, List.length_map,
              List.countP_map, Nat.add_eq_zero_iff, List.countP_eq_zero] at hcomplete
            exact ⟨hcomplete.1.1.1.1.2, fun item hitem => by simpa using hcomplete.1.1.2.1 item hitem⟩

theorem verify_sends (g : String) (now : ℤ) : (verifyNewsProjection g now).Sends Batch.Replays := by
  intro s
  dsimp only
  split
  · trivial
  · intro s s s
    refine ⟨fun hcurrent => ?_, fun ok => trivial⟩
    simp only [Bool.and_eq_true, decide_eq_true_eq] at hcurrent
    exact ⟨hcurrent.1.2, hcurrent.2⟩

theorem serializeDetails_sends {d : Delta} (hd : d.Formed) (now : ℤ) (items serialized : List Json) :
    (serializeDetails d now items serialized).Sends Batch.Formed := by
  induction items generalizing serialized with
  | nil =>
    refine ⟨hd, fun ok => ?_⟩
    cases ok
    · intro latest s
      dsimp only
      split <;> trivial
    · trivial
  | cons item items ih =>
    intro s
    dsimp only
    split
    · split
      · exact ih _
      · trivial
    · exact ih _

theorem applyDelta_sends [Platform] (raw digest : Json) (now : ℤ) :
    (applyNewsProjectionDelta raw digest now).Sends Batch.Formed := by
  unfold applyNewsProjectionDelta
  split
  · trivial
  · next d hd =>
    intro s
    dsimp only
    split
    · trivial
    · split
      · trivial
      · intro s
        dsimp only
        split
        · trivial
        · exact serializeDetails_sends (parseDelta_formed hd) now _ _

/-- The requests of a full replay. -/
def Request.isReplay : Request → Bool
  | applyDelta .. => false
  | _ => true

theorem Request.sends_replays [Platform] {r : Request} (hr : r.isReplay = true) :
    r.program.Sends Batch.Replays := by
  cases r with
  | prepare raw now => exact prepare_sends (fun _ => trivial) fun _ _ hm => hm
  | stage kind g offset items now parsed => exact (stage_sends kind g offset now parsed).mono fun _ h => h.1
  | activate g now => exact activate_sends g now
  | verify g now => exact verify_sends g now
  | abandon g => exact abandon_sends trivial
  | applyDelta patch digest now parsed => cases hr

/-- **Every batch a request sends is well formed.** -/
theorem Request.sends_formed [Platform] (r : Request) : r.program.Sends Batch.Formed := by
  cases hr : r.isReplay with
  | true => exact (Request.sends_replays hr).mono fun _ => Batch.formed_of_replays
  | false =>
    cases r with
    | applyDelta patch digest now parsed => exact applyDelta_sends patch digest now
    | _ => cases hr

/-! ## The receipts of the log -/

def Store.receiptRows (s : Store) (g : String) : List Receipt :=
  s.receipts.rows.filter fun r => r.generation = g

namespace Store

variable {s s' : Store}

theorem receiptRows_deleteGeneration (s : Store) (g g' : String) :
    (s.deleteGeneration g').receiptRows g = if g' = g then [] else s.receiptRows g := by
  show (s.receipts.rows.filter fun r => !decide (r.generation = g')).filter _ = _
  rw [List.filter_filter]
  split
  · next h =>
    refine List.filter_eq_nil_iff.2 fun r _ => ?_
    simp [h]
  · next h =>
    refine List.filter_congr fun r _ => ?_
    by_cases hr : r.generation = g
    · simp [hr, Ne.symm h]
    · simp [hr]

theorem receiptRows_cleanup (s : Store) (g : String) (cleanup : List String) :
    (cleanup.foldl deleteGeneration s).receiptRows g = if g ∈ cleanup then [] else s.receiptRows g := by
  induction cleanup generalizing s with
  | nil => simp
  | cons g' cleanup ih =>
    rw [List.foldl_cons, ih, receiptRows_deleteGeneration]
    by_cases hg : g' = g
    · simp [hg]
    · simp [hg, Ne.symm hg]

theorem receiptRows_open {cleanup : List String} {m : Manifest} {now : ℤ}
    (h : s.openGeneration cleanup m now = some s') (g : String) :
    s'.receiptRows g = if g ∈ cleanup then [] else s.receiptRows g := by
  obtain ⟨_, -, rfl⟩ := Option.map_eq_some_iff.1 h
  exact receiptRows_cleanup s g cleanup

theorem stage_eq_some {rows : List DetailRow} {r : Receipt} (h : s.stage rows r = some s') :
    ∃ details receipts, s.details.insertAll rows = some details ∧
      s.receipts.insertAll [r] = some receipts ∧
      s' = { s with details := details, receipts := receipts } := by
  simp only [stage, Option.bind_eq_bind, Option.bind_eq_some_iff] at h
  obtain ⟨details, hdetails, receipts, hreceipts, h⟩ := h
  exact ⟨details, receipts, hdetails, hreceipts, by simpa using h.symm⟩

theorem receiptRows_stage {rows : List DetailRow} {r : Receipt} (h : s.stage rows r = some s') (g : String) :
    s'.receiptRows g = s.receiptRows g ++ if r.generation = g then [r] else [] := by
  obtain ⟨details, receipts, -, hreceipts, rfl⟩ := stage_eq_some h
  show receipts.rows.filter _ = _
  rw [Table.rows_insertAll hreceipts, List.filter_append]
  by_cases hr : r.generation = g <;> simp [receiptRows, hr]

theorem activate_receipts {m : Manifest} {p : Progress} {now : ℤ} (h : s.activate m p now = some s') :
    s'.receipts = s.receipts := by
  obtain ⟨_, -, rfl⟩ := Option.map_eq_some_iff.1 h
  rfl

theorem applyDelta_receipts [Platform] {d : Delta} {serialized : List Json} {now : ℤ}
    (h : s.applyDelta d serialized now = some s') : s'.receipts = s.receipts := by
  simp only [applyDelta, Option.bind_eq_bind, Option.bind_eq_some_iff] at h
  obtain ⟨_, -, _, -, _, -, _, -, _, -, _, -, h⟩ := h
  cases h
  rfl

end Store

/-- The store has the receipts that the log says, oldest first. -/
def Recorded (w : World) : Prop :=
  ∀ g, w.state.receiptRows g = ((staged g w.log).map (·.1)).reverse

theorem recorded_empty : Recorded World.empty := fun _ => rfl

/-- **Every batch that takes effect is recorded.** -/
theorem recorded_land [Platform] {b : Batch} {w w' : World} (h : Program.land Batch.exec b w = some w')
    (hw : Recorded w) : Recorded w' := by
  obtain ⟨hexec, hlog⟩ := Program.land_eq_some h
  intro g
  rw [hlog]
  cases b with
  | deleteGeneration g' =>
    rw [← Option.some.inj hexec, Store.receiptRows_deleteGeneration, hw g]
    by_cases hg : g' = g <;> simp [staged, hg]
  | openGeneration cleanup m now =>
    rw [Store.receiptRows_open hexec g, hw g]
    by_cases hg : g ∈ cleanup <;> simp [staged, hg]
  | stage g' kind offset items payloadHash receiptDigest identityDigest rows now =>
    rw [Store.receiptRows_stage hexec g, hw g]
    by_cases hg : g' = g <;> simp [staged, stagedReceipt, hg]
  | activate m p counted now =>
    have hreceipts := Store.activate_receipts hexec
    rw [Store.receiptRows, hreceipts]
    exact hw g
  | verify g' missing violations current now =>
    rw [← Option.some.inj hexec]
    exact hw g
  | delta d serialized now =>
    have hreceipts := Store.applyDelta_receipts hexec
    rw [Store.receiptRows, hreceipts]
    exact hw g

end Xauusd.Projection
