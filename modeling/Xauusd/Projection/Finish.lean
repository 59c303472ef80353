/-
  Finishing a prepared replay.

  * `Stated w`: the state row says what the manifest of its generation does;
  * `Source`: a generation as its producer has it, `Source.remaining` the
    requests that stage its batches from some offsets on;
  * `Resumable w T`: the generation is staging, what it has accepted are the
    first batches of the source, and no stored detail contradicts the source;
  * `prepared_replay_finishes_iff`: **after a preparation the remaining batches
    and the activation succeed if and only if the replay is resumable**.
-/
import Xauusd.Projection.Resume

namespace Xauusd.Projection

open Program

/-! ## The state row -/

structure StatedBy (st : StateRow) (m : Manifest) : Prop where
  snapshot : st.snapshotId = m.snapshotId
  source : st.sourceDigest = m.sourceDigest
  receipt : st.receiptDigest = m.expectedReceiptDigest
  index : st.indexCount = m.expectedIndexCount
  detail : st.detailCount = m.expectedDetailCount
  sound : st.projectionState = .current → st.missingDetailCount = 0 ∧ st.invariantViolationCount = 0

def Stated (w : World) : Prop :=
  ∀ st, w.state.state = some st → ∀ r ∈ w.state.generations, r.id = st.activeGenerationId → StatedBy st r.manifest

section
variable {w w' : World}

theorem stated_of_same (hw : Stated w) (hstate : w'.state.state = w.state.state)
    (hrows : ∀ r ∈ w'.state.generations, ∀ st, w.state.state = some st → r.id = st.activeGenerationId →
      r ∈ w.state.generations) : Stated w' := by
  intro st hst r hr hid
  rw [hstate] at hst
  exact hw st hst r (hrows r hr st hst hid) hid

theorem stated_land [Platform] {b : Batch} (hb : b.Formed) (htimely : Timely w b) (hsound : Sound w) (hw : Stated w)
    (h : land Batch.exec b w = some w') : Stated w' := by
  obtain ⟨hexec, -⟩ := land_eq_some h
  cases b with
  | deleteGeneration g =>
    have hstate := Option.some.inj hexec
    refine stated_of_same hw (hstate ▸ rfl) fun r hr _ _ _ => ?_
    rw [← hstate] at hr
    exact ((@Store.mem_generations_cleanup _ [g] _).1 hr).1
  | openGeneration cleanup m now =>
    have hrows := fun r => Store.mem_generations_open (r := r) hexec
    obtain ⟨_, -, hstate⟩ := Option.map_eq_some_iff.1 hexec
    refine stated_of_same hw ?_ fun r hr st hst hid => ?_
    · rw [← hstate]
      exact Store.state_cleanup w.state cleanup
    · rcases (hrows r).1 hr with ⟨hr, -⟩ | rfl
      · exact hr
      · obtain ⟨r₀, hr₀, hid₀, -⟩ := hsound.active st hst
        exact absurd (hid₀.trans hid.symm) (htimely.1 r₀ hr₀)
  | stage g kind offset items payloadHash receiptDigest identityDigest rows now =>
    obtain ⟨_, _, -, -, hstate⟩ := Store.stage_eq_some hexec
    refine stated_of_same hw (by rw [hstate]) fun r hr _ _ _ => ?_
    rw [hstate] at hr
    exact hr
  | activate m progress counted now =>
    have hrows := fun r => Store.mem_generations_activate (r := r) hexec
    obtain ⟨⟨r₀, hr₀, rfl, -⟩, rfl, -, hcomplete⟩ := htimely
    simp only [complete, Bool.and_eq_true, decide_eq_true_eq] at hcomplete
    obtain ⟨_, -, hstate⟩ := Option.map_eq_some_iff.1 hexec
    intro st hst r hr hid
    obtain ⟨r₁, hr₁, rfl⟩ := (hrows r).1 hr
    rw [← hstate] at hst
    cases hst
    rw [Store.id_afterActivation] at hid
    obtain rfl := w.state.generations.eq_of_key_eq hr₁ hr₀ hid
    rw [Store.manifest_afterActivation]
    exact ⟨rfl, rfl, hcomplete.2, rfl, rfl, fun _ => ⟨rfl, rfl⟩⟩
  | verify g missing violations current now =>
    have hstate := Option.some.inj hexec
    intro st hst r hr hid
    rw [← hstate] at hst hr
    obtain ⟨st₀, hst₀, rfl⟩ := Option.map_eq_some_iff.1 hst
    obtain ⟨r₀, hr₀, rfl⟩ := Store.mem_generations_verify.1 hr
    have hid₀ : r₀.id = st₀.activeGenerationId := by
      split at hid <;> split at hid <;> exact hid
    have hstated := hw st₀ hst₀ r₀ hr₀ hid₀
    have hmanifest : (if r₀.id = g then r₀.touch now else r₀).manifest = r₀.manifest := by split <;> rfl
    rw [hmanifest]
    split
    · refine ⟨hstated.snapshot, hstated.source, hstated.receipt, hstated.index, hstated.detail, fun hcurrent => ?_⟩
      refine hb ?_
      cases current
      · cases hcurrent
      · rfl
    · exact hstated
  | delta d serialized now =>
    have hpatched := Store.applyDelta_eq_some hexec
    intro st hst r hr hid
    rw [hpatched.state] at hst
    cases hst
    rcases (Store.mem_generations_patched hpatched).1 hr with ⟨r₀, hr₀, hout, rfl⟩ | rfl
    · refine absurd (Eq.trans ?_ hid) (Store.fresh_patched hpatched hr₀ hout)
      split <;> rfl
    · exact ⟨rfl, rfl, rfl, rfl, rfl, fun _ => ⟨rfl, rfl⟩⟩

end

/-- **Requests one at a time** keep the store orderly and its state row true. -/
theorem stated_run [Platform] (requests : List Request) :
    Orderly (Machine.run serve World.empty requests) ∧ Stated (Machine.run serve World.empty requests) :=
  serve_invariant (I := fun w => Orderly w ∧ Stated w) (D := fun _ => True) (fun r _ => r.sends_formed)
    (fun r _ hw => r.commits_timely hw.1.sound)
    (fun _ _ _ hb htimely hw h => ⟨orderly_land hb htimely hw.1 h, stated_land hb htimely hw.1.sound hw.2 h⟩)
    ⟨orderly_empty, fun _ hst => nomatch hst⟩ fun _ _ => trivial

/-! ## Preparations -/

theorem generationId_of_validate [Platform] {raw : Json} {m : Manifest} (h : validateNewsProjectionManifest raw = some m) :
    Text.isSha256Hex m.generationId = true := by
  simp only [validateNewsProjectionManifest, Option.bind_eq_bind, Option.bind_eq_some_iff, Option.guard_eq_some'] at h
  obtain ⟨_, -, _, -, _, -, _, hguard, h⟩ := h
  cases h
  simp only [Bool.and_eq_true] at hguard
  have hid := hguard.1.1.1.1.1.1.1.1
  cases hvalue : raw.get "generation_id" with
  | str s =>
    rw [hvalue] at hid
    exact hid
  | _ => simp [hvalue, isDigest] at hid

section
variable [Platform] {w w₁ : World} {raw : Json} {m : Manifest} {now : ℤ} {g : String} {d i : ℕ} {rd : Option String}

theorem open_run (h : (openNewsProjection m now).run Batch.exec w = (.prepared false g d i rd, w₁)) :
    g = m.generationId ∧ d = 0 ∧ i = 0 ∧ ∃ cleanup, land Batch.exec (.openGeneration cleanup m now) w = some w₁ := by
  have hinsert : ∀ cleanup, (Program.read fun s : Store => commit (.openGeneration (cleanup ++ s.supersededIds) m now)
        fun ok => done (if ok then Reply.prepared false m.generationId 0 0 (some EMPTY_RECEIPT_DIGEST)
          else .failed)).run Batch.exec w = (.prepared false g d i rd, w₁) →
      g = m.generationId ∧ d = 0 ∧ i = 0 ∧ ∃ cleanup, land Batch.exec (.openGeneration cleanup m now) w = some w₁ := by
    intro cleanup h
    rw [run_read, run] at h
    split at h
    · next w' hland =>
      obtain ⟨hreply, rfl⟩ := Prod.mk.inj h
      simp only [if_true, Reply.prepared.injEq] at hreply
      exact ⟨hreply.2.1.symm, hreply.2.2.1.symm, hreply.2.2.2.1.symm, _, hland⟩
    · simp at h
  unfold openNewsProjection at h
  rw [run_read] at h
  split at h
  · exact hinsert [] h
  · rw [run_read] at h
    split at h
    · simp at h
    · exact hinsert _ h

/-- What a preparation that does not find its generation active leaves. -/
structure PreparedRow (w : World) (m : Manifest) (d i : ℕ) : Prop where
  row : ∃ r ∈ w.state.generations, r.manifest = m
  detail : total .detail (stagedReceipts m.generationId w.log) = d
  index : total .index (stagedReceipts m.generationId w.log) = i
  inactive : ∀ st, w.state.state = some st → st.activeGenerationId = m.generationId → st.projectionState ≠ .current

/-- The row that was opened: it has staged nothing, and another one is served. -/
theorem preparedRow_open (hw : Orderly w₁) {cleanup : List String}
    (hland : land Batch.exec (.openGeneration cleanup m now) w = some w₁) (hstaged : staged m.generationId w₁.log = []) :
    PreparedRow w₁ m 0 0 := by
  have hr := (Store.mem_generations_open (land_eq_some hland).1).2 (.inr rfl)
  refine ⟨⟨_, hr, rfl⟩, ?_, ?_, fun st hst hid _ => ?_⟩
  · rw [stagedReceipts, hstaged]
    rfl
  · rw [stagedReceipts, hstaged]
    rfl
  · obtain ⟨r, hr', hid', hcurrent, -⟩ := hw.sound.active st hst
    rw [w₁.state.generations.eq_of_key_eq hr' hr (hid'.trans hid)] at hcurrent
    cases hcurrent

theorem prepared_row (hw : Orderly w) (hstated : Stated w) (hm : validateNewsProjectionManifest raw = some m)
    (h : serve w (.prepare raw now) = (.prepared false g d i rd, w₁)) :
    g = m.generationId ∧ PreparedRow w₁ m d i := by
  have horderly := orderly_run hw [.prepare raw now]
  rw [Machine.run_cons, h] at horderly
  change (prepareNewsProjection raw now).run Batch.exec w = _ at h
  unfold prepareNewsProjection at h
  rw [hm] at h
  dsimp only at h
  rw [run_read] at h
  split at h
  · simp at h
  · next hinactive =>
    rw [run_read] at h
    split at h
    · next hfind =>
      obtain ⟨rfl, rfl, rfl, cleanup, hland⟩ := open_run h
      refine ⟨rfl, preparedRow_open horderly hland ?_⟩
      rw [(land_eq_some hland).2, staged, hw.replayed.orphan _ (Table.find?_eq_none_iff.1 hfind)]
      exact ite_self []
    · next row hfind =>
      obtain ⟨hrow, hid⟩ := Table.find?_eq_some_iff.1 hfind
      split at h
      · simp at h
      · next hmatches =>
        have hmanifest : row.manifest = m := by
          simp only [manifestMatches, Bool.not_eq_true', Bool.not_eq_false, decide_eq_true_eq] at hmatches
          rw [hmatches, show row.manifest.generationId = m.generationId from hid]
        rw [run_read] at h
        split at h
        · rw [run] at h
          split at h
          · next w' hdelete =>
            rw [if_pos rfl] at h
            obtain ⟨rfl, rfl, rfl, cleanup, hland⟩ := open_run h
            refine ⟨rfl, preparedRow_open horderly hland ?_⟩
            rw [(land_eq_some hland).2, (land_eq_some hdelete).2, staged, staged, if_pos rfl]
            exact ite_self []
          · simp at h
        · obtain ⟨hreply, rfl⟩ := Prod.mk.inj h
          simp only [Reply.prepared.injEq, true_and] at hreply
          obtain ⟨rfl, rfl, rfl, -⟩ := hreply
          have hcontract : m.contractVersion = .generation := validate_generation hm
          obtain ⟨htotal, -, -⟩ := progress_eq (l := stagedReceipts row.id w.log) (hw.recorded row.id)
            (hw.replayed.chain row hrow (hmanifest ▸ hcontract))
          rw [hid] at htotal
          refine ⟨rfl, ⟨row, hrow, hmanifest⟩, (htotal .detail).symm, (htotal .index).symm, fun st hst hactive hcurrent => ?_⟩
          have hst' := hstated st hst row hrow (hid.trans hactive.symm)
          rw [hmanifest] at hst'
          refine hinactive ?_
          rw [hst]
          simp [alreadyActive, hactive, hst'.snapshot, hst'.source, hst'.receipt, hst'.index, hst'.detail,
            hst'.sound hcurrent]

end

/-! ## Sources -/

structure Source where
  manifest : Manifest
  batches : List SourceBatch

/-- A well-formed generation under its manifest as it is sent: canonical
    batches, the details first, of items with different keys and clusters, in
    valid review states. -/
structure Source.WellFormed [Platform] (T : Source) (raw : Json) : Prop where
  manifest : validateNewsProjectionManifest raw = some T.manifest
  formed : ∀ b ∈ T.batches, b.Formed
  fits : Fits T.manifest 0 0 T.batches
  keys : ((detailItems T.batches).map itemKey).Nodup
  completes : Completes T.manifest (T.batches.map (·.sent)).reverse

/-- A staged batch that starts at some offsets or after them. -/
def Request.startsAt (d i : ℕ) : Request → Bool
  | stage .detail _ offset .. => (d : ℤ) ≤ offset
  | stage .index _ offset .. => (i : ℤ) ≤ offset
  | _ => false

/-- The batches from some offsets on, as requests. -/
def Source.remaining (T : Source) (clock : Kind → ℕ → ℤ) (d i : ℕ) : List Request :=
  (stageRequests T.manifest.generationId clock 0 0 T.batches).filter (Request.startsAt d i)

/-- The items of a kind in some batches. -/
def size (kind : Kind) (bs : List SourceBatch) : ℕ := ((bs.filter fun b => b.kind = kind).flatMap (·.items)).length

theorem size_cons (kind : Kind) (b : SourceBatch) (bs : List SourceBatch) :
    size kind (b :: bs) = (if b.kind = kind then b.items.length else 0) + size kind bs := by
  by_cases hkind : b.kind = kind <;> simp [size, hkind]

section
variable {g : String} {clock : Kind → ℕ → ℤ} {bs bs' : List SourceBatch} {d i d' i' : ℕ}

theorem stageRequests_append : stageRequests g clock d i (bs ++ bs') =
    stageRequests g clock d i bs ++ stageRequests g clock (d + size .detail bs) (i + size .index bs) bs' := by
  induction bs generalizing d i with
  | nil => rfl
  | cons b bs ih =>
    obtain ⟨kind, items, parsed⟩ := b
    cases kind <;> simp [stageRequests, ih, size_cons, Nat.add_assoc]

theorem fits_append {m : Manifest} : Fits m d i (bs ++ bs') ↔
    Fits m d i bs ∧ Fits m (d + size .detail bs) (i + size .index bs) bs' := by
  induction bs generalizing d i with
  | nil => simp [Fits, size]
  | cons b bs ih =>
    obtain ⟨kind, items, parsed⟩ := b
    cases kind <;> simp [Fits, ih, size_cons, Nat.add_assoc, and_assoc]

/-- Batches that end before some offsets do not start at them. -/
theorem startsAt_before (hne : ∀ b ∈ bs, b.items ≠ []) (hd : d + size .detail bs ≤ d') (hi : i + size .index bs ≤ i') :
    (stageRequests g clock d i bs).filter (Request.startsAt d' i') = [] := by
  induction bs generalizing d i with
  | nil => rfl
  | cons b bs ih =>
    obtain ⟨kind, items, parsed⟩ := b
    have hpos := List.length_pos_of_ne_nil (hne _ List.mem_cons_self)
    have hrest := fun b hb => hne b (List.mem_cons_of_mem _ hb)
    rw [size_cons] at hd hi
    cases kind
    all_goals simp only [reduceCtorEq, if_true, if_false] at hd hi hpos
    · rw [stageRequests, List.filter_cons_of_neg, ih hrest (show d + items.length + _ ≤ d' by omega) (by omega)]
      simp only [Request.startsAt, decide_eq_true_eq]
      omega
    · rw [stageRequests, List.filter_cons_of_neg, ih hrest (by omega) (show i + items.length + _ ≤ i' by omega)]
      simp only [Request.startsAt, decide_eq_true_eq]
      omega

/-- Batches after some offsets start at them. -/
theorem startsAt_after (hd : d' ≤ d) (hi : i' ≤ i) :
    (stageRequests g clock d i bs).filter (Request.startsAt d' i') = stageRequests g clock d i bs := by
  induction bs generalizing d i with
  | nil => rfl
  | cons b bs ih =>
    obtain ⟨kind, items, parsed⟩ := b
    cases kind
    · rw [stageRequests, List.filter_cons_of_pos, ih (by omega) hi]
      simpa [Request.startsAt] using hd
    · rw [stageRequests, List.filter_cons_of_pos, ih hd (by omega)]
      simpa [Request.startsAt] using hi

theorem remaining_eq {T : Source} (hne : ∀ b ∈ T.batches, b.items ≠ []) (hbatches : T.batches = bs ++ bs') :
    T.remaining clock (size .detail bs) (size .index bs) =
      stageRequests T.manifest.generationId clock (size .detail bs) (size .index bs) bs' := by
  have hbefore : ∀ b ∈ bs, b.items ≠ [] := fun b hb => hne b (hbatches ▸ List.mem_append_left _ hb)
  rw [Source.remaining, hbatches, stageRequests_append, List.filter_append, Nat.zero_add, Nat.zero_add,
    startsAt_before hbefore (by omega) (by omega), startsAt_after le_rfl le_rfl, List.nil_append]

end

/-! ## What staged batches leave -/

/-- What requests that stage batches leave of a store. -/
structure Stages (w w' : World) : Prop where
  generations : w'.state.generations = w.state.generations
  state : w'.state.state = w.state.state
  details : ∀ d ∈ w.state.details, d ∈ w'.state.details
  staged : ∀ g, ∃ new, staged g w'.log = new ++ staged g w.log

theorem stages_refl (w : World) : Stages w w := ⟨rfl, rfl, fun _ hd => hd, fun _ => ⟨[], rfl⟩⟩

theorem stages_land [Platform] {w₀ w w' : World} {b : Batch} (hb : b.isStage = true) (hw : Stages w₀ w)
    (h : land Batch.exec b w = some w') : Stages w₀ w' := by
  obtain ⟨hexec, hlog⟩ := land_eq_some h
  cases b with
  | stage g kind offset items payloadHash receiptDigest identityDigest rows now =>
    obtain ⟨_, _, hdetails, -, hstate⟩ := Store.stage_eq_some hexec
    refine ⟨?_, ?_, fun d hd => ?_, fun g' => ?_⟩
    · rw [hstate]
      exact hw.generations
    · rw [hstate]
      exact hw.state
    · rw [hstate]
      exact (Table.mem_insertAll hdetails).2 (.inl (hw.details d hd))
    · obtain ⟨new, hnew⟩ := hw.staged g'
      rw [hlog, staged, hnew]
      split
      · exact ⟨_ :: new, rfl⟩
      · exact ⟨new, rfl⟩
  | _ => cases hb

/-- The request of a batch. -/
def Request.stages : Request → Bool
  | stage .. => true
  | _ => false

theorem stages_run [Platform] {w : World} {requests : List Request} (h : ∀ r ∈ requests, r.stages = true) :
    Stages w (Machine.run serve w requests) :=
  serve_invariant (I := fun w' => Stages w w') (C := fun _ _ => True) (P := fun b => b.isStage = true)
    (D := fun r => r.stages = true)
    (fun r hr => by
      cases r with
      | stage kind g offset items now parsed => exact (stage_sends kind g offset now parsed).mono fun _ hb => hb.2
      | _ => cases hr)
    (fun r w' _ => commits_trivial _ _)
    (fun _ _ _ hb _ hw h => stages_land hb hw h) (stages_refl w) h

theorem stages_remaining (T : Source) (clock : Kind → ℕ → ℤ) (d i : ℕ) :
    ∀ r ∈ T.remaining clock d i, r.stages = true := by
  intro r hr
  have hstarts := (List.mem_filter.1 hr).2
  cases r with
  | stage kind g offset items now parsed => rfl
  | _ => cases hstarts

/-! ## Finishing -/

/-- What an activation that reports success found: its generation active, or
    staging and complete. -/
theorem activated_cases [Platform] {w w' : World} {g : String} {now : ℤ} {unchanged : Bool} {i d : ℕ}
    (hw : Orderly w) (h : serve w (.activate g now) = (.activated g unchanged i d, w')) :
    (∃ st, w.state.state = some st ∧ st.activeGenerationId = g ∧ st.projectionState = .current) ∨
      ∃ r ∈ w.state.generations, r.id = g ∧ r.state = .staging ∧ Completed w r := by
  change (activateNewsProjection g now).run Batch.exec w = _ at h
  unfold activateNewsProjection at h
  split at h
  · simp at h
  · rw [run_read] at h
    split at h
    · next st hst =>
      obtain ⟨hst, hid⟩ := Option.filter_eq_some_iff.1 hst
      simp only [decide_eq_true_eq] at hid
      exact .inl ⟨st, hst, hid⟩
    · rw [run_read] at h
      split at h
      · simp at h
      · next row hrow =>
        obtain ⟨hr, rfl⟩ := Table.find?_eq_some_iff.1 hrow
        split at h
        · simp at h
        · next hstaging =>
          have hstaging : row.state = .staging := by simpa using hstaging
          rw [run_read, run_read] at h
          dsimp only at h
          split at h
          · simp at h
          · next hcomplete =>
            refine .inr ⟨row, hr, rfl, hstaging, ?_⟩
            exact (complete_iff hw hr (hw.sound.contract row hr hstaging)).1 (by simpa using hcomplete)

/-- The remaining batches of a source and its activation succeed, and make it
    the current generation. -/
def Finishes [Platform] (w : World) (T : Source) (clock : Kind → ℕ → ℤ) (now : ℤ) (d i : ℕ) : Prop :=
  ∃ unchanged w', serve (Machine.run serve w (T.remaining clock d i)) (.activate T.manifest.generationId now) =
      (.activated T.manifest.generationId unchanged T.manifest.expectedIndexCount T.manifest.expectedDetailCount, w') ∧
    (∃ r ∈ w'.state.generations, r.manifest = T.manifest ∧ r.state = .current) ∧
    ∃ st, w'.state.state = some st ∧ st.activeGenerationId = T.manifest.generationId ∧ st.projectionState = .current

/-- The generation is staging, what it has accepted are the first batches of
    the source, and no stored detail contradicts the source. -/
structure Resumable (w : World) (T : Source) : Prop where
  staging : ∃ r ∈ w.state.generations, r.id = T.manifest.generationId ∧ r.state = .staging
  accepted : ∃ before after, T.batches = before ++ after ∧
    List.Forall₂ Alike (sent T.manifest.generationId w.log) (before.map (·.sent)).reverse
  agrees : Agrees w.state (detailItems T.batches)

theorem sane_sent {w : World} (hw : Orderly w) (g : String) : ∀ b ∈ sent g w.log, Sane b := by
  intro b hb
  obtain ⟨b', hb', rfl⟩ := List.mem_map.1 hb
  have haccepted := hw.replayed.accepted g b' hb'
  exact ⟨haccepted.parsed, finite_of_payloadHash haccepted.hash⟩

theorem sane_source {bs : List SourceBatch} (hformed : ∀ b ∈ bs, b.Formed) :
    ∀ b ∈ (bs.map (·.sent)).reverse, Sane b := by
  intro b hb
  obtain ⟨b', hb', rfl⟩ := List.mem_map.1 (List.mem_reverse.1 hb)
  obtain ⟨hash, hhash⟩ := (hformed b' hb').hash
  exact ⟨b'.parsed, finite_of_payloadHash hhash⟩

/-- What was sent first is a first part of the source. -/
theorem exists_before {new old : List (Kind × List Json)} {bs : List SourceBatch}
    (h : List.Forall₂ Alike (new ++ old) (bs.map (·.sent)).reverse) :
    ∃ before after, bs = before ++ after ∧ List.Forall₂ Alike old (before.map (·.sent)).reverse := by
  have hlength := h.length_eq
  rw [List.length_append, List.length_reverse, List.length_map] at hlength
  refine ⟨bs.take old.length, bs.drop old.length, (List.take_append_drop ..).symm, ?_⟩
  have hold := List.forall₂_drop new.length h
  rw [List.drop_left, ← List.take_append_drop old.length bs, List.map_append, List.reverse_append,
    List.drop_left' (by simp; omega)] at hold
  exact hold

section
variable [Platform] {w : World} {T : Source} {raw : Json} {clock : Kind → ℕ → ℤ} {now : ℤ} {d i : ℕ}

theorem finishes_of_resumable (hw : Orderly w) (hT : T.WellFormed raw) (hprepared : PreparedRow w T.manifest d i)
    (h : Resumable w T) : Finishes w T clock now d i := by
  obtain ⟨⟨r, hr, hid, hstaging⟩, ⟨before, after, hbatches, halike⟩, hagrees⟩ := h
  obtain ⟨r', hr', hmanifest⟩ := hprepared.row
  have hrr : r' = r := w.state.generations.eq_of_key_eq hr' hr (by rw [Generation.id, hmanifest, hid])
  subst hrr
  have hsane := sane_sent hw T.manifest.generationId
  have hbefore : ∀ b ∈ before, b.Formed := fun b hb => hT.formed b (hbatches ▸ List.mem_append_left _ hb)
  have hafter : ∀ b ∈ after, b.Formed := fun b hb => hT.formed b (hbatches ▸ List.mem_append_right _ hb)
  have htotal : ∀ kind, total kind (stagedReceipts T.manifest.generationId w.log) = size kind before := fun kind => by
    rw [total_staged (hw.replayed.accepted _), stagedItems_eq, length_congr hsane (sane_source hbefore) halike,
      sentItems_source, size]
  obtain rfl : size .detail before = d := (htotal .detail).symm.trans hprepared.detail
  obtain rfl : size .index before = i := (htotal .index).symm.trans hprepared.index
  have hfits : Fits T.manifest (size .detail before) (size .index before) after := by
    have hfits := hT.fits
    rw [hbatches, fits_append, Nat.zero_add, Nat.zero_add] at hfits
    exact hfits.2
  have hmem : ∀ item ∈ detailItems after, item ∈ detailItems T.batches := by
    intro item hitem
    obtain ⟨b, hb, hkind, hitem⟩ := mem_detailItems.1 hitem
    exact mem_detailItems.2 ⟨b, hbatches ▸ List.mem_append_right _ hb, hkind, hitem⟩
  have hcompletes : Completes T.manifest ((after.map (·.sent)).reverse ++ sent T.manifest.generationId w.log) := by
    refine @Completes.congr _ (T.batches.map (·.sent)).reverse _ (fun b hb => ?_) (sane_source hT.formed) ?_
      hT.completes
    · rcases List.mem_append.1 hb with hb | hb
      · exact sane_source hafter b hb
      · exact hsane b hb
    · rw [hbatches, List.map_append, List.reverse_append]
      refine List.rel_append (List.forall₂_same.2 fun b hb => ⟨rfl, ?_⟩) halike
      exact Json.same_refl (sane_source hafter b hb).1
  obtain ⟨w', hserve, -, -, hcurrent, hstate⟩ := exists_replay hw hr hstaging
    (hid ▸ generationId_of_validate hT.manifest) clock now hafter
    (fun item hitem item' hitem' hkey => List.inj_on_of_nodup_map hT.keys (hmem item hitem) (hmem item' hitem') hkey)
    (fun item hitem => hagrees item (hmem item hitem)) (hid ▸ htotal .detail) (hid ▸ htotal .index)
    (hmanifest ▸ hfits) (by rw [hmanifest, hid]; exact hcompletes)
  refine ⟨false, w', ?_, hmanifest ▸ hcurrent, hid ▸ hstate⟩
  rw [remaining_eq (fun b hb => (hT.formed b hb).nonempty) hbatches]
  rw [hid, hmanifest] at hserve
  exact hserve

theorem resumable_of_finishes (hw : Orderly w) (hT : T.WellFormed raw) (hprepared : PreparedRow w T.manifest d i)
    (hinj : Injective (sent T.manifest.generationId (Machine.run serve w (T.remaining clock d i)).log)
      (T.batches.map (·.sent)).reverse) (h : Finishes w T clock now d i) : Resumable w T := by
  obtain ⟨unchanged, w', hserve, -⟩ := h
  have hstages := stages_run (w := w) (stages_remaining T clock d i)
  have horderly := orderly_run hw (T.remaining clock d i)
  generalize Machine.run serve w (T.remaining clock d i) = w₂ at hserve hinj hstages horderly
  rcases activated_cases horderly hserve with ⟨st, hst, hid, hcurrent⟩ | ⟨r, hr, hid, hstaging, hcompleted⟩
  · exact absurd hcurrent (hprepared.inactive st (hstages.state ▸ hst) hid)
  have hr₁ : r ∈ w.state.generations := hstages.generations ▸ hr
  obtain ⟨r', hr', hmanifest⟩ := hprepared.row
  obtain rfl : r' = r := w.state.generations.eq_of_key_eq hr' hr₁ (by rw [Generation.id, hmanifest, hid])
  have hsane := sane_sent horderly T.manifest.generationId
  have hsource := sane_source hT.formed
  have halike : List.Forall₂ Alike (sent T.manifest.generationId w₂.log) (T.batches.map (·.sent)).reverse := by
    refine sentDigest_inj hsane hsource hinj ?_
    have hchain := horderly.replayed.chain r' hr (horderly.sound.contract r' hr hstaging)
    rw [← hid, ← chainDigest_sent hchain (horderly.replayed.accepted _), hcompleted.digest, hmanifest,
      hT.completes.digest]
  refine ⟨⟨r', hr₁, hid, hstaging⟩, ?_, ?_⟩
  · obtain ⟨new, hnew⟩ := hstages.staged T.manifest.generationId
    rw [sent, hnew, List.map_append] at halike
    exact exists_before halike
  · intro item hitem d hd hkey
    rw [detailItems, ← sentItems_source] at hitem
    have hitems := List.forall₂_iff_get.1 (alike_items hsane hsource halike .detail)
    obtain ⟨i, hi, rfl⟩ := List.getElem_of_mem hitem
    obtain ⟨hwf, hwf', hsame⟩ := hitems.2 i (hitems.1 ▸ hi) hi
    have ha := List.get_mem (sentItems .detail (sent T.manifest.generationId w₂.log)) ⟨i, hitems.1 ▸ hi⟩
    generalize (sentItems .detail (sent T.manifest.generationId w₂.log)).get _ = a at ha hwf hsame
    rw [← stagedItems_eq, ← hid] at ha
    obtain ⟨b, hb, hkind, ha⟩ := mem_stagedItems.1 ha
    obtain ⟨d', hd', hholds⟩ := horderly.replayed.details r' hr hstaging b hb hkind a ha
    have hholds' := hholds.congr hwf hwf' hsame
    rwa [w₂.state.details.eq_of_key_eq (hstages.details d hd) hd' (hkey.trans hholds'.key.symm)]

end

/-- What the manifest of a generation without items says. -/
def emptyGeneration (id : String) : Manifest :=
  { generationId := id, snapshotId := id, contractVersion := .generation, windowStart := "2026-01-01"
    watermark := "2026-01-02", expectedIndexCount := 0, expectedDetailCount := 0, withdrawalCount := 0
    sourceDigest := id, expectedReceiptDigest := EMPTY_RECEIPT_DIGEST }

/-- A generation without items. -/
def emptySource : Source := ⟨emptyGeneration firstId, []⟩

theorem emptySource_wellFormed : @Source.WellFormed sampleDates emptySource (emptyManifest firstId) := by
  refine @Source.WellFormed.mk sampleDates _ _ (by decide) (fun _ hb => (nomatch hb)) trivial List.nodup_nil ?_
  exact ⟨fun kind => by cases kind <;> rfl, fun _ hitem => (nomatch hitem), List.nodup_nil, rfl, rfl⟩

/-- One generation is published after another. -/
def superseding : List Request :=
  [.prepare (emptyManifest firstId) 0, .activate firstId 1, .prepare (emptyManifest secondId) 2, .activate secondId 3]

end Xauusd.Projection
