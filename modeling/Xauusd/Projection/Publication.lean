/-
  Producers that interleave: what a publication keeps, whatever lands between
  the reads of a request and its batch.

  * `Sound w`: the rows of the generations and the state row fit together;
  * `Fresh w b`: the batch lands while what its request checked still holds;
  * `sound_land`, `kept_land`: what one batch preserves;
  * `publication_safe`: **in every interleaving of fresh batches, at most one
    generation is staging and at most one current, the state row's generation
    is current and its complete membership is served, and no batch removes a
    detail that is served or staged**.
-/
import Xauusd.Projection.Served

namespace Xauusd.Projection

open Program

/-- The generation that the last publication of the log published. -/
def published : List Batch → Option String
  | [] => none
  | .activate m _ _ _ :: _ => some m.generationId
  | .delta d _ _ :: _ => some d.computed
  | _ :: log => published log

structure Sound (w : World) : Prop where
  oneStaging : ∀ r ∈ w.state.generations, ∀ r' ∈ w.state.generations,
    r.state = .staging → r'.state = .staging → r = r'
  oneCurrent : ∀ r ∈ w.state.generations, ∀ r' ∈ w.state.generations,
    r.state = .current → r'.state = .current → r = r'
  contract : ∀ r ∈ w.state.generations, r.state = .staging → r.manifest.contractVersion = .generation
  active : ∀ st, w.state.state = some st → ∃ r ∈ w.state.generations,
    r.id = st.activeGenerationId ∧ r.state = .current ∧ r.manifest.expectedIndexCount = st.indexCount
  published : ∀ st, w.state.state = some st → published w.log = some st.activeGenerationId

theorem sound_empty : Sound World.empty where
  oneStaging := fun _ hr => nomatch hr
  oneCurrent := fun _ hr => nomatch hr
  contract := fun _ hr => nomatch hr
  active := fun _ hst => nomatch hst
  published := fun _ hst => nomatch hst

/-! ## Fresh batches -/

/-- What the request of a batch checked holds where the batch lands: a cleanup
    takes every staging generation and no current one, and an activation finds
    its generation still staging, with the receipts it counted. -/
def Fresh (w : World) : Batch → Prop
  | .deleteGeneration g => ∀ r ∈ w.state.generations,
      (r.id = g → r.state ≠ .current) ∧ (r.state = .staging → r.id = g)
  | .openGeneration cleanup _ _ => ∀ r ∈ w.state.generations,
      (r.id ∈ cleanup → r.state ≠ .current) ∧ (r.state = .staging → r.id ∈ cleanup)
  | .activate m _ counted _ =>
      (∃ r ∈ w.state.generations, r.manifest = m ∧ r.state = .staging) ∧
        w.state.receiptItems m.generationId = counted
  | _ => True

theorem counted_of_fresh {w : World} {b : Batch} (hw : Sound w) (hb : Fresh w b) : Counted w b := by
  cases b with
  | activate m p counted now =>
    obtain ⟨⟨r, hr, rfl, hstaging⟩, hcounted⟩ := hb
    exact ⟨hw.contract r hr hstaging, hcounted⟩
  | _ => trivial

namespace Store

variable {s s' : Store}

theorem state_cleanup (s : Store) (cleanup : List String) :
    (cleanup.foldl deleteGeneration s).state = s.state := by
  induction cleanup generalizing s with
  | nil => rfl
  | cons g cleanup ih => exact ih _

theorem mem_generations_cleanup {cleanup : List String} {r : Generation} :
    r ∈ (cleanup.foldl deleteGeneration s).generations ↔ r ∈ s.generations ∧ r.id ∉ cleanup := by
  induction cleanup generalizing s with
  | nil => simp
  | cons g cleanup ih =>
    rw [List.foldl_cons, ih]
    have hdelete : r ∈ (s.deleteGeneration g).generations ↔ r ∈ s.generations ∧ decide (r.id = g) = false :=
      Table.mem_delete
    rw [hdelete]
    simp only [decide_eq_false_iff_not, List.mem_cons, not_or, and_assoc]

theorem mem_generations_open {cleanup : List String} {m : Manifest} {now : ℤ}
    (h : s.openGeneration cleanup m now = some s') {r : Generation} :
    r ∈ s'.generations ↔ (r ∈ s.generations ∧ r.id ∉ cleanup) ∨ r = ⟨m, .staging, now, none⟩ := by
  obtain ⟨generations, hgenerations, rfl⟩ := Option.map_eq_some_iff.1 h
  show r ∈ generations ↔ _
  rw [Table.mem_insertAll hgenerations, mem_generations_cleanup, List.mem_singleton]

/-- The row of a generation after the activation of another, or of itself. -/
def afterActivation (id : String) (now : ℤ) (r : Generation) : Generation :=
  if r.id = id ∧ r.state = .staging then r.publish now
  else if r.state = .current ∧ r.id ≠ id then r.supersede now else r

theorem mem_generations_activate {m : Manifest} {p : Progress} {now : ℤ}
    (h : s.activate m p now = some s') {r : Generation} :
    r ∈ s'.generations ↔ ∃ r₀ ∈ s.generations, r = afterActivation m.generationId now r₀ := by
  obtain ⟨_, -, rfl⟩ := Option.map_eq_some_iff.1 h
  have hrow : ∀ r₀ : Generation, afterActivation m.generationId now r₀ =
      (fun r₁ => if (decide (r₁.id = m.generationId) && decide (r₁.state = .staging)) = true
        then Generation.publish now r₁ else r₁)
      (if (decide (r₀.state = .current) && decide (r₀.id ≠ m.generationId)) = true
        then Generation.supersede now r₀ else r₀) := by
    intro r₀
    by_cases hcurrent : r₀.state = .current ∧ r₀.id ≠ m.generationId
    · simp [afterActivation, hcurrent, Generation.supersede]
    · simp [afterActivation, hcurrent]
  show r ∈ Table.update (Table.update _ _ _ (Generation.id_supersede now)) _ _ (Generation.id_publish now) ↔ _
  rw [Table.mem_update (Generation.id_publish now)]
  constructor
  · rintro ⟨r₁, hr₁, rfl⟩
    obtain ⟨r₀, hr₀, rfl⟩ := (Table.mem_update (Generation.id_supersede now)).1 hr₁
    exact ⟨r₀, hr₀, (hrow r₀).symm⟩
  · rintro ⟨r₀, hr₀, rfl⟩
    exact ⟨_, (Table.mem_update (Generation.id_supersede now)).2 ⟨r₀, hr₀, rfl⟩, hrow r₀⟩

@[simp] theorem id_afterActivation (id : String) (now : ℤ) (r : Generation) :
    (afterActivation id now r).id = r.id := by
  unfold afterActivation
  split
  · rfl
  · split <;> rfl

@[simp] theorem manifest_afterActivation (id : String) (now : ℤ) (r : Generation) :
    (afterActivation id now r).manifest = r.manifest := by
  unfold afterActivation
  split
  · rfl
  · split <;> rfl

theorem staging_afterActivation {id : String} {now : ℤ} {r : Generation}
    (h : (afterActivation id now r).state = .staging) : afterActivation id now r = r ∧ r.state = .staging := by
  unfold afterActivation at h ⊢
  split
  · next hr => simp [hr, Generation.publish] at h
  · next hr =>
    split
    · next hr' => simp [hr', Generation.supersede] at h
    · next hr' => exact ⟨rfl, by simpa [hr, hr'] using h⟩

theorem current_afterActivation {id : String} {now : ℤ} {r : Generation}
    (h : (afterActivation id now r).state = .current) : r.id = id := by
  unfold afterActivation at h
  split at h
  · next hr => exact hr.1
  · next hr =>
    split at h
    · cases h
    · next hr' =>
      by_contra hid
      exact hr' ⟨h, hid⟩

theorem mem_generations_verify {g : String} {missing violations : ℕ} {current : Bool} {now : ℤ}
    {r : Generation} : r ∈ (s.verify g missing violations current now).generations ↔
      ∃ r₀ ∈ s.generations, r = if r₀.id = g then r₀.touch now else r₀ := by
  show r ∈ Table.update _ _ _ (Generation.id_touch now) ↔ _
  rw [Table.mem_update (Generation.id_touch now)]
  simp only [decide_eq_true_eq]

/-- The rows after a sparse publication: the new one, and the old ones, none of
    them current. -/
theorem mem_generations_patched [Platform] {d : Delta} {serialized : List Json} {now : ℤ}
    (h : s.Patched d serialized now s') {r : Generation} :
    r ∈ s'.generations ↔ (∃ r₀ ∈ s.generations, r₀.id ∉ s.spentIds d ∧
      r = if r₀.state = .current then r₀.supersede now else r₀) ∨ r = ⟨d.manifest, .current, now, some now⟩ := by
  rw [Table.mem_insertAll h.generations, List.mem_singleton, Table.mem_update (Generation.id_supersede now)]
  simp only [Table.mem_delete, decide_eq_false_iff_not, decide_eq_true_eq, and_assoc]

end Store

/-! ## What one batch preserves -/

section
variable {w w' : World}

/-- Rows that an update leaves as they are, up to the time. -/
theorem sound_of_rows (hw : Sound w) (hlog : published w'.log = published w.log)
    (hrows : ∀ r' ∈ w'.state.generations, ∃ r ∈ w.state.generations,
      r'.state = r.state ∧ r'.manifest = r.manifest)
    (hback : ∀ r ∈ w.state.generations, r.state = .current →
      ∃ r' ∈ w'.state.generations, r'.state = r.state ∧ r'.manifest = r.manifest)
    (hstate : ∀ st', w'.state.state = some st' → ∃ st, w.state.state = some st ∧
      st'.activeGenerationId = st.activeGenerationId ∧ st'.indexCount = st.indexCount) : Sound w' := by
  have hsame : ∀ state : GenerationState, (∀ r ∈ w.state.generations, ∀ r' ∈ w.state.generations,
      r.state = state → r'.state = state → r = r') → ∀ r ∈ w'.state.generations,
      ∀ r' ∈ w'.state.generations, r.state = state → r'.state = state → r = r' := by
    intro state hone r hr r' hr' hstaging hstaging'
    obtain ⟨r₀, hr₀, hs₀, hm₀⟩ := hrows r hr
    obtain ⟨r₁, hr₁, hs₁, hm₁⟩ := hrows r' hr'
    have heq : r₀ = r₁ := hone r₀ hr₀ r₁ hr₁ (hs₀ ▸ hstaging) (hs₁ ▸ hstaging')
    refine w'.state.generations.eq_of_key_eq hr hr' ?_
    rw [Generation.id, Generation.id, hm₀, hm₁, heq]
  refine ⟨hsame .staging hw.oneStaging, hsame .current hw.oneCurrent, ?_, ?_, ?_⟩
  · intro r hr hstaging
    obtain ⟨r₀, hr₀, hs₀, hm₀⟩ := hrows r hr
    rw [hm₀]
    exact hw.contract r₀ hr₀ (hs₀ ▸ hstaging)
  · intro st' hst'
    obtain ⟨st, hst, hid, hcount⟩ := hstate st' hst'
    obtain ⟨r, hr, hrid, hcurrent, hexpected⟩ := hw.active st hst
    obtain ⟨r', hr', hs', hm'⟩ := hback r hr hcurrent
    refine ⟨r', hr', ?_, hs'.trans hcurrent, ?_⟩
    · rw [hid, ← hrid, Generation.id, hm', Generation.id]
    · rw [hm', hexpected, hcount]
  · intro st' hst'
    obtain ⟨st, hst, hid, -⟩ := hstate st' hst'
    rw [hlog, hw.published st hst, hid]

theorem sound_cleanup (hw : Sound w) (cleanup : List String)
    (hfresh : ∀ r ∈ w.state.generations, r.id ∈ cleanup → r.state ≠ .current) :
    Sound ⟨cleanup.foldl Store.deleteGeneration w.state, w.log⟩ := by
  refine sound_of_rows hw rfl (fun r hr => ?_) (fun r hr hcurrent => ?_) (fun st hst => ?_)
  · exact ⟨r, (Store.mem_generations_cleanup.1 hr).1, rfl, rfl⟩
  · refine ⟨r, Store.mem_generations_cleanup.2 ⟨hr, fun hmem => ?_⟩, rfl, rfl⟩
    exact hfresh r hr hmem hcurrent
  · exact ⟨st, Store.state_cleanup w.state cleanup ▸ hst, rfl, rfl⟩

/-- **A fresh batch keeps the rows of the generations sound.** -/
theorem sound_land [Platform] {b : Batch} (hb : b.Formed) (hfresh : Fresh w b) (hw : Sound w)
    (h : land Batch.exec b w = some w') : Sound w' := by
  obtain ⟨hexec, hlog⟩ := land_eq_some h
  cases b with
  | deleteGeneration g =>
    have hclean := sound_cleanup hw [g] fun r hr hmem => (hfresh r hr).1 (List.mem_singleton.1 hmem)
    have hstate := Option.some.inj hexec
    refine sound_of_rows hclean ((congrArg published hlog).trans rfl) ?_ ?_ ?_
    all_goals rw [← hstate]
    · exact fun r hr => ⟨r, hr, rfl, rfl⟩
    · exact fun r hr _ => ⟨r, hr, rfl, rfl⟩
    · exact fun st hst => ⟨st, hst, rfl, rfl⟩
  | openGeneration cleanup m now =>
    have hclean := sound_cleanup hw cleanup fun r hr => (hfresh r hr).1
    have hrows := fun r => Store.mem_generations_open (r := r) hexec
    have hold : ∀ r ∈ w'.state.generations, r.state ≠ .staging →
        r ∈ w.state.generations ∧ r.id ∉ cleanup := by
      intro r hr hstaging
      rcases (hrows r).1 hr with hr | rfl
      · exact hr
      · exact absurd rfl hstaging
    have hnew : ∀ r ∈ w'.state.generations, r.state = .staging → r = ⟨m, .staging, now, none⟩ := by
      intro r hr hstaging
      rcases (hrows r).1 hr with ⟨hr, hout⟩ | rfl
      · exact absurd ((hfresh r hr).2 hstaging) hout
      · rfl
    have hstate : w'.state.state = (cleanup.foldl Store.deleteGeneration w.state).state := by
      obtain ⟨_, -, hs⟩ := Option.map_eq_some_iff.1 hexec
      exact hs ▸ rfl
    refine ⟨?_, ?_, ?_, ?_, ?_⟩
    · intro r hr r' hr' hs hs'
      rw [hnew r hr hs, hnew r' hr' hs']
    · intro r hr r' hr' hs hs'
      exact hw.oneCurrent r (hold r hr (by simp [hs])).1 r' (hold r' hr' (by simp [hs'])).1 hs hs'
    · intro r hr hs
      rw [hnew r hr hs]
      exact hb
    · intro st hst
      obtain ⟨r, hr, hid, hcurrent, hcount⟩ := hclean.active st (hstate ▸ hst)
      exact ⟨r, (hrows r).2 (.inl (Store.mem_generations_cleanup.1 hr)), hid, hcurrent, hcount⟩
    · intro st hst
      rw [hlog]
      exact hclean.published st (hstate ▸ hst)
  | stage g kind offset items payloadHash receiptDigest identityDigest rows now =>
    obtain ⟨_, _, -, -, hstate⟩ := Store.stage_eq_some hexec
    refine sound_of_rows hw ((congrArg published hlog).trans rfl) ?_ ?_ ?_
    all_goals rw [hstate]
    · exact fun r hr => ⟨r, hr, rfl, rfl⟩
    · exact fun r hr _ => ⟨r, hr, rfl, rfl⟩
    · exact fun st hst => ⟨st, hst, rfl, rfl⟩
  | activate m p counted now =>
    have hrows := fun r => Store.mem_generations_activate (r := r) hexec
    obtain ⟨⟨r₀, hr₀, rfl, hstaging⟩, -⟩ := hfresh
    have hstate : ∀ st, w'.state.state = some st → st.activeGenerationId = r₀.id ∧
        st.indexCount = r₀.manifest.expectedIndexCount := by
      obtain ⟨_, -, hs⟩ := Option.map_eq_some_iff.1 hexec
      intro st hst
      rw [← hs] at hst
      cases hst
      exact ⟨rfl, rfl⟩
    refine ⟨?_, ?_, ?_, ?_, ?_⟩
    · intro r hr r' hr' hs hs'
      obtain ⟨q, hq, rfl⟩ := (hrows r).1 hr
      obtain ⟨q', hq', rfl⟩ := (hrows r').1 hr'
      rw [hw.oneStaging q hq q' hq' (Store.staging_afterActivation hs).2 (Store.staging_afterActivation hs').2]
    · intro r hr r' hr' hs hs'
      refine w'.state.generations.eq_of_key_eq hr hr' ?_
      obtain ⟨q, hq, rfl⟩ := (hrows r).1 hr
      obtain ⟨q', hq', rfl⟩ := (hrows r').1 hr'
      rw [Store.id_afterActivation, Store.id_afterActivation, Store.current_afterActivation hs,
        Store.current_afterActivation hs']
    · intro r hr hs
      obtain ⟨q, hq, rfl⟩ := (hrows r).1 hr
      rw [Store.manifest_afterActivation]
      exact hw.contract q hq (Store.staging_afterActivation hs).2
    · intro st hst
      obtain ⟨hid, hcount⟩ := hstate st hst
      refine ⟨_, (hrows _).2 ⟨r₀, hr₀, rfl⟩, ?_, ?_, ?_⟩
      · rw [Store.id_afterActivation, hid]
      · have hpub : r₀.id = r₀.manifest.generationId ∧ r₀.state = .staging := ⟨rfl, hstaging⟩
        rw [Store.afterActivation, if_pos hpub]
        rfl
      · rw [Store.manifest_afterActivation, hcount]
    · intro st hst
      rw [hlog, (hstate st hst).1]
      rfl
  | verify g missing violations current now =>
    have hstate := Option.some.inj hexec
    have hrows : ∀ r, r ∈ w'.state.generations ↔ ∃ r₀ ∈ w.state.generations,
        r = if r₀.id = g then r₀.touch now else r₀ := fun r => hstate ▸ Store.mem_generations_verify
    have htouch : ∀ r : Generation, (if r.id = g then r.touch now else r).state = r.state ∧
        (if r.id = g then r.touch now else r).manifest = r.manifest := by
      intro r
      split <;> exact ⟨rfl, rfl⟩
    refine sound_of_rows hw ((congrArg published hlog).trans rfl) (fun r hr => ?_) (fun r hr _ => ?_) (fun st hst => ?_)
    · obtain ⟨q, hq, rfl⟩ := (hrows r).1 hr
      exact ⟨q, hq, htouch q⟩
    · exact ⟨_, (hrows _).2 ⟨r, hr, rfl⟩, htouch r⟩
    · rw [← hstate] at hst
      obtain ⟨st₀, hst₀, rfl⟩ := Option.map_eq_some_iff.1 hst
      refine ⟨st₀, hst₀, ?_⟩
      split <;> exact ⟨rfl, rfl⟩
  | delta d serialized now =>
    have hpatched := Store.applyDelta_eq_some hexec
    have hrows := fun r => Store.mem_generations_patched (r := r) hpatched
    have hnone : ∀ r ∈ w.state.generations, r.state ≠ .staging := by
      have hbase := hpatched.base
      intro r hr hstaging
      unfold Store.servesBase at hbase
      split at hbase
      · cases hbase
      · simp only [Bool.and_eq_true, Bool.not_eq_true', Store.isStaging, List.any_eq_false,
          decide_eq_true_eq] at hbase
        exact hbase.2 r hr hstaging
    have hcurrent : ∀ r ∈ w'.state.generations, r.state = .current → r = ⟨d.manifest, .current, now, some now⟩ := by
      intro r hr hs
      rcases (hrows r).1 hr with ⟨q, hq, -, rfl⟩ | rfl
      · split at hs
        · cases hs
        · next hne => exact absurd hs hne
      · rfl
    have hstaging : ∀ r ∈ w'.state.generations, r.state ≠ .staging := by
      intro r hr hs
      rcases (hrows r).1 hr with ⟨q, hq, -, rfl⟩ | rfl
      · split at hs
        · cases hs
        · exact hnone q hq hs
      · cases hs
    refine ⟨fun r hr _ _ hs => absurd hs (hstaging r hr), ?_, fun r hr hs => absurd hs (hstaging r hr), ?_, ?_⟩
    · intro r hr r' hr' hs hs'
      rw [hcurrent r hr hs, hcurrent r' hr' hs']
    · intro st hst
      rw [hpatched.state] at hst
      cases hst
      exact ⟨_, (hrows _).2 (.inr rfl), rfl, rfl, rfl⟩
    · intro st hst
      rw [hpatched.state] at hst
      cases hst
      rw [hlog]
      rfl

/-! ## Details -/

/-- The generations that a batch deletes. -/
def Batch.deletes : Batch → List String
  | deleteGeneration g => [g]
  | openGeneration cleanup _ _ => cleanup
  | _ => []

/-- The keys of the details that a generation's receipts list. -/
def Store.stagedKeys (s : Store) (g : String) : List String :=
  (s.receiptsOf g .detail).flatMap (·.identityKeys)

/-- The batch removes no detail that is served, or that belongs to a staging
    generation which the batch does not itself end. -/
def KeepsDetails (b : Batch) (w w' : World) : Prop :=
  ∀ d ∈ w.state.details, ((w.state.activeAt d.detailKey).isSome = true ∨
    ∃ r ∈ w.state.generations, r.state = .staging ∧ r.id ∉ b.deletes ∧
      d.detailKey ∈ w.state.stagedKeys r.id) → d ∈ w'.state.details

theorem Store.mem_details_cleanup {s : Store} {cleanup : List String} {d : DetailRow} (hd : d ∈ s.details)
    (hserved : (s.activeAt d.detailKey).isSome = true) :
    d ∈ (cleanup.foldl Store.deleteGeneration s).details := by
  induction cleanup generalizing s with
  | nil => exact hd
  | cons g cleanup ih =>
    refine ih ?_ ?_
    · obtain ⟨e, he⟩ := Option.isSome_iff_exists.1 hserved
      obtain ⟨r, hr, -, hkey⟩ := Store.exists_of_activeAt he
      obtain ⟨hr, hactive⟩ := Store.mem_activeRows.1 hr
      refine Table.mem_delete.2 ⟨hd, ?_⟩
      rw [Table.find?_eq_some_iff.2 ⟨Table.mem_delete.2 ⟨hr, by simp [hactive]⟩, hkey⟩]
      rfl
    · rw [Store.activeAt_congr (Store.activeRows_deleteGeneration s g)]
      exact hserved

theorem Store.mem_insertDetails {now : ℤ} {items : List (Json × Json)}
    {details details' : Table DetailRow.detailKey} (h : items.foldlM (insertDetail now) details = some details')
    {d : DetailRow} (hd : d ∈ details) : d ∈ details' := by
  induction items generalizing details with
  | nil =>
    cases h
    exact hd
  | cons item items ih =>
    rw [List.foldlM_cons, Option.bind_eq_bind, Option.bind_eq_some_iff] at h
    obtain ⟨details₁, h₁, h⟩ := h
    refine ih h ?_
    simp only [insertDetail] at h₁
    split at h₁
    · split at h₁
      · cases h₁
        exact Table.mem_insertIgnore_of_mem hd
      · cases h₁
    · cases h₁

theorem kept_land [Platform] {b : Batch} (hfresh : Fresh w b)
    (h : land Batch.exec b w = some w') : KeepsDetails b w w' := by
  obtain ⟨hexec, -⟩ := land_eq_some h
  intro d hd hkept
  cases b with
  | deleteGeneration g =>
    rcases hkept with hserved | ⟨r, hr, hstaging, hout, -⟩
    · rw [← Option.some.inj hexec]
      exact @Store.mem_details_cleanup _ [g] _ hd hserved
    · exact absurd (List.mem_singleton.2 ((hfresh r hr).2 hstaging)) hout
  | openGeneration cleanup m now =>
    obtain ⟨_, -, hstate⟩ := Option.map_eq_some_iff.1 hexec
    rcases hkept with hserved | ⟨r, hr, hstaging, hout, -⟩
    · rw [← hstate]
      exact Store.mem_details_cleanup hd hserved
    · exact absurd ((hfresh r hr).2 hstaging) hout
  | stage g kind offset items payloadHash receiptDigest identityDigest rows now =>
    obtain ⟨details, _, hdetails, -, hstate⟩ := Store.stage_eq_some hexec
    rw [hstate]
    exact (Table.mem_insertAll hdetails).2 (.inl hd)
  | activate m p counted now =>
    obtain ⟨_, -, hstate⟩ := Option.map_eq_some_iff.1 hexec
    exact hstate ▸ hd
  | verify g missing violations current now => exact Option.some.inj hexec ▸ hd
  | delta d serialized now => exact Store.mem_insertDetails (Store.applyDelta_eq_some hexec).details hd

/-! ## Complete memberships -/

/-- Items with different keys correspond one to one to the rows that serve them. -/
theorem Store.perm_of_activeAt {s : Store} {items : List Json} (hkeys : (items.map itemKey).Nodup)
    (h : ∀ key, s.activeAt key = (lastItem items key).map indexEntry) :
    (s.activeRows.map (·.entry)).Perm (items.map indexEntry) := by
  have hentries : ∀ item ∈ items, lastItem items (itemKey item) = some item := by
    intro item hitem
    obtain ⟨item', hitem'⟩ := Option.isSome_iff_exists.1 (key_mem_of_lastItem.2 (List.mem_map_of_mem hitem))
    obtain ⟨hmem, hkey⟩ := lastItem_mem hitem'
    rw [hitem', List.inj_on_of_nodup_map hkeys hmem hitem hkey]
  refine (List.perm_ext_iff_of_nodup ?_ ?_).2 fun e => ⟨fun he => ?_, fun he => ?_⟩
  · exact List.Nodup.of_map IndexEntry.detailKey (by rw [List.map_map]; exact s.nodup_activeRows)
  · exact List.Nodup.of_map IndexEntry.detailKey (by rw [List.map_map]; exact hkeys)
  · obtain ⟨r, hr, rfl⟩ := List.mem_map.1 he
    have hactive := Store.activeAt_of_mem hr
    rw [h, Option.map_eq_some_iff] at hactive
    obtain ⟨item, hitem, hentry⟩ := hactive
    rw [← hentry]
    exact List.mem_map_of_mem (lastItem_mem hitem).1
  · obtain ⟨item, hitem, rfl⟩ := List.mem_map.1 he
    have hactive : s.activeAt (itemKey item) = some (indexEntry item) := by
      rw [h, hentries item hitem]
      rfl
    obtain ⟨r, hr, hentry, -⟩ := Store.exists_of_activeAt hactive
    rw [← hentry]
    exact List.mem_map_of_mem hr

/-- The state row's count is the number of rows that are served. -/
def CountServed (w : World) : Prop :=
  ∀ st, w.state.state = some st → w.state.activeRows.length = st.indexCount

/-- An activation counted items with different keys. -/
def Distinct : Batch → Prop
  | .activate _ _ counted _ => (counted.map itemKey).Nodup
  | _ => True

theorem countServed_land [Platform] {b : Batch} (hb : b.Formed) (hfresh : Fresh w b) (hdistinct : Distinct b)
    (hsound : Sound w) (hserved : Served w) (hw : CountServed w)
    (h : land Batch.exec b w = some w') : CountServed w' := by
  have hserved' := served_land hb (counted_of_fresh hsound hfresh) hserved h
  obtain ⟨hexec, hlog⟩ := land_eq_some h
  intro st hst
  cases b with
  | deleteGeneration g =>
    rw [← Option.some.inj hexec] at hst ⊢
    rw [Store.activeRows_deleteGeneration]
    exact hw st hst
  | openGeneration cleanup m now =>
    rw [Store.activeRows_open hexec]
    refine hw st ?_
    obtain ⟨_, -, hstate⟩ := Option.map_eq_some_iff.1 hexec
    rw [← Store.state_cleanup w.state cleanup, ← hst, ← hstate]
  | stage g kind offset items payloadHash receiptDigest identityDigest rows now =>
    obtain ⟨_, _, -, -, hstate⟩ := Store.stage_eq_some hexec
    rw [Store.activeRows_stage hexec]
    rw [hstate] at hst
    exact hw st hst
  | activate m p counted now =>
    obtain ⟨⟨r, hr, rfl, hstaging⟩, -⟩ := hfresh
    have hcounted := hb (hsound.contract r hr hstaging)
    have hperm := Store.perm_of_activeAt (s := w'.state) hdistinct fun key => by
      rw [hserved'.archive, hlog]
      rfl
    obtain ⟨_, -, hstate⟩ := Option.map_eq_some_iff.1 hexec
    rw [← hstate] at hst
    cases hst
    rw [← List.length_map, hperm.length_eq, List.length_map]
    exact hcounted.1
  | verify g missing violations current now =>
    rw [← Option.some.inj hexec] at hst ⊢
    obtain ⟨st₀, hst₀, rfl⟩ := Option.map_eq_some_iff.1 hst
    rw [show ((w.state.verify g missing violations current now).activeRows) = w.state.activeRows from rfl,
      hw st₀ hst₀]
    split <;> rfl
  | delta d serialized now =>
    have hpatched := Store.applyDelta_eq_some hexec
    rw [hpatched.state] at hst
    cases hst
    have hmembership := hpatched.membership
    simp only [Store.completeMembership, Bool.and_eq_true, decide_eq_true_eq] at hmembership
    rw [Store.activeRows, hpatched.index]
    exact hmembership.1.1

end

/-! ## Runs -/

/-- The store publishes one complete membership at a time. -/
structure Published (w : World) : Prop where
  oneStaging : ∀ r ∈ w.state.generations, ∀ r' ∈ w.state.generations,
    r.state = .staging → r'.state = .staging → r = r'
  oneCurrent : ∀ r ∈ w.state.generations, ∀ r' ∈ w.state.generations,
    r.state = .current → r'.state = .current → r = r'
  current : ∀ st, w.state.state = some st → st.projectionState = .current →
    published w.log = some st.activeGenerationId ∧
    (∃ r ∈ w.state.generations, r.id = st.activeGenerationId ∧ r.state = .current ∧
      r.manifest.expectedIndexCount = w.state.activeRows.length) ∧
    ∀ key, w.state.activeAt key = (archive w.log key).map indexEntry

/-- The batch lands while what its request checked holds, and an activation
    counted items with different keys. -/
def Lands (w : World) (b : Batch) : Prop := Fresh w b ∧ Distinct b

instance (w : World) (b : Batch) : Decidable (Fresh w b) :=
  match b with
  | .deleteGeneration g => inferInstanceAs (Decidable (∀ r ∈ w.state.generations,
      (r.id = g → r.state ≠ .current) ∧ (r.state = .staging → r.id = g)))
  | .openGeneration cleanup _ _ => inferInstanceAs (Decidable (∀ r ∈ w.state.generations,
      (r.id ∈ cleanup → r.state ≠ .current) ∧ (r.state = .staging → r.id ∈ cleanup)))
  | .activate m _ counted _ => inferInstanceAs (Decidable
      ((∃ r ∈ w.state.generations, r.manifest = m ∧ r.state = .staging) ∧
        w.state.receiptItems m.generationId = counted))
  | .stage .. | .verify .. | .delta .. => isTrue trivial

instance (w : World) (b : Batch) : Decidable (Lands w b) :=
  match b with
  | .activate m p counted now => inferInstanceAs
      (Decidable (Fresh w (.activate m p counted now) ∧ (counted.map itemKey).Nodup))
  | .deleteGeneration .. | .openGeneration .. | .stage .. | .verify .. | .delta .. =>
    decidable_of_iff (Fresh w _) ⟨fun h => ⟨h, trivial⟩, fun h => h.1⟩

/-- No request under way, and nothing stored. -/
def idle : Flight Store Batch Reply := ⟨World.empty, []⟩

/-- `Date.parse` and `julianday` on the days that the examples use. -/
@[reducible] def sampleDates : Platform where
  dateParses := fun text => text == "2026-01-01" || text == "2026-01-02"
  julianday := fun text =>
    if text == "2026-01-01" then some (4922083 / 2) else if text == "2026-01-02" then some (4922085 / 2)
    else none

/-- The manifest of a generation without items. -/
def emptyManifest (id : String) : Json :=
  .obj [("generation_id", .str id), ("snapshot_id", .str id),
    ("contract_version", .str NEWS_PROJECTION_CONTRACT_VERSION), ("window_start", .str "2026-01-01"),
    ("watermark", .str "2026-01-02"), ("expected_index_count", .num 0), ("expected_detail_count", .num 0),
    ("withdrawal_count", .num 0), ("source_digest", .str id),
    ("expected_receipt_digest", .str EMPTY_RECEIPT_DIGEST)]

def firstId : String := "1111111111111111111111111111111111111111111111111111111111111111"
def secondId : String := "2222222222222222222222222222222222222222222222222222222222222222"

/-- One producer prepares and activates. -/
def oneProducer : List (FlightAction Request) :=
  [.start (.prepare (emptyManifest firstId) 0)] ++ List.replicate 5 (.advance 0)
    ++ [.start (.activate firstId 1)] ++ List.replicate 5 (.advance 1)

/-- Two producers prepare: both find no staging generation, then both insert. -/
def racingPrepares : List (FlightAction Request) :=
  [.start (.prepare (emptyManifest firstId) 0), .start (.prepare (emptyManifest secondId) 0)]
    ++ List.replicate 4 (.advance 0) ++ List.replicate 4 (.advance 1) ++ [.advance 0, .advance 1]

end Xauusd.Projection
