/-
  Equal batches.

  * `Alike`: equal batches, up to the order of members, which a receipt does
    not tell apart;
  * `sentDigest_inj`: **without collisions a digest determines its batches**;
  * `Completes.congr`: equal batches complete the same manifest.
-/
import Xauusd.Projection.Advance

namespace Xauusd.Projection

open Program

/-! ## Equal items -/

section
variable {a b : Json}

theorem textOf_congr (h : a.same b = true) : textOf a = textOf b := by
  cases a <;> cases b <;> simp_all [Json.same, textOf]

theorem isStr_congr (h : a.same b = true) : isStr a = isStr b := by
  cases a <;> cases b <;> simp_all [Json.same, isStr]

theorem sqlEq_str_congr (h : a.same b = true) (s : String) : sqlEq a (.str s) = sqlEq b (.str s) := by
  simp only [sqlEq, Json.same_null h, Json.same_str h]

theorem badExpiry_congr (h : a.same b = true) : badExpiry a = badExpiry b := by
  cases a <;> cases b <;> simp_all [Json.same, badExpiry]

theorem reviewViolation_iff {e : IndexEntry} : reviewViolation e = true ↔
    (reviewInvariant e.payload = some false ∨ e.category ∉ NEWS_PROJECTION_CATEGORIES) ∨
      e.modelCandidate = true ∧ badExpiry e.impactExpiresAt = true := by
  simp [reviewViolation]

theorem isContainer_congr (h : a.same b = true) : isContainer a = isContainer b := by
  cases a <;> cases b <;> simp_all [Json.same, isContainer]

/-- A property that only a text has does not tell equal values apart. -/
theorem congr_of_texts {P : Json → Bool} (hP : ∀ c, isStr c = false → P c = false) (h : a.same b = true) : P a = P b := by
  cases a <;> cases b <;> simp_all [Json.same, isStr]

variable (ha : a.WF = true) (hb : b.WF = true) (h : a.same b = true)
include ha hb h

theorem validItem_congr (kind : Kind) : validItem kind a = validItem kind b := by
  have hget := fun key => Json.same_get ha hb h key
  have hdigest : ∀ c, isStr c = false → isDigest c = false := by
    rintro (_ | _ | _ | _ | _ | _) <;> simp [isStr, isDigest]
  have hcontract : ∀ c, isStr c = false → isContract c = false := by
    rintro (_ | _ | _ | _ | _ | _) <;> simp [isStr, isContract]
  have hexpiry : ∀ c, isStr c = false → isCanonicalExpiry c = false := by
    rintro (_ | _ | _ | _ | _ | _) <;> simp [isStr, isCanonicalExpiry]
  cases kind with
  | detail =>
    simp only [validItem, validDetail, isContainer_congr (hget "payload"), congr_of_texts hdigest (hget "detail_key"),
      congr_of_texts hdigest (hget "detail_hash")]
  | index =>
    simp only [validItem, validIndex, congr_of_texts hdigest (hget "detail_key"), isStr_congr (hget "category"),
      textOf_congr (hget "category"), isStr_congr (hget "cluster_id"), isStr_congr (hget "collector_first_seen_time"),
      congr_of_texts hcontract (hget "mirror_contract"), congr_of_texts hexpiry (hget "impact_expires_at"), ne_eq,
      Json.same_str (hget "model_visibility")]

theorem itemKey_congr : itemKey a = itemKey b := textOf_congr (Json.same_get ha hb h _)

theorem clusterId_congr : (indexEntry a).clusterId = (indexEntry b).clusterId :=
  textOf_congr (Json.same_get ha hb h "cluster_id")

theorem reviewInvariant_congr : reviewInvariant a = reviewInvariant b := by
  have hstatus := Json.same_get ha hb h "annotation_status"
  have hvisibility := Json.same_get ha hb h "model_visibility"
  have hparsed := Json.same_null (Json.same_get ha hb h "parsed_at")
  have hfalse : ∀ x, sqlAnd (some false) x = some false := fun x => by cases x <;> rfl
  simp only [reviewInvariant, sqlEq_str_congr hstatus, sqlEq_str_congr hvisibility, hparsed, Json.same_null hstatus,
    ← textOf_congr hstatus, ← isStr_congr hstatus]
  -- the two sides compare visibility and status, which only a text makes matter
  cases hs : a.get "annotation_status" with
  | str s => rw [(Json.same_str hstatus s).1 hs, sqlEq_str_congr hvisibility]
  | null => simp [(Json.same_null hstatus).1 hs, sqlEq]
  | _ =>
    have hnull : b.get "annotation_status" ≠ .null := fun hb' => by simp [(Json.same_null hstatus).2 hb'] at hs
    simp [hnull, isStr, hfalse]

theorem reviewViolation_congr : reviewViolation (indexEntry a) = reviewViolation (indexEntry b) := by
  have hcategory := textOf_congr (Json.same_get ha hb h "category")
  have hexpiry := badExpiry_congr (Json.same_get ha hb h "impact_expires_at")
  have hvisible := Json.same_str (Json.same_get ha hb h "model_visibility") "MODEL_VISIBLE"
  have hinvariant := reviewInvariant_congr ha hb h
  rw [Bool.eq_iff_iff, reviewViolation_iff, reviewViolation_iff]
  simp only [indexEntry, hinvariant, hcategory, hexpiry, decide_eq_true_eq, hvisible]

end

theorem DetailRow.Holds.congr {d : DetailRow} {a b : Json} (hd : d.Holds a) (ha : a.WF = true) (hb : b.WF = true)
    (h : a.same b = true) : d.Holds b where
  key := hd.key.trans (itemKey_congr ha hb h)
  hash := hd.hash.trans (textOf_congr (Json.same_get ha hb h _))
  payload := Json.same_trans hd.payload (Json.same_get ha hb h _)

/-! ## Digests -/

theorem Kind.text_injective {k k' : Kind} (h : k.text = k'.text) : k = k' := by
  cases k <;> cases k' <;> simp_all [Kind.text]

/-- A receipt's text determines what it was made of. -/
theorem receiptText_inj {p p' : String} {k k' : Kind} {o o' n n' : ℕ} {hash hash' : String}
    (hlength : p.toList.length = p'.toList.length)
    (h : receiptText p k o n hash = receiptText p' k' o' n' hash') :
    p = p' ∧ k = k' ∧ o = o' ∧ n = n' ∧ hash = hash' := by
  have h := congrArg String.toList h
  simp only [receiptText, String.toList_append, List.append_assoc] at h
  obtain ⟨hp, h⟩ := List.append_inj h hlength
  have hkind : ∀ k : Kind, ∀ a ∈ k.text.toList, a ≠ '|' := by
    intro k a ha heq
    have hmem : k.text.toList.contains '|' = true := by
      rw [List.contains_iff_mem, ← heq]
      exact ha
    cases k <;> exact absurd hmem (by decide)
  have hdigits : ∀ n : ℕ, ∀ a ∈ (toString n).toList, a ≠ '|' := by
    rintro n a ha rfl
    exact absurd (Nat.isDigit_of_mem_toDigits (b := 10) (by decide) (by decide) (Nat.toList_repr ▸ ha)) (by decide)
  have hmark : "|".toList = ['|'] := by decide
  have hnat : ∀ {n n' : ℕ}, (toString n).toList = (toString n').toList → n = n' := fun h =>
    Json.toDigits_injective (by rw [← Nat.toList_repr, ← Nat.toList_repr]; exact h)
  obtain ⟨-, h⟩ := List.append_inj h rfl
  rw [hmark] at h
  simp only [List.cons_append, List.nil_append] at h
  obtain ⟨hk, h⟩ := Json.split_at_mark (p := (· ≠ '|')) (by simp) (hkind k) (hkind k') h
  obtain ⟨ho, h⟩ := Json.split_at_mark (p := (· ≠ '|')) (by simp) (hdigits o) (hdigits o') h
  obtain ⟨hn, h⟩ := Json.split_at_mark (p := (· ≠ '|')) (by simp) (hdigits n) (hdigits n') h
  exact ⟨String.toList_inj.1 hp, Kind.text_injective (String.toList_inj.1 hk), hnat ho, hnat hn,
    String.toList_inj.1 h⟩

/-- A batch that a parser left, all of its numbers finite. -/
def Sane (b : Kind × List Json) : Prop := (Json.arr b.2).WF = true ∧ (Json.arr b.2).finite = true

/-- The same batch, up to the order of members. -/
def Alike (b b' : Kind × List Json) : Prop := b.1 = b'.1 ∧ (Json.arr b.2).same (.arr b'.2) = true

theorem payloadHash_of_sane {b : Kind × List Json} (h : Sane b) :
    newsProjectionPayloadHash (.arr b.2) = some (sha256 (String.ofList (Json.arr b.2).canonical)) := if_pos h.2

theorem sentItems_cons (kind : Kind) (b : Kind × List Json) (l : List (Kind × List Json)) :
    sentItems kind (b :: l) = sentItems kind l ++ if b.1 = kind then b.2 else [] := by
  rw [sentItems, sentItems, List.reverse_cons, List.filter_append, List.flatMap_append]
  by_cases hkind : b.1 = kind <;> simp [hkind]

/-- The texts that are hashed for the digest of some batches. -/
def hashedTexts : List (Kind × List Json) → List String
  | [] => [""]
  | b :: l => receiptText (sentDigest l) b.1 (sentItems b.1 l).length b.2.length
      ((newsProjectionPayloadHash (.arr b.2)).getD "") :: String.ofList (Json.arr b.2).canonical :: hashedTexts l

theorem sha256_empty : sha256 "" = EMPTY_RECEIPT_DIGEST := by decide +kernel

theorem length_sentDigest (l : List (Kind × List Json)) : (sentDigest l).toList.length = 64 := by
  have hex : ∀ {s : String}, Text.isSha256Hex s = true → s.toList.length = 64 := fun h => by
    simp only [Text.isSha256Hex, Bool.and_eq_true, decide_eq_true_eq] at h
    exact h.1
  cases l with
  | nil => exact hex (show Text.isSha256Hex EMPTY_RECEIPT_DIGEST = true from sha256_empty ▸ isSha256Hex_sha256 "")
  | cons b l => exact hex (isSha256Hex_sha256 _)

/-- No two of the texts that are hashed for two lists of batches collide. -/
def Injective (l l' : List (Kind × List Json)) : Prop :=
  ∀ text ∈ hashedTexts l, ∀ text' ∈ hashedTexts l', sha256 text = sha256 text' → text = text'

section
variable {l l' : List (Kind × List Json)}

theorem alike_items (hl : ∀ b ∈ l, Sane b) (hl' : ∀ b ∈ l', Sane b) (h : List.Forall₂ Alike l l') (kind : Kind) :
    List.Forall₂ (fun a b => a.WF = true ∧ b.WF = true ∧ a.same b = true) (sentItems kind l) (sentItems kind l') := by
  induction h with
  | nil => exact .nil
  | @cons b b' l l' hb _ ih =>
    rw [sentItems_cons, sentItems_cons, ← hb.1]
    refine List.rel_append (ih (fun b hb => hl b (List.mem_cons_of_mem _ hb))
      fun b hb => hl' b (List.mem_cons_of_mem _ hb)) ?_
    split
    · have hwf := Json.wfItems_iff.1 (hl b List.mem_cons_self).1
      have hwf' := Json.wfItems_iff.1 (hl' b' List.mem_cons_self).1
      have hsame := Json.sameItems_iff.1 hb.2
      refine List.forall₂_iff_get.2 ⟨hsame.length_eq, fun i hi hi' => ?_⟩
      exact ⟨hwf _ (List.get_mem _ _), hwf' _ (List.get_mem _ _), (List.forall₂_iff_get.1 hsame).2 i hi hi'⟩
    · exact .nil

theorem length_congr (hl : ∀ b ∈ l, Sane b) (hl' : ∀ b ∈ l', Sane b) (h : List.Forall₂ Alike l l') (kind : Kind) :
    (sentItems kind l).length = (sentItems kind l').length := (alike_items hl hl' h kind).length_eq

theorem sentDigest_congr (hl : ∀ b ∈ l, Sane b) (hl' : ∀ b ∈ l', Sane b) (h : List.Forall₂ Alike l l') :
    sentDigest l = sentDigest l' := by
  induction h with
  | nil => rfl
  | @cons b b' l l' hb htail ih =>
    have hrest := fun b hb => hl b (List.mem_cons_of_mem _ hb)
    have hrest' := fun b hb => hl' b (List.mem_cons_of_mem _ hb)
    have hsane := hl b List.mem_cons_self
    have hsane' := hl' b' List.mem_cons_self
    rw [sentDigest, sentDigest, ih hrest hrest', ← hb.1, length_congr hrest hrest' htail, payloadHash_of_sane hsane,
      payloadHash_of_sane hsane', Json.canonical_congr hsane.1 hsane'.1 hb.2,
      (Json.sameItems_iff.1 hb.2).length_eq]

/-- **Without collisions a digest determines its batches**, up to the order of
    members. -/
theorem sentDigest_inj (hl : ∀ b ∈ l, Sane b) (hl' : ∀ b ∈ l', Sane b) (hinj : Injective l l')
    (h : sentDigest l = sentDigest l') : List.Forall₂ Alike l l' := by
  have hne : ∀ {p : String} {k : Kind} {o n : ℕ} {hash : String}, p.toList.length = 64 →
      receiptText p k o n hash ≠ "" := by
    intro p k o n hash hp hempty
    have hlength := congrArg (fun s => s.toList.length) hempty
    simp [receiptText, hp] at hlength
  induction l generalizing l' with
  | nil =>
    cases l' with
    | nil => exact .nil
    | cons b' l' =>
      refine absurd (hinj _ List.mem_cons_self _ List.mem_cons_self (sha256_empty.trans h)) ?_
      exact (hne (length_sentDigest l')).symm
  | cons b l ih =>
    cases l' with
    | nil =>
      refine absurd (hinj _ List.mem_cons_self _ List.mem_cons_self (h.trans sha256_empty.symm)) ?_
      exact hne (length_sentDigest l)
    | cons b' l' =>
      have hsane := hl b List.mem_cons_self
      have hsane' := hl' b' List.mem_cons_self
      have htext := hinj _ List.mem_cons_self _ List.mem_cons_self h
      obtain ⟨hdigest, hkind, -, -, hhash⟩ :=
        receiptText_inj ((length_sentDigest l).trans (length_sentDigest l').symm) htext
      rw [payloadHash_of_sane hsane, payloadHash_of_sane hsane'] at hhash
      have hcanonical := hinj _ (List.mem_cons_of_mem _ List.mem_cons_self) _
        (List.mem_cons_of_mem _ List.mem_cons_self) hhash
      refine .cons ⟨hkind, Json.canonical_inj hsane.1 hsane'.1 ?_⟩ (ih
        (fun b hb => hl b (List.mem_cons_of_mem _ hb)) (fun b hb => hl' b (List.mem_cons_of_mem _ hb))
        (fun t ht t' ht' => hinj t (List.mem_cons_of_mem _ (List.mem_cons_of_mem _ ht)) t'
          (List.mem_cons_of_mem _ (List.mem_cons_of_mem _ ht'))) hdigest)
      exact String.ofList_injective hcanonical

/-- Equal batches complete the same. -/
theorem Completes.congr {m : Manifest} (hl : ∀ b ∈ l, Sane b) (hl' : ∀ b ∈ l', Sane b) (h : List.Forall₂ Alike l l')
    (hl'm : Completes m l') : Completes m l := by
  have hmap : ∀ {β : Type} (kind : Kind) (f : Json → β), (∀ a b, a.WF = true → b.WF = true → a.same b = true → f a = f b) →
      (sentItems kind l).map f = (sentItems kind l').map f := by
    intro β kind f hf
    have hitems := alike_items hl hl' h kind
    generalize sentItems kind l = x at hitems
    generalize sentItems kind l' = y at hitems
    induction hitems with
    | nil => rfl
    | cons hab _ ih => rw [List.map_cons, List.map_cons, ih, hf _ _ hab.1 hab.2.1 hab.2.2]
  have hkeys := fun kind => hmap kind itemKey fun a b ha hb h => itemKey_congr ha hb h
  refine ⟨fun kind => ?_, fun item hitem => ?_, ?_, ?_, ?_⟩
  · rw [length_congr hl hl' h]
    exact hl'm.totals kind
  · have hreviews := hmap .index (fun item => reviewViolation (indexEntry item)) fun a b => reviewViolation_congr
    obtain ⟨item', hitem', heq⟩ := List.mem_map.1 (hreviews ▸ List.mem_map_of_mem hitem)
    exact heq.symm.trans (hl'm.reviews item' hitem')
  · rw [hmap .index _ fun a b => clusterId_congr]
    exact hl'm.clusters
  · rw [hkeys, hkeys]
    exact hl'm.keys
  · rw [sentDigest_congr hl hl' h]
    exact hl'm.digest

end

end Xauusd.Projection
