/-
  The chain of a replay's receipts.

  A chain is a list of receipts, newest first: each starts where the ones of
  its kind before it end, carries the digests of all of them, and no index
  batch comes before the last detail.

  * `Chain m l`, and what it is folded to: `total`, `chainDigest`,
    `chainIdentity`;
  * `progress_eq`: a store with such receipts reports the folds;
  * `chain_tiles`, `chain_fold`: the receipts tile their range, and their
    digests fold to the last one;
  * `chain_receiptItems`: the items of the index receipts, in order.
-/
import Xauusd.Projection.Alone

namespace Xauusd.Projection

/-! ## Folds -/

def total (kind : Kind) : List Receipt → ℕ
  | [] => 0
  | r :: l => if r.kind = kind then total kind l + r.itemCount else total kind l

def chainDigest : List Receipt → String
  | [] => EMPTY_RECEIPT_DIGEST
  | r :: _ => r.receiptDigest

def chainIdentity (kind : Kind) : List Receipt → String
  | [] => EMPTY_RECEIPT_DIGEST
  | r :: l => if r.kind = kind then r.identityDigest else chainIdentity kind l

/-- A receipt after those of a list. -/
structure Links (m : Manifest) (r : Receipt) (l : List Receipt) : Prop where
  offset : r.offset = total r.kind l
  nonempty : 0 < r.itemCount
  bound : r.offset + r.itemCount ≤ m.expected r.kind
  details : r.kind = .index → total .detail l = m.expectedDetailCount
  digest : r.receiptDigest = advanceNewsReceiptDigest (chainDigest l) r.kind r.offset r.itemCount r.payloadHash
  identity : r.identityDigest = advanceNewsIdentityDigest (chainIdentity r.kind l) r.identityKeys

def Chain (m : Manifest) : List Receipt → Prop
  | [] => True
  | r :: l => Links m r l ∧ Chain m l

variable {m : Manifest} {l : List Receipt}

theorem chain_le (h : Chain m l) : ∀ r ∈ l, 0 < r.itemCount ∧ r.offset + r.itemCount ≤ total r.kind l := by
  induction l with
  | nil => exact fun _ hr => nomatch hr
  | cons r₀ l ih =>
    intro r hr
    obtain ⟨hlinks, hl⟩ := h
    rcases List.mem_cons.1 hr with rfl | hr
    · refine ⟨hlinks.nonempty, ?_⟩
      rw [total, if_pos rfl, hlinks.offset]
    · obtain ⟨hpos, hle⟩ := ih hl r hr
      refine ⟨hpos, ?_⟩
      rw [total]
      split
      · omega
      · exact hle

/-- The newest receipt of a kind starts after all others of the kind. -/
theorem chain_lt {r₀ : Receipt} (h : Chain m (r₀ :: l)) : ∀ r ∈ l, r.kind = r₀.kind → r.offset < r₀.offset := by
  intro r hr hkind
  obtain ⟨hpos, hle⟩ := chain_le h.2 r hr
  rw [h.1.offset, ← hkind]
  omega

theorem total_le (h : Chain m l) (kind : Kind) : total kind l ≤ m.expected kind := by
  induction l with
  | nil => exact Nat.zero_le _
  | cons r l ih =>
    obtain ⟨hlinks, hl⟩ := h
    rw [total]
    split
    · next hkind =>
      subst hkind
      have hoffset := hlinks.offset
      have hbound := hlinks.bound
      omega
    · exact ih hl

theorem details_of_index (h : Chain m l) {r : Receipt} (hr : r ∈ l) (hkind : r.kind = .index) :
    total .detail l = m.expectedDetailCount := by
  induction l with
  | nil => cases hr
  | cons r₀ l ih =>
    have hbound := total_le h .detail
    obtain ⟨hlinks, hl⟩ := h
    have hle : total .detail l ≤ total .detail (r₀ :: l) := by
      rw [total]
      split <;> omega
    rcases List.mem_cons.1 hr with rfl | hr
    · have hdetails := hlinks.details hkind
      exact le_antisymm hbound (hdetails ▸ hle)
    · exact le_antisymm hbound ((ih hl hr) ▸ hle)

/-- Only details come before a detail. -/
theorem chain_details {r₀ : Receipt} (h : Chain m (r₀ :: l)) (hkind : r₀.kind = .detail) :
    ∀ r ∈ l, r.kind = .detail := by
  intro r hr
  cases hindex : r.kind with
  | detail => rfl
  | index =>
    have hdetails := details_of_index h.2 hr hindex
    have hoffset := h.1.offset
    have hbound := h.1.bound
    have hpos := h.1.nonempty
    rw [hkind] at hoffset hbound
    rw [hoffset, hdetails] at hbound
    have hexpected : m.expected .detail = m.expectedDetailCount := rfl
    omega

/-! ## What the store reports -/

theorem firstBy_chain (h : Chain m l) (kind : Kind) :
    Table.firstBy (fun a b : Receipt => decide (b.offset ≤ a.offset))
        (l.reverse.filter fun r => r.kind = kind) = l.find? fun r => r.kind = kind := by
  induction l with
  | nil => rfl
  | cons r₀ l ih =>
    rw [List.reverse_cons, List.filter_append]
    by_cases hkind : r₀.kind = kind
    · rw [List.find?_cons_of_pos (by simpa using hkind)]
      refine Table.firstBy_eq_some (fun a b => by simpa using le_total b.offset a.offset)
        (fun a b c hab hbc => by simp only [decide_eq_true_eq] at *; omega) (by simp [hkind]) ?_
      intro r hr hne
      simp only [List.mem_append, List.mem_filter, List.mem_reverse, decide_eq_true_eq,
        List.mem_singleton] at hr
      rcases hr with ⟨hr, hrkind⟩ | ⟨rfl, -⟩
      · simpa using chain_lt h r hr (hrkind.trans hkind.symm)
      · exact absurd rfl hne
    · rw [List.find?_cons_of_neg (by simpa using hkind), ← ih h.2]
      simp [hkind]

namespace Store

variable {s : Store} {g : String}

theorem receiptsOf_eq (hrows : s.receiptRows g = l.reverse) (kind : Kind) :
    s.receiptsOf g kind = l.reverse.filter fun r => r.kind = kind := by
  rw [← hrows, receiptRows, receiptsOf, List.filter_filter]
  exact List.filter_congr fun r _ => by simp [Bool.and_comm]

theorem lastReceipt_eq (hrows : s.receiptRows g = l.reverse) (h : Chain m l) (kind : Kind) :
    s.lastReceipt g kind = l.find? fun r => r.kind = kind := by
  rw [lastReceipt, receiptsOf_eq hrows, firstBy_chain h]

end Store

theorem total_eq (h : Chain m l) (kind : Kind) :
    ((l.find? fun r => r.kind = kind).map fun r => r.offset + r.itemCount).getD 0 = total kind l := by
  induction l with
  | nil => rfl
  | cons r l ih =>
    by_cases hkind : r.kind = kind
    · rw [List.find?_cons_of_pos (by simpa using hkind), total, if_pos hkind, ← hkind, ← h.1.offset]
      rfl
    · rw [List.find?_cons_of_neg (by simpa using hkind), total, if_neg hkind, ih h.2]

theorem chainIdentity_eq (kind : Kind) (l : List Receipt) :
    ((l.find? fun r => r.kind = kind).map (·.identityDigest)).getD EMPTY_RECEIPT_DIGEST =
      chainIdentity kind l := by
  induction l with
  | nil => rfl
  | cons r l ih =>
    by_cases hkind : r.kind = kind
    · rw [List.find?_cons_of_pos (by simpa using hkind), chainIdentity, if_pos hkind]
      rfl
    · rw [List.find?_cons_of_neg (by simpa using hkind), chainIdentity, if_neg hkind, ih]

theorem chainDigest_eq (h : Chain m l) :
    (((l.find? fun r => r.kind = .index).or (l.find? fun r => r.kind = .detail)).map
      (·.receiptDigest)).getD EMPTY_RECEIPT_DIGEST = chainDigest l := by
  cases l with
  | nil => rfl
  | cons r l =>
    cases hkind : r.kind with
    | index =>
      rw [List.find?_cons_of_pos (by simpa using hkind)]
      rfl
    | detail =>
      have hnone : (r :: l).find? (fun r => r.kind = .index) = none := by
        refine List.find?_eq_none.2 fun r' hr' => ?_
        rcases List.mem_cons.1 hr' with rfl | hr'
        · simp [hkind]
        · simp [chain_details h hkind r' hr']
      rw [hnone, Option.none_or, List.find?_cons_of_pos (by simpa using hkind)]
      rfl

/-- **The progress of a generation whose receipts are a chain.** -/
theorem progress_eq {s : Store} {g : String} (hrows : s.receiptRows g = l.reverse) (h : Chain m l) :
    (∀ kind, (s.progress g).next kind = total kind l) ∧ (s.progress g).receiptDigest = chainDigest l ∧
      ∀ kind, (s.progress g).identity kind = chainIdentity kind l := by
  refine ⟨fun kind => ?_, ?_, fun kind => ?_⟩
  · cases kind <;>
      simp only [Store.progress, Progress.next, Store.lastReceipt_eq hrows h, total_eq h]
  · simp only [Store.progress, Store.lastReceipt_eq hrows h, chainDigest_eq h]
  · cases kind <;>
      simp only [Store.progress, Progress.identity, Store.lastReceipt_eq hrows h, chainIdentity_eq]

/-! ## Tiles and folds -/

/-- The receipts cover a range of offsets, each starting where the last ends. -/
def Tiles : ℕ → List Receipt → ℕ → Prop
  | low, [], high => low = high
  | low, r :: l, high => r.offset = low ∧ 0 < r.itemCount ∧ Tiles (low + r.itemCount) l high

theorem tiles_append {low high : ℕ} {l l' : List Receipt} :
    Tiles low (l ++ l') high ↔ ∃ mid, Tiles low l mid ∧ Tiles mid l' high := by
  induction l generalizing low with
  | nil => simp [Tiles]
  | cons r l ih => simp [Tiles, ih, and_assoc]

def foldReceipts (digest : String) (l : List Receipt) : String :=
  l.foldl (fun digest r => advanceNewsReceiptDigest digest r.kind r.offset r.itemCount r.payloadHash) digest

theorem foldReceipts_append (digest : String) (l l' : List Receipt) :
    foldReceipts digest (l ++ l') = foldReceipts (foldReceipts digest l) l' := List.foldl_append

theorem identity_append (digest : String) (keys keys' : List String) :
    advanceNewsIdentityDigest digest (keys ++ keys') =
      advanceNewsIdentityDigest (advanceNewsIdentityDigest digest keys) keys' := List.foldl_append

theorem chain_tiles (h : Chain m l) (kind : Kind) :
    Tiles 0 (l.reverse.filter fun r => r.kind = kind) (total kind l) := by
  induction l with
  | nil => rfl
  | cons r l ih =>
    rw [List.reverse_cons, List.filter_append, tiles_append, total]
    refine ⟨total kind l, ih h.2, ?_⟩
    by_cases hkind : r.kind = kind
    · simp only [hkind, decide_true, List.filter_cons_of_pos, List.filter_nil, if_true]
      exact ⟨hkind ▸ h.1.offset, h.1.nonempty, rfl⟩
    · simp [hkind, Tiles]

theorem chain_fold (h : Chain m l) : foldReceipts EMPTY_RECEIPT_DIGEST l.reverse = chainDigest l := by
  induction l with
  | nil => rfl
  | cons r l ih =>
    rw [List.reverse_cons, foldReceipts_append, ih h.2]
    exact h.1.digest.symm

theorem chain_identity (h : Chain m l) (kind : Kind) :
    advanceNewsIdentityDigest EMPTY_RECEIPT_DIGEST
      ((l.reverse.filter fun r => r.kind = kind).flatMap (·.identityKeys)) = chainIdentity kind l := by
  induction l with
  | nil => rfl
  | cons r l ih =>
    rw [List.reverse_cons, List.filter_append, List.flatMap_append, identity_append, ih h.2, chainIdentity]
    by_cases hkind : r.kind = kind
    · rw [if_pos hkind, h.1.identity, hkind]
      simp [hkind]
    · simp [hkind, advanceNewsIdentityDigest]

/-- The details of a chain come before its index batches. -/
theorem chain_split (h : Chain m l) : l.reverse =
    (l.reverse.filter fun r => r.kind = .detail) ++ l.reverse.filter fun r => r.kind = .index := by
  induction l with
  | nil => rfl
  | cons r l ih =>
    cases hkind : r.kind with
    | index =>
      rw [List.reverse_cons, List.filter_append, List.filter_append]
      nth_rewrite 1 [ih h.2]
      simp [hkind]
    | detail =>
      have hall := chain_details h hkind
      have hdetail : (r :: l).reverse.filter (fun r => decide (r.kind = .detail)) = (r :: l).reverse := by
        refine List.filter_eq_self.2 fun r' hr' => ?_
        rcases List.mem_cons.1 (List.mem_reverse.1 hr') with rfl | hr'
        · simp [hkind]
        · simp [hall r' hr']
      have hindex : (r :: l).reverse.filter (fun r => decide (r.kind = .index)) = [] := by
        refine List.filter_eq_nil_iff.2 fun r' hr' => ?_
        rcases List.mem_cons.1 (List.mem_reverse.1 hr') with rfl | hr'
        · simp [hkind]
        · simp [hall r' hr']
      rw [hdetail, hindex, List.append_nil]

/-- The items of the index receipts, in the order in which they came. -/
theorem chain_receiptItems {s : Store} {g : String} (hrows : s.receiptRows g = l.reverse) (h : Chain m l) :
    s.receiptItems g = (l.reverse.filter fun r => r.kind = .index).flatMap (·.items) := by
  have hsorted : (l.reverse.filter fun r => r.kind = .index).Pairwise fun a b => a.offset ≤ b.offset := by
    clear hrows
    induction l with
    | nil => exact List.Pairwise.nil
    | cons r l ih =>
      rw [List.reverse_cons, List.filter_append, List.pairwise_append]
      refine ⟨ih h.2, ?_, fun a ha b hb => ?_⟩
      · by_cases hkind : r.kind = .index <;> simp [hkind]
      · obtain ⟨ha, hakind⟩ := List.mem_filter.1 ha
        obtain ⟨hb, hbkind⟩ := List.mem_filter.1 hb
        rw [List.mem_singleton.1 hb] at hbkind ⊢
        simp only [decide_eq_true_eq] at hakind hbkind
        exact (chain_lt h a (List.mem_reverse.1 ha) (hakind.trans hbkind.symm)).le
  rw [Store.receiptItems, Store.receiptsOf_eq hrows, hsorted.insertionSort_eq]

end Xauusd.Projection
