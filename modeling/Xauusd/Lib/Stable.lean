/-
  Lists sorted stably by a key.

  Entries of one key stay in the order they were given in, so that what a
  program takes first or last of a sorted list depends on that order only among
  entries of one key.

  * `filter_sortBy`: the entries of one key, in their order;
  * `sortBy_filter`: some of the entries;
  * `find?_sortBy_iff`: the first entry that a condition on the key admits is
    the first given one of the least key admitted;
  * `getLast?_sortBy_iff`: the last one, of the greatest key;
  * `sortBy_map`, `eq_sortBy`: of images, and of another order of the entries;
  * `map_key_sortBy`: the sorted keys are those of the entries, whatever their
    order.
-/
import Mathlib

namespace Stable

variable {α κ : Type*} [LinearOrder κ] {key : α → κ} {l l' : List α} {a : α} {p : κ → Bool}

instance total_key (key : α → κ) : Std.Total fun a b : α => key a ≤ key b := ⟨fun _ _ => le_total _ _⟩

instance isTrans_key (key : α → κ) : IsTrans α fun a b => key a ≤ key b := ⟨fun _ _ _ => le_trans⟩

/-- The entries in the order of their keys. -/
def sortBy (key : α → κ) (l : List α) : List α := l.insertionSort fun a b => key a ≤ key b

theorem sortBy_perm (key : α → κ) (l : List α) : (sortBy key l).Perm l :=
  List.perm_insertionSort _ l

theorem sortBy_sorted (key : α → κ) (l : List α) :
    (sortBy key l).Pairwise fun a b => key a ≤ key b :=
  List.pairwise_insertionSort _ l

@[simp] theorem mem_sortBy : a ∈ sortBy key l ↔ a ∈ l := (sortBy_perm key l).mem_iff

/-- Entries of one key keep their order. -/
theorem filter_sortBy (key : α → κ) (l : List α) (k : κ) :
    (sortBy key l).filter (fun a => key a = k) = l.filter fun a => key a = k := by
  have hequal : (l.filter fun a => key a = k).Pairwise fun a b => key a ≤ key b := by
    refine List.pairwise_of_forall_mem_list fun a ha b hb => ?_
    have hka : key a = k := by simpa using (List.mem_filter.1 ha).2
    have hkb : key b = k := by simpa using (List.mem_filter.1 hb).2
    rw [hka, hkb]
  have hsub := (List.sublist_insertionSort hequal List.filter_sublist).filter fun a => key a = k
  simp only [List.filter_filter, Bool.and_self] at hsub
  refine (hsub.eq_of_length ?_).symm
  exact ((sortBy_perm key l).filter _).length_eq.symm

theorem orderedInsert_of_forall_le (h : ∀ b ∈ l, key a ≤ key b) :
    l.orderedInsert (fun a b => key a ≤ key b) a = a :: l := by
  cases l with
  | nil => rfl
  | cons b l => exact if_pos (h b List.mem_cons_self)

theorem filter_orderedInsert (q : α → Bool) (hl : l.Pairwise fun a b => key a ≤ key b) :
    (l.orderedInsert (fun a b => key a ≤ key b) a).filter q =
      if q a then (l.filter q).orderedInsert (fun a b => key a ≤ key b) a else l.filter q := by
  induction l with
  | nil =>
    rw [List.orderedInsert_nil, List.filter_cons]
    rfl
  | cons b l ih =>
    obtain ⟨hb, hl⟩ := List.pairwise_cons.1 hl
    by_cases hab : key a ≤ key b
    · have hall : ∀ c ∈ (b :: l).filter q, key a ≤ key c := by
        intro c hc
        rcases List.mem_cons.1 (List.mem_of_mem_filter hc) with rfl | hc
        · exact hab
        · exact hab.trans (hb c hc)
      rw [orderedInsert_of_forall_le hall, List.orderedInsert_cons, if_pos hab, List.filter_cons]
    · rw [List.orderedInsert_cons, if_neg hab, List.filter_cons, ih hl]
      by_cases hqb : q b = true
      · rw [if_pos hqb, List.filter_cons_of_pos hqb, List.orderedInsert_cons, if_neg hab]
        split <;> rfl
      · rw [if_neg hqb, List.filter_cons_of_neg hqb]

/-- To sort some of the entries is to leave out the others of the sorted ones. -/
theorem sortBy_filter (key : α → κ) (q : α → Bool) (l : List α) :
    sortBy key (l.filter q) = (sortBy key l).filter q := by
  induction l with
  | nil => rfl
  | cons a l ih =>
    have hcons : sortBy key (a :: l) = (sortBy key l).orderedInsert (fun a b => key a ≤ key b) a := rfl
    rw [hcons, filter_orderedInsert q (sortBy_sorted key l), ← ih]
    by_cases hqa : q a = true
    · rw [List.filter_cons_of_pos hqa, if_pos hqa]
      rfl
    · rw [List.filter_cons_of_neg hqa, if_neg hqa]

theorem sortBy_map {β : Type*} (key : α → κ) (f : β → α) (l : List β) :
    sortBy key (l.map f) = (sortBy (fun b => key (f b)) l).map f := by
  have horder (b : β) (m : List β) : (m.map f).orderedInsert (fun a b => key a ≤ key b) (f b) =
      (m.orderedInsert (fun b c => key (f b) ≤ key (f c)) b).map f := by
    induction m with
    | nil => rfl
    | cons c m ih =>
      rw [List.map_cons, List.orderedInsert, List.orderedInsert, ih]
      split <;> rfl
  induction l with
  | nil => rfl
  | cons b l ih =>
    rw [sortBy, List.map_cons, List.insertionSort_cons, ← sortBy, ih, horder]
    rfl

/-- Entries of different keys have one sorted order. -/
theorem eq_sortBy (hl : l.Pairwise fun a b => key a ≤ key b) (h : l.Perm l')
    (hinj : ∀ a ∈ l, ∀ b ∈ l, key a = key b → a = b) : l = sortBy key l' := by
  refine List.Perm.eq_of_pairwise (fun a b ha hb hab hba => ?_) hl (sortBy_sorted key l')
    (h.trans (sortBy_perm key l').symm)
  exact hinj a ha b (h.symm.subset (mem_sortBy.1 hb)) (le_antisymm hab hba)

/-- The first entry that is admitted. -/
theorem find?_sortBy_iff : (sortBy key l).find? (fun a => p (key a)) = some a ↔
    (l.filter fun b => key b = key a).head? = some a ∧ p (key a) = true ∧
      ∀ b ∈ l, p (key b) = true → key a ≤ key b := by
  have hfirst : ∀ {a : α}, (sortBy key l).find? (fun a => p (key a)) = some a →
      (l.filter fun b => key b = key a).head? = some a ∧ p (key a) = true ∧
        ∀ b ∈ l, p (key b) = true → key a ≤ key b := by
    intro a h
    obtain ⟨hp, before, after, hsplit, hbefore⟩ := List.find?_eq_some_iff_append.1 h
    refine ⟨?_, hp, fun b hb hpb => ?_⟩
    · have hnone : (before.filter fun b => key b = key a) = [] := by
        refine List.filter_eq_nil_iff.2 fun b hb heq => ?_
        have := hbefore b hb
        rw [of_decide_eq_true heq, hp] at this
        cases this
      rw [← filter_sortBy, hsplit, List.filter_append, hnone]
      simp
    · have hin : b ∈ before ++ a :: after := hsplit ▸ mem_sortBy.2 hb
      have hlater := (List.pairwise_append.1 (hsplit ▸ sortBy_sorted key l)).2.1
      rcases List.mem_append.1 hin with hin | hin
      · have := hbefore b hin
        rw [hpb] at this
        cases this
      · rcases List.mem_cons.1 hin with rfl | hin
        · exact le_rfl
        · exact List.rel_of_pairwise_cons hlater hin
  refine ⟨hfirst, fun ⟨hhead, hp, hleast⟩ => ?_⟩
  have hmem : a ∈ l := (List.mem_filter.1 (List.mem_of_head? hhead)).1
  obtain ⟨b, hb⟩ : ∃ b, (sortBy key l).find? (fun a => p (key a)) = some b :=
    Option.isSome_iff_exists.1 (List.find?_isSome.2 ⟨a, mem_sortBy.2 hmem, hp⟩)
  obtain ⟨hhead', hp', hleast'⟩ := hfirst hb
  have hmem' : b ∈ l := (List.mem_filter.1 (List.mem_of_head? hhead')).1
  have hkey : key b = key a := le_antisymm (hleast' a hmem hp) (hleast b hmem' hp')
  rw [hkey, hhead] at hhead'
  rw [hb, hhead']

/-- The last entry that is admitted. -/
theorem getLast?_sortBy_iff : ((sortBy key l).filter fun a => p (key a)).getLast? = some a ↔
    (l.filter fun b => key b = key a).getLast? = some a ∧ p (key a) = true ∧
      ∀ b ∈ l, p (key b) = true → key b ≤ key a := by
  have hlast : ∀ {a : α}, ((sortBy key l).filter fun a => p (key a)).getLast? = some a →
      (l.filter fun b => key b = key a).getLast? = some a ∧ p (key a) = true ∧
        ∀ b ∈ l, p (key b) = true → key b ≤ key a := by
    intro a h
    obtain ⟨init, hinit⟩ := List.getLast?_eq_some_iff.1 h
    have hmem : a ∈ (sortBy key l).filter fun a => p (key a) :=
      hinit ▸ List.mem_append_right _ (List.mem_singleton_self a)
    have hp : p (key a) = true := (List.mem_filter.1 hmem).2
    refine ⟨?_, hp, fun b hb hpb => ?_⟩
    · have hsame : (((sortBy key l).filter fun a => p (key a)).filter fun b => key b = key a) =
          l.filter fun b => key b = key a := by
        rw [← filter_sortBy key l, List.filter_filter]
        refine List.filter_congr fun b _ => ?_
        by_cases hkey : key b = key a
        · simp [hkey, hp]
        · simp [hkey]
      rw [← hsame, hinit, List.filter_append]
      simp
    · have hin : b ∈ init ++ [a] := hinit ▸ List.mem_filter.2 ⟨mem_sortBy.2 hb, hpb⟩
      have hsorted := hinit ▸ (sortBy_sorted key l).filter fun a => p (key a)
      rcases List.mem_append.1 hin with hin | hin
      · exact (List.pairwise_append.1 hsorted).2.2 b hin a (by simp)
      · rw [List.mem_singleton.1 hin]
  refine ⟨hlast, fun ⟨htail, hp, hgreatest⟩ => ?_⟩
  have hmem : a ∈ l := (List.mem_filter.1 (List.mem_of_getLast? htail)).1
  have hne : ((sortBy key l).filter fun a => p (key a)) ≠ [] :=
    List.ne_nil_of_mem (List.mem_filter.2 ⟨mem_sortBy.2 hmem, hp⟩)
  obtain ⟨b, hb⟩ : ∃ b, ((sortBy key l).filter fun a => p (key a)).getLast? = some b :=
    ⟨_, List.getLast?_eq_some_getLast hne⟩
  obtain ⟨htail', hp', hgreatest'⟩ := hlast hb
  have hmem' : b ∈ l := (List.mem_filter.1 (List.mem_of_getLast? htail')).1
  have hkey : key b = key a := le_antisymm (hgreatest b hmem' hp') (hgreatest' a hmem hp)
  rw [hkey, htail] at htail'
  rw [hb, htail']

/-- Sorted lists of the same entries have the same keys. -/
theorem map_key_eq (hl : l.Pairwise fun a b => key a ≤ key b)
    (hl' : l'.Pairwise fun a b => key a ≤ key b) (h : l.Perm l') : l.map key = l'.map key :=
  List.Perm.eq_of_pairwise (fun _ _ _ _ => le_antisymm)
    (List.pairwise_map.2 hl) (List.pairwise_map.2 hl') (h.map key)

end Stable
