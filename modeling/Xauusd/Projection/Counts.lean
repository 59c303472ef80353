/-
  The counts of a generation, as rows.

  * `of_mem_groupRows`: a group counts the entries of one state and category;
  * `sum_all_counts`: the count of all states together is the number of rows;
  * `nodup_newsProjectionCounts`: the rows have different keys.
-/
import Mathlib
import Xauusd.Projection.Store

namespace Xauusd.Projection

theorem reviewStateOf_ne_all (payload : Json) : reviewStateOf payload ≠ .all := by
  unfold reviewStateOf
  split <;> exact nofun

section
variable {g : String} {rows : List IndexEntry}

theorem of_mem_groupRows {c : CountRow} (hc : c ∈ groupRows g rows) :
    c.generation = g ∧ ∃ e ∈ rows, c.review = reviewStateOf e.payload ∧ c.category = e.category := by
  obtain ⟨k, hk, rfl⟩ := List.mem_map.1 hc
  obtain ⟨e, he, rfl⟩ := List.mem_map.1 (List.mem_dedup.1 hk)
  exact ⟨rfl, e, he, rfl, rfl⟩

theorem review_ne_all {c : CountRow} (hc : c ∈ groupRows g rows) : c.review ≠ .all := by
  obtain ⟨-, e, -, hreview, -⟩ := of_mem_groupRows hc
  exact hreview ▸ reviewStateOf_ne_all e.payload

/-- The states whose groups are added up. -/
theorem review_of_mem_dedup {review : ReviewState} (h : review ∈ ((groupRows g rows).map (·.review)).dedup) :
    review ≠ .all := by
  obtain ⟨c, hc, rfl⟩ := List.mem_map.1 (List.mem_dedup.1 h)
  exact review_ne_all hc

theorem generation_of_counts {c : CountRow} (hc : c ∈ newsProjectionCounts g rows) : c.generation = g := by
  simp only [newsProjectionCounts, List.mem_append, List.mem_map] at hc
  rcases hc with (hc | ⟨review, -, rfl⟩) | hc
  · exact (of_mem_groupRows hc).1
  · rfl
  · split at hc
    · cases hc
    · rw [List.mem_singleton.1 hc]
      rfl

/-! ## Sums -/

theorem sum_groupRows (g : String) (rows : List IndexEntry) :
    ((groupRows g rows).map (·.itemCount)).sum = rows.length := by
  let group (e : IndexEntry) : ReviewState × String := (reviewStateOf e.payload, e.category)
  have hsum := List.sum_map_count_dedup_eq_length (rows.map group)
  rw [List.length_map] at hsum
  rw [← hsum, groupRows, List.map_map]
  refine congrArg List.sum (List.map_congr_left fun k _ => ?_)
  exact (List.countP_congr fun e _ => by simp [group]).trans List.countP_map.symm

/-- The count of all states together is the number of the rows. -/
theorem sum_all_counts (g : String) (rows : List IndexEntry) :
    (((newsProjectionCounts g rows).filter fun c => c.review = .all).map (·.itemCount)).sum = rows.length := by
  have hsum := sum_groupRows g rows
  simp only [newsProjectionCounts, List.filter_append]
  rw [List.filter_eq_nil_iff.2 fun c hc => by simpa using review_ne_all hc, List.filter_eq_nil_iff.2]
  · cases hgroups : groupRows g rows with
    | nil =>
      rw [hgroups] at hsum
      exact hsum
    | cons c groups =>
      rw [hgroups] at hsum
      simpa [totalRow] using hsum
  · intro c hc
    obtain ⟨review, hreview, rfl⟩ := List.mem_map.1 hc
    exact fun h => review_of_mem_dedup hreview (of_decide_eq_true h)

/-! ## Keys -/

/-- The rows of a count have different keys: the total rows take the empty
    category, which no item has. -/
theorem nodup_newsProjectionCounts (hcategory : ∀ e ∈ rows, e.category ≠ "") :
    ((newsProjectionCounts g rows).map CountRow.key).Nodup := by
  have hgroups : ∀ c ∈ groupRows g rows, c.category ≠ "" := by
    intro c hc
    obtain ⟨-, e, he, -, hc⟩ := of_mem_groupRows hc
    exact hc ▸ hcategory e he
  simp only [newsProjectionCounts, List.map_append, List.nodup_append]
  refine ⟨⟨?_, ?_, ?_⟩, ?_, ?_⟩
  · rw [groupRows, List.map_map]
    refine List.Nodup.map_on (fun k _ k' _ hkey => ?_) (List.nodup_dedup _)
    simp only [Function.comp_apply, CountRow.key, Prod.mk.injEq, true_and] at hkey
    exact Prod.ext hkey.1 hkey.2
  · rw [List.map_map]
    refine List.Nodup.map_on (fun k _ k' _ hkey => ?_) (List.nodup_dedup _)
    simpa [CountRow.key, totalRow] using hkey
  · rintro k hk k' hk' rfl
    obtain ⟨c, hc, rfl⟩ := List.mem_map.1 hk
    obtain ⟨_, hc', hkey⟩ := List.mem_map.1 hk'
    obtain ⟨review, -, rfl⟩ := List.mem_map.1 hc'
    exact hgroups c hc (congrArg (·.2.2) hkey).symm
  · split <;> simp
  · rintro k hk k' hk' rfl
    split at hk'
    · cases hk'
    · obtain rfl := List.mem_singleton.1 hk'
      rcases List.mem_append.1 hk with hk | hk
      · obtain ⟨c, hc, hkey⟩ := List.mem_map.1 hk
        exact hgroups c hc (congrArg (·.2.2) hkey)
      · obtain ⟨_, hc, hkey⟩ := List.mem_map.1 hk
        obtain ⟨review, hreview, rfl⟩ := List.mem_map.1 hc
        exact review_of_mem_dedup hreview (congrArg (·.2.1) hkey)

end

theorem category_of_validIndex {item : Json} (h : validIndex item = true) : (indexEntry item).category ≠ "" := by
  intro hempty
  simp only [validIndex, Bool.and_eq_true, decide_eq_true_eq] at h
  have hmem := h.1.1.1.1.2
  rw [show textOf (item.get "category") = "" from hempty] at hmem
  simp [NEWS_PROJECTION_CATEGORIES] at hmem

end Xauusd.Projection
