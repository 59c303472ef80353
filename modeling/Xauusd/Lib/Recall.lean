/-
  Candidates recalled through an index, and the best of them.

  Rows are filed under each of their keys.  To look for a row is to visit the
  rows filed under its keys, to keep each once, and to judge what was kept; what
  is not found is never judged.

  * `List.assign`: `d[k] = v` in a dictionary, which is a list in the order of
    insertion;
  * `mem_bucket`: the rows filed under a key;
  * `gather`: the visited rows, each once;
  * `collect`: the judgement of every row, unless one of them raises;
  * `filterMap_perm`: **what is gathered has the same candidates as all rows, if
    only rows that are gathered are candidates**;
  * `Top`: the `n` best of some candidates, those of one rank in any order.
-/
import Mathlib

variable {κ ι ν ρ : Type*}

/-! ## Dictionaries -/

/-- `d[k] = v`: an entry that exists keeps its place. -/
def List.assign [DecidableEq κ] : List (κ × ν) → κ → ν → List (κ × ν)
  | [], k, v => [(k, v)]
  | (k', v') :: d, k, v => if k' = k then (k, v) :: d else (k', v') :: d.assign k v

section
variable [DecidableEq κ] {d : List (κ × ν)} {k k' : κ} {v : ν}

theorem List.lookup_cons_eq (k k' : κ) (v : ν) (d : List (κ × ν)) :
    ((k, v) :: d).lookup k' = if k' = k then some v else d.lookup k' := by
  rw [List.lookup_cons]
  by_cases h : k' = k
  · rw [if_pos h, beq_iff_eq.2 h]
  · rw [if_neg h, beq_eq_false_iff_ne.2 h]

theorem List.lookup_assign : (d.assign k v).lookup k' = if k' = k then some v else d.lookup k' := by
  induction d with
  | nil => exact List.lookup_cons_eq k k' v []
  | cons e d ih =>
    obtain ⟨k₀, v₀⟩ := e
    rw [assign]
    split
    · next hk =>
      subst hk
      rw [List.lookup_cons_eq, List.lookup_cons_eq]
      split <;> rfl
    · next hk =>
      rw [List.lookup_cons_eq, List.lookup_cons_eq, ih]
      by_cases h : k' = k₀
      · rw [if_pos h, if_pos h, if_neg (h ▸ hk)]
      · rw [if_neg h, if_neg h]

theorem List.mem_assign {e : κ × ν} (h : e ∈ d.assign k v) : e = (k, v) ∨ e ∈ d := by
  induction d with
  | nil => exact .inl (List.mem_singleton.1 h)
  | cons e₀ d ih =>
    rw [assign] at h
    split at h
    · rcases List.mem_cons.1 h with rfl | h
      · exact .inl rfl
      · exact .inr (List.mem_cons_of_mem _ h)
    · rcases List.mem_cons.1 h with rfl | h
      · exact .inr List.mem_cons_self
      · exact (ih h).imp_right (List.mem_cons_of_mem _)

theorem List.keys_assign_nodup (hd : (d.map Prod.fst).Nodup) : ((d.assign k v).map Prod.fst).Nodup := by
  induction d with
  | nil => exact List.nodup_singleton k
  | cons e d ih =>
    obtain ⟨k₀, v₀⟩ := e
    obtain ⟨hnew, hrest⟩ := List.nodup_cons.1 hd
    rw [assign]
    split
    · next hk => exact List.nodup_cons.2 ⟨hk ▸ hnew, hrest⟩
    · next hk =>
      refine List.nodup_cons.2 ⟨fun hmem => ?_, ih hrest⟩
      obtain ⟨e, he, heq⟩ := List.mem_map.1 hmem
      rcases List.mem_assign he with rfl | he
      · exact hk heq.symm
      · exact hnew (heq ▸ List.mem_map_of_mem he)

end

namespace Recall

/-! ## The index -/

section
variable [DecidableEq κ]

/-- `d.get(k, ())` -/
def bucket (index : List (κ × List ρ)) (k : κ) : List ρ := (index.lookup k).getD []

/-- `d.setdefault(k, []).append(row)` -/
def file (row : ρ) (index : List (κ × List ρ)) (k : κ) : List (κ × List ρ) :=
  index.assign k (bucket index k ++ [row])

/-- The index of some rows, filed under their keys one after the other. -/
def fileAll (keys : ρ → List κ) (rows : List ρ) (index : List (κ × List ρ)) : List (κ × List ρ) :=
  rows.foldl (fun index row => (keys row).foldl (file row) index) index

variable {index : List (κ × List ρ)} {k : κ} {r row : ρ} {keys : ρ → List κ} {rows : List ρ}

@[simp] theorem bucket_nil : bucket ([] : List (κ × List ρ)) k = [] := rfl

theorem bucket_file (k' : κ) :
    bucket (file row index k') k = if k = k' then bucket index k ++ [row] else bucket index k := by
  rw [file, bucket, List.lookup_assign]
  split
  · next h => rw [h, Option.getD_some]
  · rfl

/-- A row filed under some keys, once for each. -/
theorem bucket_foldl_file (ks : List κ) :
    bucket (ks.foldl (file row) index) k = bucket index k ++ List.replicate (ks.count k) row := by
  induction ks generalizing index with
  | nil => simp
  | cons k' ks ih =>
    rw [List.foldl_cons, ih, bucket_file, List.count_cons]
    by_cases h : k = k'
    · subst h
      simp [List.replicate_succ]
    · simp [h, Ne.symm h]

theorem fileAll_cons (keys : ρ → List κ) :
    fileAll keys (row :: rows) index = fileAll keys rows ((keys row).foldl (file row) index) := rfl

/-- Rows without keys are not filed. -/
theorem fileAll_eq_self (h : ∀ row ∈ rows, keys row = []) : fileAll keys rows index = index := by
  induction rows with
  | nil => rfl
  | cons row rows ih =>
    obtain ⟨hrow, hrows⟩ := List.forall_mem_cons.1 h
    rw [fileAll_cons, hrow]
    exact ih hrows

/-- Rows filed under their keys. -/
theorem bucket_fileAll (keys : ρ → List κ) (rows : List ρ) :
    bucket (fileAll keys rows index) k =
      bucket index k ++ rows.flatMap fun row => List.replicate ((keys row).count k) row := by
  induction rows generalizing index with
  | nil => simp [fileAll]
  | cons row rows ih =>
    rw [fileAll_cons, ih, bucket_foldl_file, List.flatMap_cons, List.append_assoc]

theorem mem_bucket : r ∈ bucket (fileAll keys rows []) k ↔ r ∈ rows ∧ k ∈ keys r := by
  rw [bucket_fileAll]
  simp only [bucket_nil, List.nil_append, List.mem_flatMap, List.mem_replicate, ne_eq,
    List.count_eq_zero, not_not]
  constructor
  · rintro ⟨row, hrow, hk, rfl⟩
    exact ⟨hrow, hk⟩
  · rintro ⟨hr, hk⟩
    exact ⟨r, hr, hk, rfl⟩

/-- An index of some of the rows. -/
theorem bucket_filter (p : ρ → Bool) :
    bucket (fileAll keys (rows.filter p) []) k = (bucket (fileAll keys rows []) k).filter p := by
  simp only [bucket_fileAll, bucket_nil, List.nil_append]
  induction rows with
  | nil => rfl
  | cons row rows ih =>
    rw [List.flatMap_cons, List.filter_append, ← ih, List.filter_replicate]
    by_cases h : p row = true
    · rw [List.filter_cons_of_pos h, List.flatMap_cons, if_pos h]
    · rw [List.filter_cons_of_neg h, if_neg h, List.nil_append]

end

/-! ## Visited rows -/

section
variable [DecidableEq ι] {ident : ρ → ι} {rows visited : List ρ} {r : ρ} {d : List (ι × ρ)}

/-- The rows by their identifiers, in the order of their first visit. -/
def gather (ident : ρ → ι) (visited : List ρ) (d : List (ι × ρ)) : List (ι × ρ) :=
  visited.foldl (fun d row => d.assign (ident row) row) d

theorem gather_concat (row : ρ) :
    gather ident (visited ++ [row]) d = (gather ident visited d).assign (ident row) row := by
  rw [gather, List.foldl_append]
  rfl

/-- Rows visited under one key after the other. -/
theorem gather_flatMap (keys : List κ) (f : κ → List ρ) :
    keys.foldl (fun d k => gather ident (f k) d) d = gather ident (keys.flatMap f) d :=
  List.foldl_flatMap.symm

/-- What is gathered was visited. -/
theorem gather_subset {e : ι × ρ} (h : e ∈ gather ident visited []) : e.2 ∈ visited := by
  induction visited using List.reverseRecOn with
  | nil => cases h
  | append_singleton visited row ih =>
    rw [gather_concat] at h
    rcases List.mem_assign h with rfl | h
    · simp
    · exact List.mem_append_left _ (ih h)

/-- A dictionary of rows by their identifiers. -/
def entries (ident : ρ → ι) (rows : List ρ) : List (ι × ρ) := rows.map fun row => (ident row, row)

theorem assign_entries_of_mem (hr : r ∈ rows) (hident : ∀ r' ∈ rows, ident r' = ident r → r' = r) :
    (entries ident rows).assign (ident r) r = entries ident rows := by
  induction rows with
  | nil => cases hr
  | cons row rows ih =>
    obtain ⟨hrow, hrows⟩ := List.forall_mem_cons.1 hident
    rw [entries, List.map_cons, ← entries, List.assign]
    split
    · next h => rw [hrow h]
    · next h =>
      rcases List.mem_cons.1 hr with rfl | hr
      · exact absurd rfl h
      · rw [ih hr hrows]

theorem assign_entries_of_not_mem (hr : ∀ r' ∈ rows, ident r' ≠ ident r) :
    (entries ident rows).assign (ident r) r = entries ident (rows ++ [r]) := by
  induction rows with
  | nil => rfl
  | cons row rows ih =>
    obtain ⟨hrow, hrows⟩ := List.forall_mem_cons.1 hr
    rw [entries, List.map_cons, ← entries, List.assign, if_neg hrow, ih hrows]
    rfl

/-- Each visited row is gathered once, if its identifier is its own. -/
theorem gather_eq_entries (hident : ∀ r ∈ visited, ∀ r' ∈ visited, ident r' = ident r → r' = r) :
    ∃ rows, gather ident visited [] = entries ident rows ∧ rows.Nodup ∧ ∀ r, r ∈ rows ↔ r ∈ visited := by
  induction visited using List.reverseRecOn with
  | nil => exact ⟨[], rfl, List.nodup_nil, fun _ => Iff.rfl⟩
  | append_singleton visited row ih =>
    have hlast : row ∈ visited ++ [row] := by simp
    obtain ⟨rows, hrows, hnodup, hmem⟩ := ih fun r hr r' hr' =>
      hident r (List.mem_append_left _ hr) r' (List.mem_append_left _ hr')
    rw [gather_concat, hrows]
    by_cases h : row ∈ visited
    · refine ⟨rows, ?_, hnodup, fun r => ?_⟩
      · exact assign_entries_of_mem ((hmem row).2 h) fun r' hr' =>
          hident row hlast r' (List.mem_append_left _ ((hmem r').1 hr'))
      · rw [hmem, List.mem_append, List.mem_singleton]
        exact ⟨.inl, fun hr => hr.elim id fun heq => heq ▸ h⟩
    · refine ⟨rows ++ [row], ?_, ?_, fun r => ?_⟩
      · refine assign_entries_of_not_mem fun r' hr' heq => h ?_
        have hr' := (hmem r').1 hr'
        exact hident row hlast r' (List.mem_append_left _ hr') heq ▸ hr'
      · exact hnodup.append (List.nodup_singleton row)
          (List.disjoint_singleton.2 fun hr => h ((hmem row).1 hr))
      · rw [List.mem_append, hmem, List.mem_append]

/-- What is gathered of some of the visited rows. -/
theorem gather_filter (hident : ∀ r ∈ visited, ∀ r' ∈ visited, ident r' = ident r → r' = r) (p : ρ → Bool) :
    gather ident (visited.filter p) [] = (gather ident visited []).filter fun e => p e.2 := by
  induction visited using List.reverseRecOn with
  | nil => rfl
  | append_singleton visited row ih =>
    have hlast : row ∈ visited ++ [row] := by simp
    have hbefore : ∀ r ∈ visited, ∀ r' ∈ visited, ident r' = ident r → r' = r := fun r hr r' hr' =>
      hident r (List.mem_append_left _ hr) r' (List.mem_append_left _ hr')
    obtain ⟨rows, hrows, hnodup, hmem⟩ := gather_eq_entries hbefore
    have hfilter : (entries ident rows).filter (fun e => p e.2) = entries ident (rows.filter p) := by
      rw [entries, List.filter_map]
      rfl
    have ih := ih hbefore
    rw [hrows, hfilter] at ih
    have hown : ∀ r' ∈ rows, ident r' = ident row → r' = row := fun r' hr' =>
      hident row hlast r' (List.mem_append_left _ ((hmem r').1 hr'))
    rw [List.filter_append, gather_concat, hrows]
    by_cases hin : row ∈ rows
    · rw [assign_entries_of_mem hin hown, hfilter]
      by_cases hp : p row = true
      · rw [List.filter_cons_of_pos hp, List.filter_nil, gather_concat, ih]
        exact assign_entries_of_mem (List.mem_filter.2 ⟨hin, hp⟩) fun r' hr' =>
          hown r' (List.mem_of_mem_filter hr')
      · rw [List.filter_cons_of_neg hp, List.filter_nil, List.append_nil, ih]
    · have hother : ∀ r' ∈ rows, ident r' ≠ ident row := fun r' hr' heq => hin (hown r' hr' heq ▸ hr')
      rw [assign_entries_of_not_mem hother, entries, List.filter_map, ← entries]
      by_cases hp : p row = true
      · rw [List.filter_cons_of_pos hp, List.filter_nil, gather_concat, ih,
          assign_entries_of_not_mem fun r' hr' => hother r' (List.mem_of_mem_filter hr')]
        simp [hp, Function.comp_def]
      · rw [List.filter_cons_of_neg hp, List.filter_nil, List.append_nil, ih]
        simp [hp, Function.comp_def]

end

/-! ## Judgement -/

section
variable {ε γ : Type*} {judge : ρ → Except ε (Option γ)} {rows rows' : List ρ}

/-- The candidates among the rows, unless the judgement of one of them raises. -/
def collect (judge : ρ → Except ε (Option γ)) : List ρ → Except ε (List γ)
  | [] => .ok []
  | row :: rows =>
    match judge row with
    | .error e => .error e
    | .ok candidate =>
      match collect judge rows with
      | .error e => .error e
      | .ok candidates => .ok (candidate.toList ++ candidates)

/-- What the row is as a candidate. -/
def candidate? (judge : ρ → Except ε (Option γ)) (row : ρ) : Option γ := (judge row).toOption.join

theorem collect_eq_ok {candidates : List γ} (h : collect judge rows = .ok candidates) :
    candidates = rows.filterMap (candidate? judge) := by
  induction rows generalizing candidates with
  | nil =>
    cases h
    rfl
  | cons row rows ih =>
    rw [collect] at h
    split at h
    · cases h
    · next candidate hrow =>
      split at h
      · cases h
      · next rest hrest =>
        cases h
        have hcandidate : candidate? judge row = candidate := by
          rw [candidate?, hrow]
          cases candidate <;> rfl
        rw [ih hrest]
        cases candidate with
        | none => rw [List.filterMap_cons_none hcandidate, Option.toList_none, List.nil_append]
        | some c => rw [List.filterMap_cons_some hcandidate, Option.toList_some, List.singleton_append]

/-- Rows whose judgement is that they are no candidates do not matter. -/
theorem collect_filter {p : ρ → Bool} (h : ∀ row, p row = false → judge row = .ok none) :
    collect judge (rows.filter p) = collect judge rows := by
  induction rows with
  | nil => rfl
  | cons row rows ih =>
    by_cases hp : p row = true
    · rw [List.filter_cons_of_pos hp, collect, collect, ih]
    · rw [List.filter_cons_of_neg hp, ih, collect, h row (by simpa using hp)]
      cases collect judge rows <;> rfl

/-- Nothing that was judged raised. -/
theorem exists_of_collect_eq_ok {candidates : List γ} {row : ρ} (h : collect judge rows = .ok candidates)
    (hrow : row ∈ rows) : ∃ candidate, judge row = .ok candidate := by
  induction rows generalizing candidates with
  | nil => cases hrow
  | cons row' rows ih =>
    rw [collect] at h
    split at h
    · cases h
    · next candidate hcandidate =>
      split at h
      · cases h
      · next rest hrest =>
        rcases List.mem_cons.1 hrow with rfl | hrow
        · exact ⟨candidate, hcandidate⟩
        · exact ih hrest hrow

theorem collect_eq_error {e : ε} (h : collect judge rows = .error e) : ∃ row ∈ rows, judge row = .error e := by
  induction rows with
  | nil => cases h
  | cons row rows ih =>
    rw [collect] at h
    split at h
    · next hrow =>
      cases h
      exact ⟨row, List.mem_cons_self, hrow⟩
    · split at h
      · next hrest =>
        cases h
        obtain ⟨row', hrow', hjudge⟩ := ih hrest
        exact ⟨row', List.mem_cons_of_mem _ hrow', hjudge⟩
      · cases h

/-- Rows that are not gathered and are no candidates do not matter. -/
theorem filterMap_perm {f : ρ → Option γ} (hgathered : rows'.Nodup) (hrows : rows.Nodup) (hsub : rows' ⊆ rows)
    (hmissed : ∀ row ∈ rows, row ∉ rows' → f row = none) :
    (rows'.filterMap f).Perm (rows.filterMap f) := by
  classical
  have hperm : rows'.Perm (rows.filter (· ∈ rows')) := by
    refine (List.perm_ext_iff_of_nodup hgathered (hrows.filter _)).2 fun row => ?_
    simp only [List.mem_filter, decide_eq_true_eq]
    exact ⟨fun h => ⟨hsub h, h⟩, And.right⟩
  refine (hperm.filterMap f).trans ?_
  rw [List.filterMap_filter]
  refine (List.filterMap_congr fun row hrow => ?_) ▸ List.Perm.refl _
  by_cases h : row ∈ rows'
  · simp [h]
  · simp [h, hmissed row hrow h]

end

/-! ## The best -/

section
variable {γ : Type*} [LinearOrder κ] {rank : γ → κ} {n : ℕ} {l l' out : List γ} {c : γ}

/-- `out` are the `n` best of `l`, best first, those of one rank in any order. -/
def Top (rank : γ → κ) (n : ℕ) (l out : List γ) : Prop :=
  ∃ ranked : List γ, ranked.Perm l ∧ (ranked.Pairwise fun a b => rank b ≤ rank a) ∧ out = ranked.take n

theorem Top.mem (h : Top rank n l out) (hc : c ∈ out) : c ∈ l := by
  obtain ⟨ranked, hperm, -, rfl⟩ := h
  exact hperm.mem_iff.1 (List.mem_of_mem_take hc)

theorem Top.of_perm (h : Top rank n l out) (hperm : l.Perm l') : Top rank n l' out := by
  obtain ⟨ranked, hranked, hsorted, hout⟩ := h
  exact ⟨ranked, hranked.trans hperm, hsorted, hout⟩

end

end Recall
