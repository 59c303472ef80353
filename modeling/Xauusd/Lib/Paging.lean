/-
  Reading a list page by page.

  A reader keeps the key of the last entry it read and asks for the next
  entries below it.

  * `below lt key c l`: the entries of `l` below the key `c`, all of them
    without one;
  * `below_append`: in a strictly descending list, below the last entry of a
    part that was read lies the rest;
  * `take_append_drop`: a page moves its entries from the rest to what was
    read;
  * `Follows`: the entries that are read by going on from every key returned;
  * `follows_of_sorted`: from a descending list all entries are read, in order;
  * `eq_of_follows`: **if the entries are read in descending order, and none is
    lost, the list was descending**, whatever its pages.
-/
import Mathlib

namespace Paging

variable {α κ : Type*} {key : α → κ} {lt : κ → κ → Prop} [DecidableRel lt]

/-- The entries below a key. -/
def below (lt : κ → κ → Prop) [DecidableRel lt] (key : α → κ) (c : Option κ) (l : List α) : List α :=
  l.filter fun a => c.all fun c => decide (lt (key a) c)

/-- The key of the last entry. -/
def lastKey (key : α → κ) (l : List α) : Option κ := l.getLast?.map key

@[simp] theorem below_none (l : List α) : below lt key none l = l := by simp [below]

@[simp] theorem lastKey_nil : lastKey key [] = none := rfl

theorem lastKey_append (l : List α) {l' : List α} (h : l' ≠ []) :
    lastKey key (l ++ l') = lastKey key l' := by
  rw [lastKey, List.getLast?_append_of_ne_nil _ h, lastKey]

/-- Below the last entry of a descending list lies what is below it. -/
theorem below_split [IsStrictOrder κ lt] {l l' : List α} (hl : l.Pairwise fun a b => lt (key b) (key a))
    (hcross : ∀ k ∈ lastKey key l, ∀ a ∈ l', lt (key a) k) :
    below lt key (lastKey key l) (l ++ l') = l' := by
  rcases List.eq_nil_or_concat' l with rfl | ⟨init, last, rfl⟩
  · simp
  · obtain ⟨-, -, hinit⟩ := List.pairwise_append.1 hl
    have hnone : (init ++ [last]).filter (fun a => decide (lt (key a) (key last))) = [] := by
      refine List.filter_eq_nil_iff.2 fun a ha => ?_
      rw [decide_eq_true_eq]
      rcases List.mem_append.1 ha with ha | ha
      · exact asymm (hinit a ha last (by simp))
      · rw [List.mem_singleton.1 ha]
        exact irrefl _
    have hall : l'.filter (fun a => decide (lt (key a) (key last))) = l' :=
      List.filter_eq_self.2 fun a ha => decide_eq_true (hcross _ (by simp [lastKey]) a ha)
    simp only [below, lastKey, List.getLast?_concat, Option.map_some, Option.all_some,
      List.filter_append, hnone, hall, List.nil_append]

theorem lastKey_mem {l : List α} {k : κ} (h : k ∈ lastKey key l) : ∃ a ∈ l, key a = k := by
  obtain ⟨a, ha, hk⟩ := Option.map_eq_some_iff.1 h
  exact ⟨a, List.mem_of_getLast? ha, hk⟩

/-- **The rest of a descending list** lies below the last entry read. -/
theorem below_append [IsStrictOrder κ lt] {l l' : List α}
    (h : (l ++ l').Pairwise fun a b => lt (key b) (key a)) :
    below lt key (lastKey key l) (l ++ l') = l' := by
  obtain ⟨hl, -, hcross⟩ := List.pairwise_append.1 h
  refine below_split hl fun k hk a ha => ?_
  obtain ⟨last, hlast, rfl⟩ := lastKey_mem hk
  exact hcross last hlast a ha

/-- What is below a key below another one. -/
theorem below_below [IsStrictOrder κ lt] {k : κ} {c : Option κ} (h : ∀ k' ∈ c, lt k k') (l : List α) :
    below lt key (some k) (below lt key c l) = below lt key (some k) l := by
  rw [below, below, List.filter_filter]
  refine List.filter_congr fun a _ => ?_
  cases c with
  | none => simp
  | some k' =>
    have hk := h k' rfl
    by_cases ha : lt (key a) k
    · have hak : lt (key a) k' := IsTrans.trans _ _ _ ha hk
      simp [ha, hak]
    · simp [ha]

/-- A page of `n` entries: what was read, with the page, and the rest. -/
theorem take_append_drop (l l' : List α) (n : ℕ) :
    (l ++ l'.take n) ++ l'.drop n = l ++ l' := by
  rw [List.append_assoc, List.take_append_drop]

/-- One entry more tells whether there is a next page. -/
theorem take_take_succ (l : List α) (n : ℕ) : (l.take (n + 1)).take n = l.take n := by
  rw [List.take_take, Nat.min_eq_left n.le_succ]

theorem lt_length_take_succ {l : List α} {n : ℕ} : n < (l.take (n + 1)).length ↔ n < l.length := by
  rw [List.length_take]
  omega

theorem drop_of_short {l : List α} {n : ℕ} (h : (l.take n).length < n) : l.drop n = [] := by
  rw [List.drop_eq_nil_iff]
  rw [List.length_take] at h
  omega

/-! ## Going on from page to page -/

/-- The first `n` entries below a key, and the key to go on from. -/
def page (lt : κ → κ → Prop) [DecidableRel lt] (key : α → κ) (n : ℕ) (l : List α) (c : Option κ) :
    List α × Option κ :=
  ((below lt key c l).take n,
    if n < (below lt key c l).length then lastKey key ((below lt key c l).take n) else none)

/-- The key to go on from, as a program writes it. -/
theorem page_next {γ : Type*} (e : κ → γ) (n : ℕ) (l : List α) (c : Option κ) :
    (page lt key n l c).2.map e =
      if n < (below lt key c l).length then ((below lt key c l).take n).getLast?.map fun a => e (key a)
      else none := by
  rw [page]
  split
  · rw [lastKey, Option.map_map]
    rfl
  · rfl

/-- The entries that are read from a key on. -/
inductive Follows {γ β : Type*} (read : Option γ → Option (List β × Option γ)) : Option γ → List β → Prop where
  | last {c entries} : read c = some (entries, none) → Follows read c entries
  | more {c entries c' rest} : read c = some (entries, some c') → Follows read (some c') rest →
      Follows read c (entries ++ rest)

section
variable {γ β : Type*} {read : Option γ → Option (List β × Option γ)} {c : Option γ} {entries entries' : List β}

theorem Follows.unique (h : Follows read c entries) (h' : Follows read c entries') : entries = entries' := by
  induction h generalizing entries' with
  | last hread =>
    cases h' with
    | last hread' =>
      rw [hread] at hread'
      cases hread'
      rfl
    | more hread' _ =>
      rw [hread] at hread'
      cases hread'
  | more hread _ ih =>
    cases h' with
    | last hread' =>
      rw [hread] at hread'
      cases hread'
    | more hread' hrest' =>
      rw [hread] at hread'
      cases hread'
      rw [ih hrest']

/-- Pages of another text for the entries and the keys, where the keys that
    occur have one. -/
theorem follows_map {f : α → β} {e : κ → γ} {valid : κ → Prop} {pages : Option κ → List α × Option κ}
    (hread : ∀ c, (∀ k ∈ c, valid k) → read (c.map e) = some ((pages c).1.map f, (pages c).2.map e))
    (hvalid : ∀ c, (∀ k ∈ c, valid k) → ∀ k ∈ (pages c).2, valid k) {c : Option κ} (hc : ∀ k ∈ c, valid k) :
    Follows read (c.map e) entries ↔ ∃ l, Follows (fun c => some (pages c)) c l ∧ entries = l.map f := by
  constructor
  · intro h
    generalize hd : c.map e = d at h
    induction h generalizing c with
    | last h =>
      rw [← hd, hread c hc, Option.some_inj, Prod.mk.injEq, Option.map_eq_none_iff] at h
      exact ⟨_, .last (congrArg some (Prod.ext rfl h.2)), h.1.symm⟩
    | more h _ ih =>
      rw [← hd, hread c hc, Option.some_inj, Prod.mk.injEq, Option.map_eq_some_iff] at h
      obtain ⟨hentries, k, hk, rfl⟩ := h
      have hnext : ∀ k' ∈ some k, valid k' := by
        intro k' hk'
        rw [← hk] at hk'
        exact hvalid c hc k' hk'
      obtain ⟨l, hl, rfl⟩ := ih hnext rfl
      exact ⟨(pages c).1 ++ l, .more (congrArg some (Prod.ext rfl hk)) hl, by rw [List.map_append, hentries]⟩
  · rintro ⟨l, h, rfl⟩
    induction h with
    | @last c entries h =>
      have hpages := Option.some.inj h
      refine .last ?_
      rw [hread c hc, hpages]
      rfl
    | @more c entries k rest h _ ih =>
      have hpages := Option.some.inj h
      have hnext : ∀ k' ∈ some k, valid k' := by
        intro k' hk'
        refine hvalid c hc k' ?_
        rw [hpages]
        exact hk'
      rw [List.map_append]
      refine .more ?_ (ih hnext)
      rw [hread c hc, hpages]
      rfl

end

section
variable {n : ℕ} {l : List α} {c : Option κ}

theorem follows_subset {entries : List α} (h : Follows (fun c => some (page lt key n l c)) c entries) :
    entries ⊆ l := by
  have hpage (c : Option κ) : (page lt key n l c).1 ⊆ l :=
    ((List.take_sublist _ _).trans List.filter_sublist).subset
  induction h with
  | @last c entries h =>
    have hentries := hpage c
    rwa [Option.some.inj h] at hentries
  | @more c entries k rest h _ ih =>
    have hentries := hpage c
    rw [Option.some.inj h] at hentries
    exact List.append_subset.2 ⟨hentries, ih⟩

/-- A descending list is read in order. -/
theorem follows_of_sorted [IsStrictOrder κ lt] (hn : 0 < n)
    (hl : l.Pairwise fun a b => lt (key b) (key a)) : Follows (fun c => some (page lt key n l c)) none l := by
  -- what was read, and the rest, which gets shorter with every page
  suffices h : ∀ m before after, after.length ≤ m → l = before ++ after →
      Follows (fun c => some (page lt key n l c)) (lastKey key before) after from
    h _ [] l le_rfl rfl
  intro m
  induction m with
  | zero =>
    intro before after hlength hsplit
    obtain rfl := List.eq_nil_of_length_eq_zero (Nat.le_zero.1 hlength)
    have hbelow : below lt key (lastKey key before) l = [] := by
      rw [hsplit] at hl ⊢
      exact below_append hl
    refine .last ?_
    rw [page, hbelow, if_neg (by simp), List.take_nil]
  | succ m ih =>
    intro before after hlength hsplit
    have hbelow : below lt key (lastKey key before) l = after := by
      rw [hsplit] at hl ⊢
      exact below_append hl
    by_cases hmore : n < after.length
    · have htake : after.take n ≠ [] := by
        rw [ne_eq, List.take_eq_nil_iff]
        rintro (rfl | rfl)
        · exact lt_irrefl 0 hn
        · exact absurd hmore (Nat.not_lt_zero n)
      have hnext := ih (before ++ after.take n) (after.drop n) (by rw [List.length_drop]; omega)
        (by rw [take_append_drop, hsplit])
      rw [lastKey_append before htake] at hnext
      rw [← List.take_append_drop n after]
      obtain ⟨last, hlast⟩ := Option.isSome_iff_exists.1
        (show (lastKey key (after.take n)).isSome by simpa [lastKey] using htake)
      rw [hlast] at hnext
      refine .more ?_ hnext
      rw [page, hbelow, if_pos hmore, hlast]
    · refine .last ?_
      rw [page, hbelow, if_neg hmore, List.take_of_length_le (not_lt.1 hmore)]

/-- **If the entries are read in descending order, and none is lost, the list
    was descending.** -/
theorem eq_of_follows [IsStrictOrder κ lt] {entries : List α}
    (h : Follows (fun c => some (page lt key n l c)) c entries)
    (hperm : entries.Perm (below lt key c l)) (hsorted : entries.Pairwise fun a b => lt (key b) (key a)) :
    below lt key c l = entries := by
  induction h with
  | @last c entries h =>
    obtain ⟨hentries, hnone⟩ := Prod.mk.inj (Option.some.inj h)
    by_cases hmore : n < (below lt key c l).length
    · have hlength := hperm.length_eq
      rw [← hentries, List.length_take] at hlength
      omega
    · rw [← hentries, List.take_of_length_le (not_lt.1 hmore)]
  | @more c entries k rest h hrest ih =>
    obtain ⟨hentries, hsome⟩ := Prod.mk.inj (Option.some.inj h)
    have hmore : n < (below lt key c l).length := by
      by_contra hmore
      rw [if_neg hmore] at hsome
      cases hsome
    rw [if_pos hmore] at hsome
    subst hentries
    -- the page is a prefix of what was below, and the rest lies below its last entry
    have hrestperm : rest.Perm ((below lt key c l).drop n) := by
      refine (List.perm_append_left_iff ((below lt key c l).take n)).1 (hperm.trans ?_)
      rw [List.take_append_drop]
    obtain ⟨hpage, hrestsorted, hcross⟩ := List.pairwise_append.1 hsorted
    have hdrop : below lt key (some k) l = (below lt key c l).drop n := by
      have hk : ∀ k' ∈ c, lt k k' := by
        intro k' hk'
        obtain ⟨last, hlast, rfl⟩ := lastKey_mem hsome
        have hbelow := (List.mem_filter.1 (List.mem_of_mem_take hlast)).2
        rw [Option.mem_def.1 hk', Option.all_some] at hbelow
        exact of_decide_eq_true hbelow
      have hsplit := below_split hpage fun k' hk' a ha => by
        obtain ⟨last, hlast, rfl⟩ := lastKey_mem hk'
        exact hcross last hlast a (hrestperm.symm.subset ha)
      rw [List.take_append_drop, hsome] at hsplit
      rw [← below_below hk]
      exact hsplit
    rw [← ih (hrestperm.trans (by rw [hdrop])) hrestsorted, hdrop, List.take_append_drop]

end

end Paging
