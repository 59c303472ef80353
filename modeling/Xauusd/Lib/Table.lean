/-
  Tables with a primary key, and the statements that write them.

  A `Table key` is a list of rows in insertion order, no two with the same
  key.  The uniqueness is a field, so that no statement can break it.

  * `update p f` is `UPDATE … SET f WHERE p`, `hits p` its row count;
  * `insertIgnore r clash` is `INSERT OR IGNORE`: nothing is inserted over a
    row with the same key or one that another uniqueness constraint `clash`es
    with;
  * `upsert r merge` is `INSERT … ON CONFLICT(key) DO UPDATE`;
  * `mem_update`, `mem_insertIgnore`, `mem_upsert`: the rows after a statement;
  * `hits_eq_one_iff`: a `WHERE` clause that fixes the key hits one row iff
    some row satisfies it;
  * `insertAll`, `upsertAll` write some rows, `insertAll` none when a key is
    taken;
  * `amountAt_upsert`, `sum_filter_upsert`: what counting a row adds to a
    column, under one key and in total;
  * `firstBy le` is `ORDER BY … LIMIT 1`.
-/
import Mathlib

variable {ρ κ : Type}

/-- Rows in insertion order, with pairwise different keys. -/
structure Table (key : ρ → κ) where
  rows : List ρ
  nodup : (rows.map key).Nodup

namespace Table

variable {key : ρ → κ}

@[ext] theorem ext {t u : Table key} (h : t.rows = u.rows) : t = u := by
  cases t; cases u; cases h; rfl

instance : Membership ρ (Table key) := ⟨fun t r => r ∈ t.rows⟩

theorem mem_rows {t : Table key} {r : ρ} : r ∈ t.rows ↔ r ∈ t := Iff.rfl

/-- The table without rows. -/
def empty : Table key := ⟨[], by simp⟩

@[simp] theorem rows_empty : (empty : Table key).rows = [] := rfl

@[simp] theorem not_mem_empty (r : ρ) : r ∉ (empty : Table key) := fun h => nomatch h

instance (t : Table key) (p : ρ → Prop) [DecidablePred p] : Decidable (∀ r ∈ t, p r) :=
  inferInstanceAs (Decidable (∀ r ∈ t.rows, p r))

instance (t : Table key) (p : ρ → Prop) [DecidablePred p] : Decidable (∃ r ∈ t, p r) :=
  inferInstanceAs (Decidable (∃ r ∈ t.rows, p r))

theorem eq_of_key_eq (t : Table key) {r r' : ρ} (hr : r ∈ t) (hr' : r' ∈ t)
    (h : key r = key r') : r = r' :=
  List.inj_on_of_nodup_map t.nodup hr hr' h

/-- The row with a given key. -/
def find? [DecidableEq κ] (t : Table key) (k : κ) : Option ρ :=
  t.rows.find? fun r => key r = k

theorem find?_eq_some_iff [DecidableEq κ] {t : Table key} {k : κ} {r : ρ} :
    t.find? k = some r ↔ r ∈ t ∧ key r = k := by
  refine ⟨fun h => ⟨List.mem_of_find?_eq_some h, by simpa using List.find?_some h⟩, ?_⟩
  rintro ⟨hr, rfl⟩
  cases h : t.find? (key r) with
  | none => simpa using List.find?_eq_none.1 h r hr
  | some r' =>
    have hk : key r' = key r := by simpa using List.find?_some h
    rw [t.eq_of_key_eq (List.mem_of_find?_eq_some h) hr hk]

theorem find?_eq_none_iff [DecidableEq κ] {t : Table key} {k : κ} :
    t.find? k = none ↔ ∀ r ∈ t, key r ≠ k := by
  simp [find?, List.find?_eq_none, mem_rows]

/-! ## Updates -/

/-- `UPDATE … SET f WHERE p`. -/
def update (t : Table key) (p : ρ → Bool) (f : ρ → ρ) (hf : ∀ r, key (f r) = key r) :
    Table key where
  rows := t.rows.map fun r => if p r then f r else r
  nodup := by
    have : (key ∘ fun r => if p r then f r else r) = key := by
      funext r; by_cases h : p r <;> simp [h, hf]
    rw [List.map_map, this]; exact t.nodup

/-- The row count of a statement with the `WHERE` clause `p`. -/
def hits (t : Table key) (p : ρ → Bool) : ℕ := t.rows.countP p

/-- What an update keeps of every row, it keeps of the table. -/
theorem map_update {γ : Type} (t : Table key) (p : ρ → Bool) (f : ρ → ρ)
    (hf : ∀ r, key (f r) = key r) {g : ρ → γ} (hg : ∀ r, g (f r) = g r) :
    (t.update p f hf).rows.map g = t.rows.map g := by
  simp only [update, List.map_map]
  refine List.map_congr_left fun r _ => ?_
  by_cases h : p r <;> simp [h, hg]

section
variable {t : Table key} {p : ρ → Bool} {f : ρ → ρ} {hf : ∀ r, key (f r) = key r}

theorem mem_update (hf : ∀ r, key (f r) = key r) {r : ρ} :
    r ∈ t.update p f hf ↔ ∃ r₀ ∈ t, r = if p r₀ then f r₀ else r₀ := by
  show r ∈ t.rows.map _ ↔ _
  rw [List.mem_map]
  exact ⟨fun ⟨r₀, h, e⟩ => ⟨r₀, h, e.symm⟩, fun ⟨r₀, h, e⟩ => ⟨r₀, h, e.symm⟩⟩

/-- A property of all rows survives an update that keeps it on the rows hit. -/
theorem forall_update (hf : ∀ r, key (f r) = key r) {P : ρ → Prop} (h : ∀ r ∈ t, P r)
    (hP : ∀ r ∈ t, p r = true → P r → P (f r)) : ∀ r ∈ t.update p f hf, P r := by
  intro r hr
  obtain ⟨r₀, h₀, rfl⟩ := (mem_update hf).1 hr
  by_cases hp : p r₀
  · rw [if_pos hp]; exact hP _ h₀ hp (h _ h₀)
  · rw [if_neg hp]; exact h _ h₀

/-- The row a key had before an update: the one the update left under it. -/
theorem find?_update [DecidableEq κ] (hf : ∀ r, key (f r) = key r) (k : κ) :
    (t.update p f hf).find? k = (t.find? k).map fun r => if p r then f r else r := by
  cases h : t.find? k with
  | none =>
    rw [find?_eq_none_iff] at h
    rw [Option.map_none, find?_eq_none_iff]
    intro r hr
    obtain ⟨r₀, h₀, rfl⟩ := (mem_update hf).1 hr
    by_cases hp : p r₀ <;> simp [hp, hf, h r₀ h₀]
  | some r =>
    obtain ⟨hr, rfl⟩ := find?_eq_some_iff.1 h
    rw [Option.map_some, find?_eq_some_iff]
    refine ⟨(mem_update hf).2 ⟨r, hr, rfl⟩, ?_⟩
    by_cases hp : p r <;> simp [hp, hf]

theorem update_eq_self (hf : ∀ r, key (f r) = key r) (h : ∀ r ∈ t, p r = true → f r = r) : t.update p f hf = t := by
  refine ext ?_
  show t.rows.map _ = t.rows
  conv_rhs => rw [← List.map_id t.rows]
  refine List.map_congr_left fun r hr => ?_
  by_cases hp : p r
  · rw [if_pos hp]; exact h r hr hp
  · rw [if_neg hp]; rfl

theorem hits_eq_zero_iff : t.hits p = 0 ↔ ∀ r ∈ t, p r = false := by
  simp [hits, List.countP_eq_zero, mem_rows]

theorem update_of_hits_eq_zero (hf : ∀ r, key (f r) = key r) (h : t.hits p = 0) :
    t.update p f hf = t :=
  update_eq_self hf fun r hr hp => by simp [hits_eq_zero_iff.1 h r hr] at hp

theorem countP_map_le {q : ρ → Bool} {l : List ρ} (h : ∀ r ∈ l, p r = true → q (f r) = true → q r = true) :
    (l.map fun r => if p r then f r else r).countP q ≤ l.countP q := by
  rw [List.countP_map]
  refine List.countP_mono_left fun r hr hq => ?_
  simp only [Function.comp_apply] at hq
  split at hq
  · next hp => exact h r hr hp hq
  · exact hq

/-- An update that brings no row under `q` leaves no more of them. -/
theorem hits_update_le (hf : ∀ r, key (f r) = key r) {q : ρ → Bool}
    (h : ∀ r ∈ t, p r = true → q (f r) = true → q r = true) : (t.update p f hf).hits q ≤ t.hits q :=
  countP_map_le h

/-- One that also takes a row from under `q` leaves fewer. -/
theorem hits_update_lt (hf : ∀ r, key (f r) = key r) {q : ρ → Bool}
    (h : ∀ r ∈ t, p r = true → q (f r) = true → q r = true) {r : ρ}
    (hr : r ∈ t) (hp : p r = true) (hq : q r = true) (hq' : q (f r) = false) :
    (t.update p f hf).hits q < t.hits q := by
  obtain ⟨l, l', hrows⟩ := List.append_of_mem hr
  have hle : (l.map fun r => if p r then f r else r).countP q ≤ l.countP q :=
    countP_map_le fun r hr => h r (mem_rows.1 (by simp [hrows, hr]))
  have hle' : (l'.map fun r => if p r then f r else r).countP q ≤ l'.countP q :=
    countP_map_le fun r hr => h r (mem_rows.1 (by simp [hrows, hr]))
  show (t.rows.map _).countP q < t.rows.countP q
  rw [hrows, List.map_append, List.map_cons, if_pos hp, List.countP_append, List.countP_append,
    List.countP_cons_of_neg (by simp [hq']), List.countP_cons_of_pos hq]
  omega

/-- A clause that fixes the key hits at most one row. -/
theorem hits_le_one {k : κ} (hp : ∀ r, p r = true → key r = k) : t.hits p ≤ 1 := by
  classical
  have h : t.rows.countP p ≤ (t.rows.map key).count k := by
    rw [List.count_eq_countP, List.countP_map]
    exact List.countP_mono_left fun r _ h => by simpa using hp r h
  exact h.trans (List.nodup_iff_count_le_one.1 t.nodup k)

theorem hits_eq_one_iff {k : κ} (hp : ∀ r, p r = true → key r = k) :
    t.hits p = 1 ↔ ∃ r ∈ t, p r = true := by
  have h := hits_le_one (t := t) hp
  have h₀ : 0 < t.hits p ↔ ∃ r ∈ t, p r = true := by simp [hits, List.countP_pos_iff, mem_rows]
  rw [← h₀]; omega

end

/-! ## Inserts -/

/-- Append a row whose key is new. -/
def insertNew (t : Table key) (r : ρ) (h : ∀ r' ∈ t.rows, key r' ≠ key r) : Table key where
  rows := t.rows ++ [r]
  nodup := by
    rw [List.map_append, List.nodup_append]
    refine ⟨t.nodup, by simp, ?_⟩
    rintro a ha b hb rfl
    obtain ⟨r', hr', e⟩ := List.mem_map.1 ha
    exact h r' hr' (e.trans (by simpa using hb))

/-- `INSERT OR IGNORE`: `clash` holds of the rows that another uniqueness
    constraint sets against the new one. -/
def insertIgnore [DecidableEq κ] (t : Table key) (r : ρ)
    (clash : ρ → Bool := fun _ => false) : Table key :=
  if h : ∃ r' ∈ t.rows, key r' = key r ∨ clash r' = true then t
  else t.insertNew r fun r' hr' e => h ⟨r', hr', .inl e⟩

/-- `INSERT … ON CONFLICT(key) DO UPDATE SET …`: the row under the key of `r`
    becomes `merge` of it. -/
def upsert [DecidableEq κ] (t : Table key) (r : ρ) (merge : ρ → ρ)
    (hm : ∀ r', key (merge r') = key r') : Table key :=
  if h : ∃ r' ∈ t.rows, key r' = key r then t.update (fun r' => key r' = key r) merge hm
  else t.insertNew r fun r' hr' e => h ⟨r', hr', e⟩

theorem mem_insertNew {t : Table key} {r r' : ρ} {h : ∀ r' ∈ t.rows, key r' ≠ key r} :
    r' ∈ t.insertNew r h ↔ r' ∈ t ∨ r' = r := by
  show r' ∈ t.rows ++ [r] ↔ _
  simp [mem_rows]

section
variable [DecidableEq κ] {t : Table key} {r : ρ} {clash : ρ → Bool} {merge : ρ → ρ}
  {hm : ∀ r', key (merge r') = key r'}

theorem insertIgnore_cases (t : Table key) (r : ρ) (clash : ρ → Bool) :
    (t.insertIgnore r clash = t ∧ ∃ r' ∈ t, key r' = key r ∨ clash r' = true) ∨
      ((∀ r' ∈ t, key r' ≠ key r ∧ clash r' = false) ∧
        (t.insertIgnore r clash).rows = t.rows ++ [r]) := by
  unfold insertIgnore
  split
  · next h => exact .inl ⟨rfl, h⟩
  · next h =>
    refine .inr ⟨fun r' hr' => ⟨fun e => h ⟨r', hr', .inl e⟩, ?_⟩, rfl⟩
    cases hc : clash r' with
    | false => rfl
    | true => exact absurd ⟨r', hr', .inr hc⟩ h

/-- A property of all rows survives an insertion of a row that has it. -/
theorem forall_insertIgnore {P : ρ → Prop} (h : ∀ r' ∈ t, P r') (hr : P r) :
    ∀ r' ∈ t.insertIgnore r clash, P r' := by
  intro r' hr'
  obtain ⟨e, -⟩ | ⟨-, e⟩ := t.insertIgnore_cases r clash
  · exact h r' (e ▸ hr')
  · rw [← mem_rows, e, List.mem_append, List.mem_singleton] at hr'
    rcases hr' with hr' | rfl
    · exact h r' hr'
    · exact hr

theorem hits_insertIgnore {q : ρ → Bool} (h : q r = false) : (t.insertIgnore r clash).hits q = t.hits q := by
  obtain ⟨e, -⟩ | ⟨-, e⟩ := t.insertIgnore_cases r clash
  · rw [e]
  · rw [hits, e, List.countP_append, List.countP_singleton, h]
    rfl

theorem mem_insertIgnore_of_mem {r' : ρ} (h : r' ∈ t) : r' ∈ t.insertIgnore r clash := by
  obtain ⟨e, -⟩ | ⟨-, e⟩ := t.insertIgnore_cases r clash
  · rwa [e]
  · rw [← mem_rows, e]; exact List.mem_append_left _ h

/-- An insertion leaves what a key finds, except that the new row's key may
    find it. -/
theorem find?_insertIgnore (t : Table key) (r : ρ) (clash : ρ → Bool) (k : κ) :
    (t.insertIgnore r clash).find? k = t.find? k ∨
      (k = key r ∧ t.find? k = none ∧ (t.insertIgnore r clash).find? k = some r) := by
  obtain ⟨e, -⟩ | ⟨hnew, e⟩ := t.insertIgnore_cases r clash
  · exact .inl (by rw [e])
  · have hf : (t.insertIgnore r clash).find? k = (t.find? k).or ([r].find? fun r => key r = k) := by
      rw [find?, e, List.find?_append]; rfl
    by_cases hk : key r = k
    · have hn : t.find? k = none := find?_eq_none_iff.2 fun r' hr' e' => (hnew r' hr').1 (e'.trans hk.symm)
      exact .inr ⟨hk.symm, hn, by simp [hf, hn, hk]⟩
    · exact .inl (by simp [hf, hk])

theorem forall_upsert {P : ρ → Prop} (h : ∀ r' ∈ t, P r') (hr : P r)
    (hP : ∀ r' ∈ t, key r' = key r → P r' → P (merge r')) :
    ∀ r' ∈ t.upsert r merge hm, P r' := by
  unfold upsert
  split
  · exact forall_update hm h fun r' hr' e => hP r' hr' (by simpa using e)
  · intro r' hr'
    rcases mem_insertNew.1 hr' with hr' | rfl
    · exact h r' hr'
    · exact hr

end

section
variable [DecidableEq κ] {t : Table key} {r : ρ} {merge : ρ → ρ}

/-- What a key finds after an upsert: under the key of the row, the merge of
    what was there, or the row itself. -/
theorem find?_upsert (hm : ∀ r', key (merge r') = key r') (k : κ) :
    (t.upsert r merge hm).find? k =
      if k = key r then some (((t.find? k).map merge).getD r) else t.find? k := by
  unfold upsert
  split
  · next h =>
    rw [find?_update]
    by_cases hk : k = key r
    · obtain ⟨r', hr', hkey⟩ := h
      subst hk
      simp [find?_eq_some_iff.2 ⟨hr', hkey⟩, hkey]
    · cases hfind : t.find? k with
      | none => simp [hk]
      | some r' =>
        have hkey := (find?_eq_some_iff.1 hfind).2
        simp [hk, hkey]
  · next h =>
    have happend : (t.insertNew r fun r' hr' e => h ⟨r', hr', e⟩).find? k =
        (t.find? k).or ([r].find? fun r => key r = k) := by
      simp [find?, insertNew, List.find?_append]
    rw [happend]
    by_cases hk : k = key r
    · subst hk
      have hn : t.find? (key r) = none := find?_eq_none_iff.2 fun r' hr' e => h ⟨r', hr', e⟩
      simp [hn]
    · simp [hk, Ne.symm hk]

end

/-! ## Many rows at a time -/

section
variable [DecidableEq κ] {t u : Table key} {rs : List ρ}

/-- `INSERT` of some rows, none when a key is taken. -/
def insertAll (t : Table key) (rs : List ρ) : Option (Table key) :=
  if h : ((t.rows ++ rs).map key).Nodup then some ⟨t.rows ++ rs, h⟩ else none

theorem rows_insertAll (h : t.insertAll rs = some u) : u.rows = t.rows ++ rs := by
  unfold insertAll at h
  split at h
  · cases h
    rfl
  · cases h

theorem mem_insertAll (h : t.insertAll rs = some u) {r : ρ} : r ∈ u ↔ r ∈ t ∨ r ∈ rs := by
  rw [← mem_rows, rows_insertAll h, List.mem_append, mem_rows]

theorem insertAll_nil (t : Table key) : t.insertAll [] = some t := by
  simp [insertAll, t.nodup]

/-- New keys, none twice, can be inserted. -/
theorem exists_insertAll (hnodup : (rs.map key).Nodup) (hnew : ∀ r ∈ t, ∀ r' ∈ rs, key r ≠ key r') :
    ∃ u, t.insertAll rs = some u := by
  have h : ((t.rows ++ rs).map key).Nodup := by
    rw [List.map_append, List.nodup_append]
    refine ⟨t.nodup, hnodup, ?_⟩
    rintro k hk k' hk' rfl
    obtain ⟨r, hr, hkey⟩ := List.mem_map.1 hk
    obtain ⟨r', hr', hkey'⟩ := List.mem_map.1 hk'
    exact hnew r hr r' hr' (hkey.trans hkey'.symm)
  exact ⟨_, dif_pos h⟩

theorem new_of_insertAll (h : t.insertAll rs = some u) :
    (rs.map key).Nodup ∧ ∀ r ∈ t, ∀ r' ∈ rs, key r ≠ key r' := by
  have hnodup := u.nodup
  rw [rows_insertAll h, List.map_append, List.nodup_append] at hnodup
  exact ⟨hnodup.2.1, fun r hr r' hr' =>
    hnodup.2.2 _ (List.mem_map_of_mem hr) _ (List.mem_map_of_mem hr')⟩

theorem find?_insertAll (h : t.insertAll rs = some u) (k : κ) :
    u.find? k = (t.find? k).or (rs.find? fun r => key r = k) := by
  rw [find?, rows_insertAll h, List.find?_append, find?]

/-- `upsert` of some rows, one after the other. -/
def upsertAll (t : Table key) (rs : List ρ) (merge : ρ → ρ → ρ)
    (hm : ∀ r r', key (merge r r') = key r') : Table key :=
  rs.foldl (fun t r => t.upsert r (merge r) (hm r)) t

/-- What a key finds in a column that an upsert overwrites: the value of the
    last row under the key, or what was there. -/
theorem find?_upsertAll {γ : Type} {merge : ρ → ρ → ρ} (hm : ∀ r r', key (merge r r') = key r')
    {g : ρ → γ} (hg : ∀ r r', key r' = key r → g (merge r r') = g r) (k : κ) :
    ((t.upsertAll rs merge hm).find? k).map g =
      ((rs.reverse.find? fun r => key r = k).map g).or ((t.find? k).map g) := by
  induction rs generalizing t with
  | nil => rfl
  | cons r rs ih =>
    have h₀ : t.upsertAll (r :: rs) merge hm = (t.upsert r (merge r) (hm r)).upsertAll rs merge hm := rfl
    rw [h₀, ih, List.reverse_cons, List.find?_append, find?_upsert]
    cases (rs.reverse.find? fun r => key r = k) with
    | some r' => rfl
    | none =>
      by_cases hk : k = key r
      · subst hk
        cases hfind : t.find? (key r) with
        | none => simp
        | some r' => simp [hg r r' (find?_eq_some_iff.1 hfind).2]
      · simp [hk, Ne.symm hk]

end

/-! ## Columns -/

/-- A column of the row under a key, 0 when there is none. -/
def amountAt [DecidableEq κ] (t : Table key) (w : ρ → ℕ) (k : κ) : ℕ :=
  ((t.find? k).map w).getD 0

/-- An upsert that adds the column of the new row to the old one adds it under
    the key, and nowhere else. -/
theorem amountAt_upsert [DecidableEq κ] {t : Table key} {r : ρ} {merge : ρ → ρ}
    (hm : ∀ r', key (merge r') = key r') {w : ρ → ℕ} (hw : ∀ r', w (merge r') = w r' + w r) (k : κ) :
    (t.upsert r merge hm).amountAt w k = t.amountAt w k + if k = key r then w r else 0 := by
  unfold amountAt
  rw [find?_upsert]
  by_cases hk : k = key r
  · cases hfind : t.find? k with
    | none => simp [hk]
    | some r' => simp [hk, hw]
  · simp [hk]

theorem sum_map_filter {α : Type} (l : List α) (p : α → Bool) (w : α → ℕ) :
    ((l.filter p).map w).sum = (l.map fun a => if p a then w a else 0).sum := by
  induction l with
  | nil => rfl
  | cons a l ih => by_cases h : p a <;> simp [h, ih]

/-- What an update does to the total of a column: every row hit adds its step. -/
theorem sum_map_update {t : Table key} {p : ρ → Bool} {f : ρ → ρ} (hf : ∀ r, key (f r) = key r)
    {w : ρ → ℕ} {d : ℕ} (hw : ∀ r, p r = true → w (f r) = w r + d) :
    ((t.update p f hf).rows.map w).sum = (t.rows.map w).sum + t.hits p * d := by
  unfold update hits
  dsimp only
  induction t.rows with
  | nil => simp
  | cons r l ih =>
    simp only [List.map_cons, List.sum_cons, ih]
    by_cases h : p r
    · simp only [h, if_true, hw r h, List.countP_cons_of_pos h]
      ring
    · simp [h, add_assoc]

/-- What an upsert does to the total of a column over the rows that a clause on
    the key selects. -/
theorem sum_filter_upsert [DecidableEq κ] {t : Table key} {r : ρ} {merge : ρ → ρ}
    (hm : ∀ r', key (merge r') = key r') {w : ρ → ℕ} (hw : ∀ r', w (merge r') = w r' + w r)
    {p : ρ → Bool} (hp : ∀ r' r'', key r' = key r'' → p r' = p r'') :
    (((t.upsert r merge hm).rows.filter p).map w).sum =
      ((t.rows.filter p).map w).sum + if p r then w r else 0 := by
  simp only [sum_map_filter]
  unfold upsert
  split
  · next h =>
    have hhits : t.hits (fun r' => key r' = key r) = 1 :=
      (hits_eq_one_iff fun r' h => of_decide_eq_true h).2
        (h.imp fun r' h => ⟨h.1, decide_eq_true h.2⟩)
    rw [sum_map_update hm (d := if p r then w r else 0), hhits, one_mul]
    intro r' hr'
    have hkey : key r' = key r := of_decide_eq_true hr'
    rw [hp _ _ (hm r'), hp r' r hkey, hw]
    split <;> rfl
  · simp [insertNew]

/-- A clause on the key that the new row fails selects the same rows. -/
theorem filter_upsert [DecidableEq κ] {t : Table key} {r : ρ} {merge : ρ → ρ}
    (hm : ∀ r', key (merge r') = key r') {p : ρ → Bool}
    (hp : ∀ r' r'', key r' = key r'' → p r' = p r'') (hr : p r = false) :
    (t.upsert r merge hm).rows.filter p = t.rows.filter p := by
  unfold upsert
  split
  · unfold update
    dsimp only
    induction t.rows with
    | nil => rfl
    | cons r' l ih =>
      by_cases hkey : key r' = key r
      · simp only [hkey, decide_true, if_true, List.map_cons, List.filter_cons, hp _ _ (hm r'),
          hp r' r hkey, hr, Bool.false_eq_true, if_false]
        exact ih
      · simp only [hkey, decide_false, Bool.false_eq_true, if_false, List.map_cons, List.filter_cons]
        rw [ih]
  · simp [insertNew, hr]

/-! ## Deletions -/

/-- `DELETE … WHERE p` -/
def delete (t : Table key) (p : ρ → Bool) : Table key where
  rows := t.rows.filter fun r => !p r
  nodup := (List.filter_sublist.map _).nodup t.nodup

theorem mem_delete {t : Table key} {p : ρ → Bool} {r : ρ} :
    r ∈ t.delete p ↔ r ∈ t ∧ p r = false := by
  show r ∈ t.rows.filter _ ↔ _
  simp [mem_rows]

theorem find?_delete [DecidableEq κ] {t : Table key} {p : ρ → Bool} (k : κ) :
    (t.delete p).find? k = (t.find? k).filter fun r => !p r := by
  ext r
  rw [find?_eq_some_iff, mem_delete, Option.filter_eq_some_iff, find?_eq_some_iff]
  simp only [Bool.not_eq_true']
  exact ⟨fun h => ⟨⟨h.1.1, h.2⟩, h.1.2⟩, fun h => ⟨⟨h.1.1, h.2⟩, h.1.2⟩⟩

/-! ## Selecting one row -/

/-- `… ORDER BY … LIMIT 1`: the first of the smallest in the order `le`. -/
def firstBy {α : Type} (le : α → α → Bool) (l : List α) : Option α :=
  (l.insertionSort fun a b => le a b = true).head?

theorem mem_of_firstBy {α : Type} {le : α → α → Bool} {l : List α} {a : α}
    (h : firstBy le l = some a) : a ∈ l :=
  (List.mem_insertionSort _).1 (List.mem_of_mem_head? h)

theorem firstBy_eq_none_iff {α : Type} {le : α → α → Bool} {l : List α} :
    firstBy le l = none ↔ l = [] := by
  rw [firstBy, List.head?_eq_none_iff, ← List.length_eq_zero_iff, List.length_insertionSort,
    List.length_eq_zero_iff]

/-- The row selected is below every other, when the order is total and
    transitive. -/
theorem firstBy_le {α : Type} {le : α → α → Bool} (htotal : ∀ a b, le a b = true ∨ le b a = true)
    (htrans : ∀ a b c, le a b = true → le b c = true → le a c = true) {l : List α} {a : α}
    (h : firstBy le l = some a) : ∀ b ∈ l, le a b = true := by
  have : Std.Total fun a b => le a b = true := ⟨htotal⟩
  have : IsTrans α fun a b => le a b = true := ⟨htrans⟩
  have hs := List.pairwise_insertionSort (fun a b => le a b = true) l
  intro b hb
  rw [← List.mem_insertionSort fun a b => le a b = true] at hb
  unfold firstBy at h
  cases hl : l.insertionSort fun a b => le a b = true with
  | nil => simp [hl] at h
  | cons c cs =>
    rw [hl] at h hs hb
    obtain rfl : c = a := by simpa using h
    rcases List.mem_cons.1 hb with rfl | hb
    · exact (htotal b b).elim id id
    · exact List.rel_of_pairwise_cons hs hb

/-- The row that no other is below. -/
theorem firstBy_eq_some {α : Type} {le : α → α → Bool} (htotal : ∀ a b, le a b = true ∨ le b a = true)
    (htrans : ∀ a b c, le a b = true → le b c = true → le a c = true) {l : List α} {a : α} (ha : a ∈ l)
    (hleast : ∀ b ∈ l, b ≠ a → le b a = false) : firstBy le l = some a := by
  cases h : firstBy le l with
  | none =>
    rw [firstBy_eq_none_iff.1 h] at ha
    cases ha
  | some b =>
    by_contra hne
    have hlt := hleast b (mem_of_firstBy h) fun hba => hne (congrArg some hba)
    rw [firstBy_le htotal htrans h a ha] at hlt
    cases hlt

end Table
