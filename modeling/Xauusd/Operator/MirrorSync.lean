/-
  When the mirror says it is complete.

  A call moves the table towards its list: `Mirror.changed` shrinks by 32 until
  it is empty, then `Mirror.extra` does, and the call that empties both answers
  that the mirror is complete.  A call that remembers its list answers the same
  without looking at the table.

  * `Mirror.Exactly`: the table holds the items of a list, and no others;
  * `settled_iff_exactly`: what the third statement checks;
  * `batch_progress`: what one batch does to the two measures;
  * `complete_within`: a list sent again and again is completed in time;
  * `sync_honest_iff`: the answers of a run are honest exactly when no call
    remembers a list that the table no longer holds.
-/
import Xauusd.Lib.Machine
import Xauusd.Operator.Mirror

namespace Xauusd.Operator

variable {W : Web} {m : Mirror} {incoming : List RetryItem} {item : RetryItem}

/-! ## The table and a list -/

/-- The table holds the items of the list and no others. -/
def Mirror.Exactly (m : Mirror) (incoming : List RetryItem) : Prop :=
  ∀ item, item ∈ incoming ↔ ∃ r ∈ m.jobs, r.item = item

theorem Mirror.holds_iff : m.holds item = true ↔ ∃ r ∈ m.jobs, r.item = item := by
  rw [holds, decide_eq_true_eq, Option.map_eq_some_iff]
  constructor
  · rintro ⟨r, hr, rfl⟩
    exact ⟨r, (Table.find?_eq_some_iff.1 hr).1, rfl⟩
  · rintro ⟨r, hr, rfl⟩
    exact ⟨r, Table.find?_eq_some_iff.2 ⟨hr, rfl⟩, rfl⟩

theorem Mirror.changed_eq_nil_iff :
    m.changed incoming = [] ↔ ∀ item ∈ incoming, m.holds item = true := by
  simp [changed, List.filter_eq_nil_iff]

theorem Mirror.extra_eq_nil_iff :
    m.extra incoming = [] ↔ ∀ r ∈ m.jobs, r.jobId ∈ incoming.map (·.jobId) := by
  simp only [extra, List.filter_eq_nil_iff, decide_not, Bool.not_eq_true', decide_eq_false_iff_not,
    not_not, Table.mem_rows]

/-- The table is the list exactly when nothing is pending and nothing is extra. -/
theorem Mirror.exactly_iff :
    m.Exactly incoming ↔ m.changed incoming = [] ∧ m.extra incoming = [] := by
  rw [changed_eq_nil_iff, extra_eq_nil_iff]
  constructor
  · intro h
    refine ⟨fun item hitem => holds_iff.2 ((h item).1 hitem), fun r hr => ?_⟩
    exact List.mem_map.2 ⟨r.item, (h r.item).2 ⟨r, hr, rfl⟩, rfl⟩
  · rintro ⟨hheld, hextra⟩ item
    refine ⟨fun hitem => holds_iff.1 (hheld item hitem), ?_⟩
    rintro ⟨r, hr, rfl⟩
    obtain ⟨item, hitem, hid⟩ := List.mem_map.1 (hextra r hr)
    obtain ⟨r', hr', rfl⟩ := holds_iff.1 (hheld item hitem)
    rwa [m.jobs.eq_of_key_eq hr' hr hid] at hitem

/-- The third statement checks that the table is the list. -/
theorem Mirror.settled_iff_exactly (hids : (incoming.map (·.jobId)).Nodup) :
    m.settled incoming = true ↔ m.Exactly incoming := by
  have hsub (hheld : ∀ item ∈ incoming, m.holds item = true) :
      incoming.map (·.jobId) ⊆ m.jobs.rows.map MirrorJob.jobId := by
    intro id hid
    obtain ⟨item, hitem, rfl⟩ := List.mem_map.1 hid
    obtain ⟨r, hr, rfl⟩ := holds_iff.1 (hheld item hitem)
    exact List.mem_map.2 ⟨r, hr, rfl⟩
  rw [exactly_iff, changed_eq_nil_iff, extra_eq_nil_iff, settled, Bool.and_eq_true, List.all_eq_true,
    decide_eq_true_eq]
  refine and_congr_right fun hheld => ?_
  constructor
  · intro hlength r hr
    have hperm := (List.subperm_of_subset hids (hsub hheld)).perm_of_length_le
      (by simp [hlength])
    exact hperm.mem_iff.2 (List.mem_map.2 ⟨r, hr, rfl⟩)
  · intro hextra
    have hsup : m.jobs.rows.map MirrorJob.jobId ⊆ incoming.map (·.jobId) := by
      intro id hid
      obtain ⟨r, hr, rfl⟩ := List.mem_map.1 hid
      exact hextra r hr
    have hle := (List.subperm_of_subset hids (hsub hheld)).length_le
    have hge := (List.subperm_of_subset m.jobs.nodup hsup).length_le
    simp only [List.length_map] at hle hge
    omega

/-! ## One batch -/

section
variable (now : ℤ) (generation : String)

/-- The row that a written item leaves under its job. -/
theorem find?_foldl_upsert (items : List RetryItem) (hids : (items.map (·.jobId)).Nodup)
    (jobs : Table MirrorJob.jobId) (id : String) :
    (items.foldl (fun jobs item => jobs.upsert ⟨item, now, generation⟩
        (MirrorJob.replacedBy ⟨item, now, generation⟩) (MirrorJob.replacedBy_jobId _)) jobs).find? id =
      ((items.find? fun item => item.jobId = id).map fun item => ⟨item, now, generation⟩).or
        (jobs.find? id) := by
  induction items generalizing jobs with
  | nil => rfl
  | cons item items ih =>
    rw [List.map_cons, List.nodup_cons] at hids
    rw [List.foldl_cons, ih hids.2, Table.find?_upsert]
    by_cases hid : item.jobId = id
    · subst hid
      have hnone : (items.find? fun i => i.jobId = item.jobId) = none := by
        rw [List.find?_eq_none]
        intro i hi hkey
        exact hids.1 (List.mem_map.2 ⟨i, hi, of_decide_eq_true hkey⟩)
      have hkey : (MirrorJob.mk item now generation).jobId = item.jobId := rfl
      rw [hnone, hkey, if_pos rfl]
      cases hfind : jobs.find? item.jobId with
      | none => simp
      | some r =>
        have hrow : r.item.jobId = item.jobId := (Table.find?_eq_some_iff.1 hfind).2
        simp [MirrorJob.replacedBy, hrow]
    · have hkey : ¬ id = (MirrorJob.mk item now generation).jobId := fun h => hid h.symm
      rw [if_neg hkey]
      simp [hid]

/-- A list without its first elements. -/
theorem filter_not_mem_take {α : Type} [DecidableEq α] {l : List α} (h : l.Nodup) (n : ℕ) :
    (l.filter fun a => a ∉ l.take n) = l.drop n := by
  have hsplit : (l.take n ++ l.drop n).Nodup := by rwa [List.take_append_drop]
  have hdisj := List.disjoint_of_nodup_append hsplit
  conv_lhs => rw [← List.take_append_drop n l]
  rw [List.filter_append, List.take_append_drop]
  have htake : ((l.take n).filter fun a => a ∉ l.take n) = [] := by
    rw [List.filter_eq_nil_iff]
    intro a ha
    simpa using ha
  have hdrop : ((l.drop n).filter fun a => a ∉ l.take n) = l.drop n := by
    rw [List.filter_eq_self]
    intro a ha
    simpa using fun hmem => hdisj hmem ha
  rw [htake, hdrop, List.nil_append]

theorem nodup_of_ids (hids : (incoming.map (·.jobId)).Nodup) : incoming.Nodup :=
  List.Nodup.of_map _ hids

/-- An item is held after the writes when it was, or was written. -/
theorem Mirror.holds_upsertChanged (m : Mirror) (hids : (incoming.map (·.jobId)).Nodup)
    (hitem : item ∈ incoming) :
    (m.upsertChanged incoming now generation).holds item = true ↔
      m.holds item = true ∨ item ∈ (m.changed incoming).take 32 := by
  have hsub : ((m.changed incoming).take 32).Sublist incoming :=
    (List.take_sublist _ _).trans List.filter_sublist
  have hfind := find?_foldl_upsert now generation
    ((m.changed incoming).take 32) ((hsub.map _).nodup hids) m.jobs item.jobId
  have hrow : (m.upsertChanged incoming now generation).jobs.find? item.jobId = _ := hfind
  rw [holds, hrow, holds]
  by_cases hmem : item ∈ (m.changed incoming).take 32
  · have hsome : ((m.changed incoming).take 32).find? (fun i => i.jobId = item.jobId) = some item := by
      cases hf : ((m.changed incoming).take 32).find? (fun i => i.jobId = item.jobId) with
      | none => simpa using List.find?_eq_none.1 hf item hmem
      | some i =>
        have hi := hsub.subset (List.mem_of_find?_eq_some hf)
        have hkey : i.jobId = item.jobId := by simpa using List.find?_some hf
        rw [List.inj_on_of_nodup_map hids hi hitem hkey]
    simp [hsome, hmem]
  · have hnone : ((m.changed incoming).take 32).find? (fun i => i.jobId = item.jobId) = none := by
      rw [List.find?_eq_none]
      intro i hi hkey
      obtain rfl := List.inj_on_of_nodup_map hids (hsub.subset hi) hitem (of_decide_eq_true hkey)
      exact hmem hi
    simp [hnone, hmem]

theorem Mirror.changed_upsertChanged (m : Mirror) (hids : (incoming.map (·.jobId)).Nodup) :
    (m.upsertChanged incoming now generation).changed incoming = (m.changed incoming).drop 32 := by
  have hdrop := filter_not_mem_take (l := m.changed incoming) ((nodup_of_ids hids).filter _) 32
  have hboth : (m.changed incoming).filter (fun a => a ∉ (m.changed incoming).take 32) =
      incoming.filter fun a => decide (a ∉ (m.changed incoming).take 32) && !m.holds a :=
    List.filter_filter
  rw [← hdrop, hboth, changed]
  refine List.filter_congr fun item hitem => ?_
  have hheld := m.holds_upsertChanged now generation hids hitem
  rw [Bool.eq_iff_iff]
  simp only [Bool.not_eq_true', Bool.and_eq_true, decide_eq_true_eq, ← Bool.not_eq_true, hheld,
    not_or]
  exact and_comm

theorem Mirror.extra_upsertChanged (m : Mirror) (incoming : List RetryItem) :
    (m.upsertChanged incoming now generation).extra incoming = m.extra incoming := by
  have hfold (items : List RetryItem) (hitems : ∀ item ∈ items, item ∈ incoming)
      (jobs : Table MirrorJob.jobId) :
      ((items.foldl (fun jobs item => jobs.upsert ⟨item, now, generation⟩
        (MirrorJob.replacedBy ⟨item, now, generation⟩) (MirrorJob.replacedBy_jobId _)) jobs).rows.filter
          fun r => decide (r.jobId ∉ incoming.map (·.jobId))) =
        jobs.rows.filter fun r => decide (r.jobId ∉ incoming.map (·.jobId)) := by
    induction items generalizing jobs with
    | nil => rfl
    | cons item items ih =>
      rw [List.foldl_cons, ih fun i hi => hitems i (List.mem_cons_of_mem _ hi)]
      refine Table.filter_upsert _ (fun r r' hkey => by rw [hkey]) ?_
      have hmem : item.jobId ∈ incoming.map (·.jobId) :=
        List.mem_map.2 ⟨item, hitems item (List.mem_cons_self), rfl⟩
      simpa [MirrorJob.jobId] using hmem
  exact hfold _ (fun item hitem => List.mem_of_mem_filter (List.mem_of_mem_take hitem)) m.jobs

/-- The deletion leaves what the table holds of the list. -/
theorem Mirror.changed_deleteObsolete (m : Mirror) (incoming : List RetryItem) :
    (m.deleteObsolete incoming).changed incoming = m.changed incoming := by
  refine List.filter_congr fun item hitem => ?_
  have hkept : item.jobId ∉ m.obsolete incoming := by
    intro hmem
    unfold obsolete at hmem
    split at hmem
    · have hextra := (List.mem_insertionSort _).1 (List.mem_of_mem_take hmem)
      obtain ⟨r, hr, hid⟩ := List.mem_map.1 hextra
      have hout : r.jobId ∉ incoming.map (·.jobId) := by simpa using (List.mem_filter.1 hr).2
      exact hout (List.mem_map.2 ⟨item, hitem, hid.symm⟩)
    · simp at hmem
  rw [Bool.not_inj_iff, Bool.eq_iff_iff, holds_iff, holds_iff]
  constructor
  · rintro ⟨r, hr, rfl⟩
    exact ⟨r, (Table.mem_delete.1 hr).1, rfl⟩
  · rintro ⟨r, hr, rfl⟩
    exact ⟨r, Table.mem_delete.2 ⟨hr, decide_eq_false hkept⟩, rfl⟩

/-- When nothing is pending, the deletion takes 32 of the extra rows. -/
theorem Mirror.length_extra_deleteObsolete (m : Mirror) (incoming : List RetryItem) :
    ((m.deleteObsolete incoming).extra incoming).length =
      (m.extra incoming).length - if m.changed incoming = [] then 32 else 0 := by
  have hrows : (m.deleteObsolete incoming).extra incoming =
      (m.extra incoming).filter fun r => r.jobId ∉ m.obsolete incoming := by
    simp only [extra, deleteObsolete, Table.delete, List.filter_filter]
    refine List.filter_congr fun r _ => ?_
    simp only [decide_not]
    exact Bool.and_comm _ _
  have hids : ((m.extra incoming).map (·.jobId)).Nodup :=
    (List.filter_sublist.map _).nodup m.jobs.nodup
  have hlength : ((m.extra incoming).filter fun r => r.jobId ∉ m.obsolete incoming).length =
      (((m.extra incoming).map (·.jobId)).filter fun id => id ∉ m.obsolete incoming).length := by
    rw [List.filter_map, List.length_map]
    rfl
  rw [hrows, hlength]
  unfold obsolete OPERATOR_RETRY_SYNC_MUTATIONS_PER_INVOCATION
  split
  · have hperm := List.perm_insertionSort (· ≤ ·) ((m.extra incoming).map (·.jobId))
    rw [← (hperm.filter _).length_eq,
      filter_not_mem_take (hperm.nodup_iff.2 hids) 32, List.length_drop, hperm.length_eq,
      List.length_map]
  · simp

/-- **What one batch does**: the pending items shrink by 32, and when none is
    left, so do the extra rows; the answer is complete when both are gone. -/
theorem Mirror.batch_progress (m : Mirror) (W : Web) (hids : (incoming.map (·.jobId)).Nodup) :
    ((m.batch W incoming now generation).2.changed incoming).length =
        (m.changed incoming).length - 32 ∧
      ((m.batch W incoming now generation).2.extra incoming).length =
        (m.extra incoming).length - (if (m.changed incoming).length ≤ 32 then 32 else 0) ∧
      ((m.batch W incoming now generation).1.complete = true ↔
        (m.batch W incoming now generation).2.Exactly incoming) := by
  have hjobs : (m.batch W incoming now generation).2.jobs =
      ((m.upsertChanged incoming now generation).deleteObsolete incoming).jobs := by
    unfold batch
    dsimp only
    split <;> rfl
  have hchanged : (m.batch W incoming now generation).2.changed incoming =
      (m.changed incoming).drop 32 := by
    have hdeleted := (m.upsertChanged incoming now generation).changed_deleteObsolete incoming
    rw [← m.changed_upsertChanged now generation hids, ← hdeleted]
    simp only [changed, holds, hjobs]
  have hextra : (m.batch W incoming now generation).2.extra incoming =
      ((m.upsertChanged incoming now generation).deleteObsolete incoming).extra incoming := by
    rw [extra, hjobs, extra]
  refine ⟨by rw [hchanged, List.length_drop], ?_, ?_⟩
  · rw [hextra, length_extra_deleteObsolete, extra_upsertChanged,
      m.changed_upsertChanged now generation hids]
    simp only [List.drop_eq_nil_iff]
  · have hcomplete : (m.batch W incoming now generation).1.complete =
        ((m.upsertChanged incoming now generation).deleteObsolete incoming).settled incoming := rfl
    rw [hcomplete, settled_iff_exactly hids, Exactly, Exactly, hjobs]

end

/-! ## Calls -/

/-- A `SYNC_JOBS` call. -/
structure SyncCall where
  items : List RawRetryItem
  now : ℤ
  generation : String

/-- One call. -/
def syncStep (W : Web) (m : Mirror) (call : SyncCall) : Answer SyncReply × Mirror :=
  syncOperatorRetryJobs W call.items call.now call.generation m

/-- The call is answered that the mirror is complete. -/
def Mirror.Completes (W : Web) (m : Mirror) (call : SyncCall) : Prop :=
  ∃ reply, (syncStep W m call).1 = .ok reply ∧ reply.complete = true

/-- The calls, at most, that complete a list. -/
def Mirror.rounds (m : Mirror) (incoming : List RetryItem) : ℕ :=
  ((m.changed incoming).length + 31) / 32 + ((m.extra incoming).length + 31) / 32 + 1

theorem normalizeRetryItems_nodup {items : List RawRetryItem}
    (h : normalizeRetryItems W items = .ok incoming) : (incoming.map (·.jobId)).Nodup := by
  simp only [normalizeRetryItems, bind, pure, Except.pure, throw, throwThe,
    MonadExceptOf.throw] at h
  split at h
  · cases h
  · cases hmap : items.mapM (normalizeRetryItem W) with
    | error e => simp [hmap, Except.bind] at h
    | ok normalized =>
      simp only [hmap, Except.bind] at h
      split at h
      · cases h
      · next hnodup =>
        obtain rfl := Except.ok.inj h
        have hperm := List.perm_insertionSort (fun a b : RetryItem => a.jobId ≤ b.jobId) normalized
        exact (hperm.map _).nodup_iff.2 (not_not.1 hnodup)

theorem normalizeRetryItems_eq_ok {items : List RawRetryItem} {rows : List RetryItem}
    (hsize : items.length ≤ 500) (hmap : items.mapM (normalizeRetryItem W) = .ok rows)
    (hids : (rows.map (·.jobId)).Nodup) :
    normalizeRetryItems W items = .ok (rows.insertionSort fun a b => a.jobId ≤ b.jobId) := by
  have hnot : ¬ 500 < items.length := by omega
  simp [normalizeRetryItems, hnot, hmap, hids, bind, Except.bind, pure, Except.pure]

/-- A call that is not complete leaves fewer rounds to go. -/
theorem Mirror.rounds_lt {call : SyncCall} (h : normalizeRetryItems W call.items = .ok incoming)
    (hnot : ¬ m.Completes W call) :
    ((syncStep W m call).2).rounds incoming < m.rounds incoming := by
  have hids := normalizeRetryItems_nodup h
  by_cases hremembers : m.remembers W incoming = true
  · exact absurd (by simp [Completes, syncStep, syncOperatorRetryJobs, h, hremembers]) hnot
  · have hstep : syncStep W m call = (.ok (m.batch W incoming call.now call.generation).1,
        (m.batch W incoming call.now call.generation).2) := by
      simp [syncStep, syncOperatorRetryJobs, h, hremembers]
    obtain ⟨hchanged, hextra, hcomplete⟩ := m.batch_progress call.now call.generation W hids
    have hleft : ¬ (m.batch W incoming call.now call.generation).2.Exactly incoming := by
      intro hexactly
      exact hnot ⟨_, by rw [hstep], hcomplete.2 hexactly⟩
    rw [exactly_iff, ← List.length_eq_zero_iff, ← List.length_eq_zero_iff] at hleft
    rw [hstep]
    simp only [rounds]
    split at hextra <;> omega

/-- **A list sent again and again is completed** after at most its rounds. -/
theorem Mirror.complete_within {items : List RawRetryItem}
    (h : normalizeRetryItems W items = .ok incoming) (m : Mirror) (calls : List SyncCall)
    (hcalls : ∀ call ∈ calls, call.items = items) (hlength : m.rounds incoming ≤ calls.length) :
    ∃ done call rest, calls = done ++ call :: rest ∧ done.length < m.rounds incoming ∧
      (Machine.run (syncStep W) m done).Completes W call := by
  induction calls generalizing m with
  | nil => simp [rounds] at hlength
  | cons call calls ih =>
    by_cases hcomplete : m.Completes W call
    · exact ⟨[], call, calls, rfl, by simp [rounds], hcomplete⟩
    · have hitems : call.items = items := hcalls call List.mem_cons_self
      have hlt := rounds_lt (hitems ▸ h) hcomplete
      obtain ⟨done, call', rest, hsplit, hdone, hcompletes⟩ := ih (syncStep W m call).2
        (fun c hc => hcalls c (List.mem_cons_of_mem _ hc)) (by simp at hlength; omega)
      refine ⟨call :: done, call', rest, by simp [hsplit], ?_, hcompletes⟩
      simp only [List.length_cons]
      omega

/-! ## Honest answers -/

/-- What the claim of completeness is worth at a call: the table then holds the
    list, and a list sent again and again gets there. -/
structure Mirror.Honest (W : Web) (m : Mirror) (call : SyncCall) : Prop where
  complete : ∀ incoming, normalizeRetryItems W call.items = .ok incoming → m.Completes W call →
    (syncStep W m call).2.Exactly incoming
  within : ∀ incoming, normalizeRetryItems W call.items = .ok incoming →
    ∀ calls : List SyncCall, (∀ c ∈ calls, c.items = call.items) →
      m.rounds incoming ≤ calls.length →
      ∃ done call' rest, calls = done ++ call' :: rest ∧ done.length < m.rounds incoming ∧
        (Machine.run (syncStep W) m done).Completes W call'

/-- The list of the call, if it is remembered as the last one completed, is
    still what the table holds. -/
def Mirror.Recalls (W : Web) (m : Mirror) (call : SyncCall) : Prop :=
  ∀ incoming, normalizeRetryItems W call.items = .ok incoming → m.remembers W incoming = true →
    m.Exactly incoming

theorem Mirror.honest_iff_recalls (W : Web) (m : Mirror) (call : SyncCall) :
    m.Honest W call ↔ m.Recalls W call := by
  constructor
  · intro h incoming hnormal hremembers
    have hstep : (syncStep W m call).2 = m := by
      simp [syncStep, syncOperatorRetryJobs, hnormal, hremembers]
    have hcompletes : m.Completes W call := by
      simp [Completes, syncStep, syncOperatorRetryJobs, hnormal, hremembers]
    simpa [hstep] using h.complete incoming hnormal hcompletes
  · intro h
    refine ⟨fun incoming hnormal hcompletes => ?_, fun incoming hnormal calls hcalls hlength =>
      complete_within hnormal m calls hcalls hlength⟩
    by_cases hremembers : m.remembers W incoming = true
    · have hstep : (syncStep W m call).2 = m := by
        simp [syncStep, syncOperatorRetryJobs, hnormal, hremembers]
      rw [hstep]
      exact h incoming hnormal hremembers
    · have hstep : syncStep W m call = (.ok (m.batch W incoming call.now call.generation).1,
          (m.batch W incoming call.now call.generation).2) := by
        simp [syncStep, syncOperatorRetryJobs, hnormal, hremembers]
      obtain ⟨reply, hreply, hcomplete⟩ := hcompletes
      rw [hstep] at hreply ⊢
      obtain rfl := Except.ok.inj hreply
      exact (m.batch_progress call.now call.generation W (normalizeRetryItems_nodup hnormal)).2.2.1
        hcomplete

/-- **The answers of a run are honest** from any table exactly when no call
    remembers a list that the table no longer holds. -/
theorem sync_honest_iff (W : Web) (m : Mirror) (calls : List SyncCall) :
    Machine.Along (syncStep W) (fun m call => m.Honest W call) m calls ↔
      Machine.Along (syncStep W) (fun m call => m.Recalls W call) m calls :=
  ⟨Machine.Along.mono fun m call => (m.honest_iff_recalls W call).1,
    Machine.Along.mono fun m call => (m.honest_iff_recalls W call).2⟩

/-! ## A list completed, half replaced, and remembered -/

/-- The empty list, a list, and the empty list again. -/
def relapse (items : List RawRetryItem) : List SyncCall :=
  [⟨[], 0, "first"⟩, ⟨items, 1, "second"⟩, ⟨[], 2, "third"⟩]

/-- The second list needs more than one call, so the third answers for a table
    that the second has begun to fill. -/
theorem relapse_not_honest {items : List RawRetryItem}
    (hnormal : normalizeRetryItems W items = .ok incoming) (hlength : 32 < incoming.length) :
    ¬ Machine.Along (syncStep W) (fun m call => m.Honest W call) Mirror.empty (relapse items) := by
  rintro ⟨-, -, h, -⟩
  rw [Mirror.honest_iff_recalls] at h
  have hfirst : (syncStep W Mirror.empty ⟨[], 0, "first"⟩).2 =
      ⟨.empty, some ⟨W.payloadDigest [], 0, 0⟩⟩ := rfl
  rw [hfirst] at h
  generalize hm : (⟨.empty, some ⟨W.payloadDigest [], 0, 0⟩⟩ : Mirror) = m at h
  have hchanged : (m.changed incoming).length = incoming.length := by
    rw [← hm]
    exact congrArg List.length (List.filter_eq_self.2 fun item _ => rfl)
  have hforgets : m.remembers W incoming = false := by
    have hne : ¬ 0 = incoming.length := by omega
    simp [← hm, Mirror.remembers, hne]
  obtain ⟨hleft, -, hcomplete⟩ := m.batch_progress 1 "second" W (normalizeRetryItems_nodup hnormal)
  have hsecond : (syncStep W m ⟨items, 1, "second"⟩).2 = (m.batch W incoming 1 "second").2 := by
    simp [syncStep, syncOperatorRetryJobs, hnormal, hforgets]
  rw [hsecond] at h
  rw [hchanged] at hleft
  have hincomplete : (m.batch W incoming 1 "second").1.complete = false := by
    rw [← Bool.not_eq_true, hcomplete, Mirror.exactly_iff]
    rintro ⟨hnil, -⟩
    rw [hnil, List.length_nil] at hleft
    omega
  have hstate : (m.batch W incoming 1 "second").2.syncState = m.syncState := by
    have hnot : ((m.upsertChanged incoming 1 "second").deleteObsolete incoming).settled incoming =
        false := hincomplete
    simp only [Mirror.batch, hnot, Bool.false_eq_true, if_false]
    rfl
  have hremembers : (m.batch W incoming 1 "second").2.remembers W [] = true := by
    rw [Mirror.remembers, hstate, ← hm]
    simp
  have hexactly := h [] rfl hremembers
  -- were the table empty, the whole list would still be pending
  have hall : (m.batch W incoming 1 "second").2.changed incoming = incoming := by
    refine List.filter_eq_self.2 fun item _ => ?_
    rw [Bool.not_eq_true', ← Bool.not_eq_true, Mirror.holds_iff]
    rintro ⟨r, hr, rfl⟩
    exact absurd ((hexactly r.item).2 ⟨r, hr, rfl⟩) (by simp)
  rw [hall] at hleft
  omega

/-- A runtime to run the model on. -/
def sampleWeb : Web where
  dateParse text := if text = IsoTime.iso 0 ∨ text = IsoTime.isoMillis 0 then some 0 else none
  digest text := text
  payloadDigest items := "|".intercalate (items.map (·.jobId))

/-- The id of the `n`-th job. -/
def sampleId (n : ℕ) : String :=
  String.ofList (List.replicate 62 '0' ++ [Nat.digitChar (n / 16), Nat.digitChar (n % 16)])

/-- The `n`-th job of a retry list. -/
def sampleItem (n : ℕ) : RawRetryItem where
  jobId := some (sampleId n)
  taskType := some "ACTIVE_IMPACT"
  title := some "Job"
  state := some "BACKING_OFF"
  priority := some "NORMAL"
  availableAt := some (IsoTime.isoMillis 0)
  attemptCount := some 3
  lastError := none
  lastFailureAt := none
  leaseExpiresAt := none
  overrideMode := none
  overrideRequestedAt := none
  originalAvailableAt := some (IsoTime.isoMillis 0)

theorem sampleId_valid {n : ℕ} (h : n < 33) :
    Text.jsTrim (sampleId n) = sampleId n ∧ Text.lower (sampleId n) = sampleId n ∧
      Text.isSha256Hex (sampleId n) = true := by
  have hall : ∀ n < 33, (List.replicate 62 '0' ++ [Nat.digitChar (n / 16), Nat.digitChar (n % 16)]).all
      (fun c => !Text.jsSpace c && (c.toLower == c && (('0' ≤ c && c ≤ '9') || ('a' ≤ c && c ≤ 'f')))) = true := by
    decide
  have hchars : ∀ n < 33, ∀ c ∈ List.replicate 62 '0' ++ [Nat.digitChar (n / 16), Nat.digitChar (n % 16)],
      Text.jsSpace c = false ∧ c.toLower = c ∧
        (('0' ≤ c && c ≤ '9') || ('a' ≤ c && c ≤ 'f')) = true := by
    intro n hn c hc
    have hchar := List.all_eq_true.1 (hall n hn) c hc
    rwa [Bool.and_eq_true, Bool.and_eq_true, Bool.not_eq_true', beq_iff_eq] at hchar
  refine ⟨Text.trimBy_eq_self fun c hc => ?_, ?_, ?_⟩
  · rw [sampleId, String.toList_ofList] at hc
    exact (hchars n h c hc).1
  · rw [Text.lower, sampleId, String.toList_ofList]
    refine congrArg _ ?_
    conv_rhs => rw [← List.map_id (_ ++ _)]
    exact List.map_congr_left fun c hc => (hchars n h c hc).2.1
  · rw [Text.isSha256Hex, sampleId, String.toList_ofList, Bool.and_eq_true, List.all_eq_true]
    exact ⟨by simp, fun c hc => (hchars n h c hc).2.2⟩

theorem sampleId_inj {a b : ℕ} (ha : a < 33) (hb : b < 33) (h : sampleId a = sampleId b) : a = b := by
  have hlist := congrArg String.toList h
  simp only [sampleId, String.toList_ofList, List.append_cancel_left_eq] at hlist
  have hdigits : ∀ a < 33, ∀ b < 33, [Nat.digitChar (a / 16), Nat.digitChar (a % 16)] =
      [Nat.digitChar (b / 16), Nat.digitChar (b % 16)] → a = b := by decide
  exact hdigits a ha b hb hlist

/-- The `n`-th job as it is stored. -/
def sampleRow (n : ℕ) : RetryItem where
  jobId := sampleId n
  taskType := "ACTIVE_IMPACT"
  title := "Job"
  state := "BACKING_OFF"
  priority := "NORMAL"
  availableAt := IsoTime.isoMillis 0
  attemptCount := 3
  lastError := none
  lastFailureAt := none
  leaseExpiresAt := none
  overrideMode := none
  overrideRequestedAt := none
  originalAvailableAt := IsoTime.isoMillis 0

theorem normalize_sampleItem {n : ℕ} (h : n < 33) :
    normalizeRetryItem sampleWeb (sampleItem n) = .ok (sampleRow n) := by
  obtain ⟨htrim, hlower, hhex⟩ := sampleId_valid h
  have htime : isoTime sampleWeb (some (IsoTime.isoMillis 0)) "available_at" =
      .ok (IsoTime.isoMillis 0) := by decide
  have horiginal : isoTime sampleWeb (some (IsoTime.isoMillis 0)) "original_available_at" =
      .ok (IsoTime.isoMillis 0) := by decide
  have htask : boundedText (some "ACTIVE_IMPACT") "task_type" 100 = .ok "ACTIVE_IMPACT" := by
    decide
  have htitle : boundedText (some "Job") "title" 500 = .ok "Job" := by decide
  have hstate : boundedText (some "BACKING_OFF") "state" 32 = .ok "BACKING_OFF" := by decide
  have hpriority : boundedText (some "NORMAL") "priority" 32 = .ok "NORMAL" := by decide
  simp [normalizeRetryItem, sampleItem, htrim, hlower, hhex, htime, horiginal, htask, htitle,
    hstate, hpriority, nullableText, nullableTime, bind, Except.bind, pure, Except.pure, sampleRow]

/-- The payload of such jobs. -/
theorem normalize_sampleItems (ns : List ℕ) (hns : ∀ n ∈ ns, n < 33) (hnodup : ns.Nodup)
    (hsize : ns.length ≤ 500) :
    ∃ incoming, normalizeRetryItems sampleWeb (ns.map sampleItem) = .ok incoming ∧
      incoming.length = ns.length := by
  have hmap : (ns.map sampleItem).mapM (normalizeRetryItem sampleWeb) = .ok (ns.map sampleRow) := by
    have hcomp : (ns.map sampleItem).mapM (normalizeRetryItem sampleWeb) =
        ns.mapM fun n => normalizeRetryItem sampleWeb (sampleItem n) := by
      rw [List.mapM_map, Function.comp_def]
    rw [hcomp]
    exact Answer.mapM_eq_ok fun n hn => normalize_sampleItem (hns n hn)
  have hids : ((ns.map sampleRow).map (·.jobId)).Nodup := by
    have hrows : (ns.map sampleRow).map (·.jobId) = ns.map sampleId := by
      rw [List.map_map, Function.comp_def]
      rfl
    rw [hrows]
    exact List.Nodup.map_on (fun a ha b hb => sampleId_inj (hns a ha) (hns b hb)) hnodup
  refine ⟨_, normalizeRetryItems_eq_ok (by rwa [List.length_map]) hmap hids, ?_⟩
  rw [List.length_insertionSort, List.length_map]

/-- The last answer is that the mirror is complete, and the table holds 32 jobs
    that the list lacks. -/
theorem sampleItems_not_honest :
    ¬ Machine.Along (syncStep sampleWeb) (fun m call => m.Honest sampleWeb call) Mirror.empty
      (relapse ((List.range 33).map sampleItem)) := by
  obtain ⟨incoming, hnormal, hlength⟩ := normalize_sampleItems (List.range 33)
    (fun n hn => List.mem_range.1 hn) List.nodup_range (by simp)
  exact relapse_not_honest hnormal (by simp [hlength])

end Xauusd.Operator
