/-
  What the execution of a plan guarantees, in whatever order its calls end.

  * `screenAll_spec`, `rejected_candidates`: every call is rejected or runs;
  * `sum_resultBudget`, `sum_evidenceBudget`: the budgets of those that run make
    up no more than the budgets of the plan;
  * `Registry.Executed`, `executeBatch_executed`: every call has one result, its
    own, `Executed.ids` and `Executed.tokens`: **in the order of the calls, and
    within the budgets of the plan**.
-/
import Xauusd.Agent.Tools
import Xauusd.Lib.Raises

namespace Xauusd.Agent

open Raises (bind_eq_ok raiseIf_eq_ok mapError_eq_ok forall₂_of_mapM exists_of_mem)

variable {W : Type} {P : Python} {r : Registry P W} {b : BatchWorld W} {c : BatchCall}

/-! ## Lists -/

theorem sum_map_ite {α : Type} (p : α → Prop) [DecidablePred p] (f : α → ℕ) (l : List α) :
    (l.map fun x => if p x then f x else 0).sum = ((l.filter (p ·)).map f).sum := by
  induction l with
  | nil => rfl
  | cons x l ih =>
    by_cases hx : p x
    · simp [hx, ih]
    · simp [hx, ih]

/-! ## Calls that run -/

/-- A call of an authorized tool, with arguments that it accepts. -/
def Registry.Runnable (r : Registry P W) (actor : Actor) (call : ToolCall) : Prop :=
  ∃ d, r.byName call.name = some d ∧ d.capability ∈ actor.allowedCapabilities ∧
    validateJsonValue P call.arguments d.inputSchema = .ok ()

/-- The tool of a call that runs. -/
theorem screen_inr {actor : Actor} {timestamp : String} {call : ToolCall} {d : Definition W}
    (h : r.screen actor timestamp call = .ok (.inr d)) :
    r.byName call.name = some d ∧ d.capability ∈ actor.allowedCapabilities ∧
      validateJsonValue P call.arguments d.inputSchema = .ok () := by
  rw [Registry.screen] at h
  cases hd : r.byName call.name with
  | none =>
    rw [hd] at h
    cases h
  | some d' =>
    rw [hd] at h
    dsimp only at h
    split at h
    · cases h
    · next hauthorized =>
      split at h
      · next hvalid =>
        cases h
        exact ⟨rfl, not_not.1 hauthorized, hvalid⟩
      · cases h
      · cases h

/-- The result of a call that does not. -/
theorem screen_inl {actor : Actor} {timestamp : String} {call : ToolCall} {x : ToolResult}
    (h : r.screen actor timestamp call = .ok (.inl x)) :
    ¬ r.Runnable actor call ∧
      ∃ code, x = toolFailure P call (r.byName call.name) actor (.rejected code) timestamp timestamp := by
  rw [Registry.screen] at h
  cases hd : r.byName call.name with
  | none =>
    rw [hd] at h
    cases h
    refine ⟨?_, _, rfl⟩
    rintro ⟨d, hd', -⟩
    rw [hd] at hd'
    cases hd'
  | some d =>
    rw [hd] at h
    dsimp only at h
    split at h
    · next hdenied =>
      cases h
      refine ⟨?_, _, rfl⟩
      rintro ⟨d', hd', hauthorized, -⟩
      rw [hd] at hd'
      cases hd'
      exact hdenied hauthorized
    · split at h
      · cases h
      · next hinvalid =>
        cases h
        refine ⟨?_, _, rfl⟩
        rintro ⟨d', hd', -, hvalid⟩
        rw [hd] at hd'
        cases hd'
        rw [hinvalid] at hvalid
        cases hvalid
      · cases h

abbrev Screened (W : Type) := List (ℕ × ToolCall × (ToolResult ⊕ Definition W))

theorem screenAll_spec {actor : Actor} {timestamp : String} {calls : List ToolCall} {screened : Screened W}
    (h : r.screenAll actor timestamp calls = .ok screened) :
    screened.map (·.1) = List.range calls.length ∧
      ∀ x ∈ screened, calls[x.1]? = some x.2.1 ∧ r.screen actor timestamp x.2.1 = .ok x.2.2 := by
  have heach : List.Forall₂ (fun (a : ToolCall × ℕ) (x : ℕ × ToolCall × (ToolResult ⊕ Definition W)) =>
      x.1 = a.2 ∧ x.2.1 = a.1 ∧ r.screen actor timestamp a.1 = .ok x.2.2) calls.zipIdx screened := by
    refine (forall₂_of_mapM h).imp fun a x hx => ?_
    obtain ⟨y, hscreen, hx⟩ := bind_eq_ok.1 hx
    cases hx
    exact ⟨rfl, rfl, hscreen⟩
  constructor
  · have hkeys : screened.map (·.1) = calls.zipIdx.map (·.2) := by
      generalize calls.zipIdx = indexed at heach
      clear h
      induction heach with
      | nil => rfl
      | cons hx _ ih => rw [List.map_cons, List.map_cons, ih, hx.1]
    rw [hkeys, List.zipIdx_map_snd, List.range_eq_range']
  · intro x hx
    obtain ⟨a, ha, hindex, hcall, hscreen⟩ := exists_of_mem heach hx
    refine ⟨?_, hcall ▸ hscreen⟩
    rw [hindex, hcall]
    exact List.mem_zipIdx_iff_getElem?.1 ha

/-- Every call is rejected or runs. -/
theorem rejected_candidates (screened : Screened W) :
    ((rejectedOf screened).map (·.1) ++ (candidatesOf screened).map (·.1)).Perm (screened.map (·.1)) := by
  induction screened with
  | nil => exact .refl _
  | cons x screened ih =>
    obtain ⟨i, call, result | d⟩ := x
    · exact ih.cons i
    · exact List.perm_middle.trans (ih.cons i)

theorem mem_rejectedOf {screened : Screened W} {x : ℕ × ToolResult} (h : x ∈ rejectedOf screened) :
    ∃ call, (x.1, call, .inl x.2) ∈ screened := by
  obtain ⟨y, hy, hx⟩ := List.mem_filterMap.1 h
  obtain ⟨i, call, result | d⟩ := y
  · cases hx
    exact ⟨call, hy⟩
  · cases hx

theorem mem_candidatesOf {screened : Screened W} {x : ℕ × ToolCall × Definition W} :
    x ∈ candidatesOf screened ↔ (x.1, x.2.1, .inr x.2.2) ∈ screened := by
  constructor
  · intro h
    obtain ⟨y, hy, hx⟩ := List.mem_filterMap.1 h
    obtain ⟨i, call, result | d⟩ := y
    · cases hx
    · cases hx
      exact hy
  · intro h
    exact List.mem_filterMap.2 ⟨_, h, rfl⟩

/-! ## Budgets -/

section
variable {tokens evidence : ℕ} {news : List ℕ} {candidates : List (ℕ × ToolCall × Definition W)}

theorem index_prepare : (prepare tokens evidence news candidates).map (·.index) = candidates.map (·.1) := by
  rw [prepare, List.map_map]
  exact (List.map_map (l := candidates.zipIdx) (f := Prod.fst) (g := Prod.fst)).symm.trans
    (by rw [List.zipIdx_map_fst])

theorem mem_prepare {p : Prepared W} (h : p ∈ prepare tokens evidence news candidates) :
    (p.index, p.call, p.definition) ∈ candidates ∧ p.resultBudget ≤ p.definition.maxResultTokens := by
  obtain ⟨x, hx, rfl⟩ := List.mem_map.1 h
  exact ⟨List.fst_mem_of_mem_zipIdx hx, Nat.min_le_left _ _⟩

/-- The calls that run have no more result tokens than the plan. -/
theorem sum_resultBudget : ((prepare tokens evidence news candidates).map (·.resultBudget)).sum ≤ tokens := by
  rw [prepare, List.map_map]
  calc (candidates.zipIdx.map _).sum
      ≤ (candidates.zipIdx.map fun x => Shares.share tokens candidates.length x.2).sum :=
        List.sum_le_sum fun x _ => Nat.min_le_right _ _
    _ = ((candidates.zipIdx.map (·.2)).map (Shares.share tokens candidates.length)).sum := by
        rw [List.map_map]
        rfl
    _ ≤ tokens := by
        rw [List.zipIdx_map_snd]
        refine Shares.sum_share_le List.nodup_range' fun i hi => ?_
        have hi := List.mem_range'_1.1 hi
        omega

/-- The calls that run have no more evidence than the plan. -/
theorem sum_evidenceBudget (hnodup : (candidates.map (·.1)).Nodup) :
    ((prepare tokens evidence news candidates).map (·.evidenceBudget)).sum ≤ evidence := by
  have hindexes : (prepare tokens evidence news candidates).map (·.evidenceBudget) =
      (candidates.map (·.1)).map fun i => if i ∈ news then Shares.share evidence news.length (news.idxOf i) else 0 := by
    rw [← @index_prepare W tokens evidence news candidates, prepare, List.map_map, List.map_map, List.map_map]
    rfl
  rw [hindexes, sum_map_ite (· ∈ news)]
  calc (((candidates.map (·.1)).filter (· ∈ news)).map fun i => Shares.share evidence news.length (news.idxOf i)).sum
      = ((((candidates.map (·.1)).filter (· ∈ news)).map news.idxOf).map (Shares.share evidence news.length)).sum := by
        rw [List.map_map]
        rfl
    _ ≤ evidence := by
        refine Shares.sum_share_le ?_ ?_
        · refine List.Nodup.map_on ?_ (hnodup.filter _)
          intro i hi j hj hij
          exact List.idxOf_inj (of_decide_eq_true (List.mem_filter.1 hi).2) |>.1 hij
        · intro i hi
          obtain ⟨j, hj, rfl⟩ := List.mem_map.1 hi
          exact List.idxOf_lt_length_iff.2 (of_decide_eq_true (List.mem_filter.1 hj).2)

end

/-! ## Results -/

/-- What the result of a call that runs is: what its tool returned, or that it
    failed. -/
structure Prepared.Result (P : Python) (actor : Actor) (cutoff : String) (b : BatchWorld W) (p : Prepared W)
    (x : ToolResult) : Prop where
  callId : x.callId = p.call.callId
  name : x.name = p.call.name
  outcome : (∃ output, x.outcome = .succeeded output ∧
      p.definition.executor (b.world p.index) p.call.arguments (p.context actor cutoff b) = .ok output ∧
      validateJsonValue P output p.definition.outputSchema = .ok () ∧
      resultTokenEstimate P output = .ok x.resultTokens ∧ x.resultTokens ≤ p.resultBudget ∧
      evidenceIdsOf output = .ok x.evidenceIds) ∨
    ((x.outcome.status = .failed ∨ x.outcome.status = .timedOut) ∧ x.resultTokens = 0 ∧ x.evidenceIds = [])

theorem toolResult_ok {call : ToolCall} {d : Definition W} {actor : Actor} {output : PyJson} {startedAt completedAt : String}
    {x : ToolResult} (h : toolResult P call d actor output startedAt completedAt = .ok x) :
    x.callId = call.callId ∧ x.name = call.name ∧ x.outcome = .succeeded output ∧
      resultTokenEstimate P output = .ok x.resultTokens ∧ evidenceIdsOf output = .ok x.evidenceIds := by
  rw [toolResult] at h
  obtain ⟨tokens, htokens, h⟩ := bind_eq_ok.1 h
  obtain ⟨ids, hids, h⟩ := bind_eq_ok.1 h
  obtain ⟨provenance, hprovenance, h⟩ := bind_eq_ok.1 h
  obtain ⟨bytes, hbytes, h⟩ := bind_eq_ok.1 h
  cases h
  exact ⟨rfl, rfl, rfl, htokens, hids⟩

theorem executeOne_result {actor : Actor} {cutoff : String} (p : Prepared W) :
    p.Result P actor cutoff b (executeOne P actor cutoff b p) := by
  rw [executeOne]
  cases hattempt : p.attempt P actor cutoff b with
  | error e =>
    refine ⟨rfl, rfl, .inr ⟨?_, rfl, rfl⟩⟩
    dsimp only [toolFailure]
    split
    · exact .inr rfl
    · exact .inl rfl
  | ok x =>
    rw [Prepared.attempt] at hattempt
    obtain ⟨output, houtput, hattempt⟩ := bind_eq_ok.1 hattempt
    obtain ⟨u, hvalid, hattempt⟩ := bind_eq_ok.1 hattempt
    obtain ⟨tokens, htokens, hattempt⟩ := bind_eq_ok.1 hattempt
    obtain ⟨u, hbudget, hattempt⟩ := bind_eq_ok.1 hattempt
    obtain ⟨hid, hname, houtcome, hestimate, hevidence⟩ := toolResult_ok hattempt
    rw [htokens] at hestimate
    cases hestimate
    exact ⟨hid, hname, .inl ⟨output, houtcome, houtput, mapError_eq_ok.1 hvalid, htokens,
      Nat.not_lt.1 (raiseIf_eq_ok.1 hbudget), hevidence⟩⟩

theorem expiredResult_result {actor : Actor} {cutoff : String} (p : Prepared W) :
    p.Result P actor cutoff b (expiredResult P actor b p) :=
  ⟨rfl, rfl, .inr ⟨.inr rfl, rfl, rfl⟩⟩

theorem left_result {actor : Actor} {cutoff : String} {p : Prepared W} {x : ℕ × ToolResult}
    (h : Await.Left b.waiter (·.index) b.deadline (executeOne P actor cutoff b) (expiredResult P actor b) p x) :
    x.1 = p.index ∧ p.Result P actor cutoff b x.2 := by
  rcases h with rfl | ⟨rfl, -⟩
  · exact ⟨rfl, executeOne_result p⟩
  · exact ⟨rfl, expiredResult_result p⟩

/-! ## Plans -/

/-- What the execution of a plan did. -/
structure Registry.Executed (r : Registry P W) (b : BatchWorld W) (c : BatchCall) (cutoff : String)
    (prepared : List (Prepared W)) (results : List ToolResult) : Prop where
  runs : ∀ p ∈ prepared, c.calls[p.index]? = some p.call ∧ r.byName p.call.name = some p.definition ∧
    p.definition.capability ∈ c.actor.allowedCapabilities ∧
    validateJsonValue P p.call.arguments p.definition.inputSchema = .ok ()
  once : (prepared.map (·.index)).Nodup
  limits : ∀ p ∈ prepared, p.resultBudget ≤ p.definition.maxResultTokens
  resultBudgets : (prepared.map (·.resultBudget)).sum ≤ c.maxTotalResultTokens
  evidenceBudgets : (prepared.map (·.evidenceBudget)).sum ≤ c.maxRetrievedEvidence
  /-- the result of each call: its own, or that it was rejected -/
  ends : List.Forall₂ (fun i x => (∃ p ∈ prepared, p.index = i ∧ p.Result P c.actor cutoff b x) ∨
    ∃ call, c.calls[i]? = some call ∧ ¬ r.Runnable c.actor call ∧
      ∃ code, x = toolFailure P call (r.byName call.name) c.actor (.rejected code) b.timestamp b.timestamp)
    (List.range c.calls.length) results
  /-- each call that runs has one result -/
  order : ∃ rejected ended ordered, results.Perm (rejected ++ ended) ∧ ordered.Perm prepared ∧
    List.Forall₂ (fun p x => p.Result P c.actor cutoff b x) ordered ended ∧
    ∀ x ∈ rejected, x.resultTokens = 0 ∧ x.evidenceIds = []

theorem executeBatch_executed {results : List ToolResult} (h : r.executeBatch b c = .ok results) :
    ∃ cutoff prepared, c.validate P = .ok cutoff ∧ r.Executed b c cutoff prepared results := by
  rw [Registry.executeBatch] at h
  obtain ⟨cutoff, hcutoff, h⟩ := bind_eq_ok.1 h
  obtain ⟨screened, hscreened, h⟩ := bind_eq_ok.1 h
  obtain ⟨hkeys, hspec⟩ := screenAll_spec hscreened
  have hparts := rejected_candidates screened
  rw [hkeys] at hparts
  have hcandidates : ((candidatesOf screened).map (·.1)).Nodup :=
    (List.nodup_append.1 (hparts.nodup_iff.2 List.nodup_range)).2.1
  have hindex : (r.prepared c screened).map (·.index) = (candidatesOf screened).map (·.1) := index_prepare
  obtain ⟨ordered, hperm, hordered⟩ := Await.collect_order b.waiter (·.index) b.deadline (executeOne P c.actor cutoff b)
    (expiredResult P c.actor b) (Nat.le_refl (r.prepared c screened).length)
  cases h
  generalize Await.collect b.waiter (·.index) b.deadline (executeOne P c.actor cutoff b) (expiredResult P c.actor b)
    (r.prepared c screened).length (r.prepared c screened) = collected at hordered ⊢
  have hcollected : collected.map (·.1) = ordered.map (·.index) := by
    clear hperm
    induction hordered with
    | nil => rfl
    | cons hx _ ih => rw [List.map_cons, List.map_cons, ih, (left_result hx).1]
  have hall : ((rejectedOf screened ++ collected).map (·.1)).Perm (List.range c.calls.length) := by
    rw [List.map_append, hcollected]
    exact (((hperm.map _).trans (.of_eq hindex)).append_left _).trans hparts
  refine ⟨cutoff, r.prepared c screened, hcutoff, ?_, hindex ▸ hcandidates, ?_, sum_resultBudget,
    sum_evidenceBudget hcandidates, ?_, ?_⟩
  · intro p hp
    have hmem := mem_candidatesOf.1 (mem_prepare hp).1
    obtain ⟨hcall, hscreen⟩ := hspec _ hmem
    exact ⟨hcall, screen_inr hscreen⟩
  · intro p hp
    exact (mem_prepare hp).2
  · refine (Await.forall₂_inOrder hall List.nodup_range).imp fun i x hx => ?_
    rcases List.mem_append.1 hx with hx | hx
    · obtain ⟨call, hmem⟩ := mem_rejectedOf hx
      obtain ⟨hcall, hscreen⟩ := hspec _ hmem
      obtain ⟨hnot, hresult⟩ := screen_inl hscreen
      exact .inr ⟨call, hcall, hnot, hresult⟩
    · obtain ⟨p, hp, hleft⟩ := exists_of_mem hordered hx
      obtain ⟨hi, hresult⟩ := left_result hleft
      exact .inl ⟨p, hperm.mem_iff.1 hp, hi.symm, hresult⟩
  · refine ⟨(rejectedOf screened).map (·.2), collected.map (·.2), ordered, ?_, hperm, ?_, ?_⟩
    · rw [← List.map_append]
      exact Await.inOrder_perm hall List.nodup_range
    · exact List.forall₂_map_right_iff.2 (hordered.imp fun p x hx => (left_result hx).2)
    · intro x hx
      obtain ⟨y, hy, rfl⟩ := List.mem_map.1 hx
      obtain ⟨call, hmem⟩ := mem_rejectedOf hy
      obtain ⟨-, code, hresult⟩ := screen_inl (hspec _ hmem).2
      rw [hresult]
      exact ⟨rfl, rfl⟩

/-- What results add up to, that is bounded for each call that runs. -/
theorem Registry.Executed.sum_le {cutoff : String} {prepared : List (Prepared W)} {results : List ToolResult}
    (h : r.Executed b c cutoff prepared results) {f : ToolResult → ℕ} {g : Prepared W → ℕ}
    (hresult : ∀ p ∈ prepared, ∀ x, p.Result P c.actor cutoff b x → f x ≤ g p)
    (hnone : ∀ x : ToolResult, x.resultTokens = 0 → x.evidenceIds = [] → f x = 0) :
    (results.map f).sum ≤ (prepared.map g).sum := by
  obtain ⟨rejected, ended, ordered, hresults, hordered, hends, hrejected⟩ := h.order
  have hzero : (rejected.map f).sum = 0 := by
    refine List.sum_eq_zero fun n hn => ?_
    obtain ⟨x, hx, rfl⟩ := List.mem_map.1 hn
    exact hnone x (hrejected x hx).1 (hrejected x hx).2
  have hended : (ended.map f).sum ≤ (ordered.map g).sum := by
    have hmem : ∀ p ∈ ordered, p ∈ prepared := fun p hp => hordered.mem_iff.1 hp
    clear hresults hordered
    induction hends with
    | nil => exact Nat.le_refl _
    | cons hpx _ ih =>
      rw [List.map_cons, List.map_cons, List.sum_cons, List.sum_cons]
      exact Nat.add_le_add (hresult _ (hmem _ List.mem_cons_self) _ hpx)
        (ih fun p hp => hmem p (List.mem_cons_of_mem _ hp))
  calc (results.map f).sum = ((rejected ++ ended).map f).sum := (hresults.map f).sum_eq
    _ = (ended.map f).sum := by rw [List.map_append, List.sum_append, hzero, Nat.zero_add]
    _ ≤ (ordered.map g).sum := hended
    _ = (prepared.map g).sum := (hordered.map g).sum_eq

/-- The calls that run are those that may. -/
theorem Registry.Executed.runnable_iff {cutoff : String} {prepared : List (Prepared W)} {results : List ToolResult}
    (h : r.Executed b c cutoff prepared results) {i : ℕ} {call : ToolCall} (hcall : c.calls[i]? = some call) :
    r.Runnable c.actor call ↔ ∃ p ∈ prepared, p.index = i := by
  constructor
  · intro hrunnable
    obtain ⟨hi, -⟩ := List.getElem?_eq_some_iff.1 hcall
    obtain ⟨hlength, hends⟩ := List.forall₂_iff_get.1 h.ends
    have hend := hends i (by simpa using hi) (by rw [← hlength]; simpa using hi)
    rw [show (List.range c.calls.length).get ⟨i, by simpa using hi⟩ = i by simp] at hend
    rcases hend with ⟨p, hp, hindex, -⟩ | ⟨call', hcall', hnot, -⟩
    · exact ⟨p, hp, hindex⟩
    · rw [hcall] at hcall'
      cases hcall'
      exact absurd hrunnable hnot
  · rintro ⟨p, hp, rfl⟩
    obtain ⟨hpcall, hruns⟩ := h.runs p hp
    rw [hcall] at hpcall
    cases hpcall
    exact ⟨p.definition, hruns⟩

/-- Whose result names evidence, and what its tool returned. -/
theorem Registry.Executed.returned {cutoff : String} {prepared : List (Prepared W)} {results : List ToolResult}
    (h : r.Executed b c cutoff prepared results) {x : ToolResult} (hx : x ∈ results) {id : PyStr}
    (hid : id ∈ x.evidenceIds) : ∃ p ∈ prepared, ∃ output,
      p.definition.executor (b.world p.index) p.call.arguments (p.context c.actor cutoff b) = .ok output ∧
        evidenceIdsOf output = .ok x.evidenceIds := by
  obtain ⟨i, -, hi⟩ := exists_of_mem h.ends hx
  rcases hi with ⟨p, hp, -, hresult⟩ | ⟨call, -, -, code, rfl⟩
  · rcases hresult.outcome with ⟨output, -, houtput, -, -, -, hids⟩ | ⟨-, -, hnone⟩
    · exact ⟨p, hp, output, houtput, hids⟩
    · rw [hnone] at hid
      cases hid
  · cases hid

/-- The results keep to the tokens of the plan. -/
theorem Registry.Executed.tokens {cutoff : String} {prepared : List (Prepared W)} {results : List ToolResult}
    (h : r.Executed b c cutoff prepared results) : (results.map (·.resultTokens)).sum ≤ c.maxTotalResultTokens := by
  refine (h.sum_le (g := (·.resultBudget)) ?_ fun x hx _ => hx).trans h.resultBudgets
  intro p hp x hx
  rcases hx.outcome with ⟨output, -, -, -, -, htokens, -⟩ | ⟨-, htokens, -⟩
  · exact htokens
  · exact htokens ▸ Nat.zero_le _

/-- The results are those of the calls, in their order. -/
theorem Registry.Executed.ids {cutoff : String} {prepared : List (Prepared W)} {results : List ToolResult}
    (h : r.Executed b c cutoff prepared results) :
    List.Forall₂ (fun call x => x.callId = call.callId ∧ x.name = call.name) c.calls results := by
  have hindexed : List.Forall₂ (fun i x => ∃ call, c.calls[i]? = some call ∧ x.callId = call.callId ∧ x.name = call.name)
      (List.range c.calls.length) results := by
    refine h.ends.imp fun i x hx => ?_
    rcases hx with ⟨p, hp, rfl, hresult⟩ | ⟨call, hcall, -, code, rfl⟩
    · exact ⟨p.call, (h.runs p hp).1, hresult.callId, hresult.name⟩
    · exact ⟨call, hcall, rfl, rfl⟩
  refine List.forall₂_iff_get.2 ⟨by simpa using hindexed.length_eq, fun i hi hi' => ?_⟩
  obtain ⟨call, hcall, hx⟩ := (List.forall₂_iff_get.1 hindexed).2 i (by simpa using hi) hi'
  have hrange : (List.range c.calls.length).get ⟨i, by simpa using hi⟩ = i := by simp
  rw [hrange, List.getElem?_eq_getElem hi] at hcall
  rw [← Option.some.inj hcall] at hx
  exact hx

/-- **What a plan returns**, in whatever order its calls end: a call runs if and
    only if its tool is authorized and accepts its arguments; every call has its
    own result, in the order of the calls; and all of them keep to the budgets. -/
theorem execute_batch_sound {results : List ToolResult} (h : r.executeBatch b c = .ok results) :
    ∃ cutoff prepared, c.validate P = .ok cutoff ∧ r.Executed b c cutoff prepared results ∧
      (∀ i call, c.calls[i]? = some call → (r.Runnable c.actor call ↔ ∃ p ∈ prepared, p.index = i)) ∧
      List.Forall₂ (fun call x => x.callId = call.callId ∧ x.name = call.name) c.calls results ∧
      (results.map (·.resultTokens)).sum ≤ c.maxTotalResultTokens := by
  obtain ⟨cutoff, prepared, hcutoff, hexecuted⟩ := executeBatch_executed h
  exact ⟨cutoff, prepared, hcutoff, hexecuted, fun _ _ hcall => hexecuted.runnable_iff hcall, hexecuted.ids,
    hexecuted.tokens⟩

/-! ## A plan of two calls -/

def sampleAnswer : PyStr := PyStr.of "\x7b\"claims\":[\x7b\"text\":\"Up\",\"evidence_ids\":[\"e1\"]\x7d]\x7d"

/-- The standard library, of the texts that are read below. -/
def sampleLibrary : Python where
  floatText _ := []
  repr _ := []
  fullmatch _ _ := false
  compiles _ := true
  nfc s := s
  loads s :=
    if s = sampleAnswer then .ok (pyDict [("claims", .list [
      pyDict [("text", pyString "Up"), ("evidence_ids", .list [pyString "e1"])]])])
    else .error "JSONDecodeError"
  fromIsoformat s := if s = PyStr.of "2025-01-02T03:04:05.000+00:00" then some (some 63871383845000000) else none
  isDate _ := false
  urlsplit _ := none

def sampleTool : Definition Unit where
  name := "look_v1"
  version := "v1"
  description := "Look."
  capability := .newsRetrieval
  inputSchema := .object {} [] none none none
  outputSchema := .object {} [("provenance",
    .object {} [("canonical_evidence_ids", .array {} (.string {} none none none) none none none)] none none none)]
    none none none
  timeoutSeconds := 10
  maxResultTokens := 200
  provenanceFields := []
  executor _ _ _ := .ok (pyDict [("provenance", pyDict [("canonical_evidence_ids", .list [pyString "e1"])])])

def sampleRegistry : Registry sampleLibrary Unit where
  definitions := [sampleTool]
  count := by decide
  valid := by decide +kernel
  unique := by decide

def sampleActor : Actor := { actorId := "owner", workId := "w1", allowedCapabilities := [.newsRetrieval] }

/-- All that is waited for ends at once. -/
def sampleWaiter : Await.Waiter ℕ ℚ where
  wait pending _ := ⟨pending, 2⟩
  progress pending _ h := by
    obtain ⟨i, hi⟩ := List.exists_mem_of_ne_nil pending h
    exact .inl ⟨i, hi, hi⟩

def sampleBatch : BatchWorld Unit where
  started := 0
  timestamp := "t0"
  world _ := ()
  startedAt _ := "t0"
  completedAt _ := "t1"
  expiredAt _ := "t2"
  waiter := sampleWaiter

/-- A call of a tool, and one of a tool that is not there. -/
def samplePlan : BatchCall where
  calls := [⟨PyStr.of "c1", PyStr.of "look_v1", pyDict []⟩, ⟨PyStr.of "c2", PyStr.of "gone_v1", pyDict []⟩]
  actor := sampleActor
  retrievalCutoff := "2025-01-02T03:04:05.000Z"
  maxParallelCalls := 2
  maxTotalResultTokens := 100
  maxRetrievedEvidence := 5

theorem execute_batch_sound_rejected : ∃ results cutoff prepared,
    sampleRegistry.executeBatch sampleBatch samplePlan = .ok results ∧ samplePlan.validate sampleLibrary = .ok cutoff ∧
      sampleRegistry.Executed sampleBatch samplePlan cutoff prepared results ∧
      (∀ i call, samplePlan.calls[i]? = some call →
        (sampleRegistry.Runnable sampleActor call ↔ ∃ p ∈ prepared, p.index = i)) ∧
      List.Forall₂ (fun call x => x.callId = call.callId ∧ x.name = call.name) samplePlan.calls results ∧
      (results.map (·.resultTokens)).sum ≤ 100 := by
  obtain ⟨results, hresults⟩ := Raises.exists_of_isOk
    (show (sampleRegistry.executeBatch sampleBatch samplePlan).isOk = true by decide +kernel)
  obtain ⟨cutoff, prepared, h⟩ := execute_batch_sound hresults
  exact ⟨results, cutoff, prepared, hresults, h⟩

end Xauusd.Agent
