/-
  What a turn of the agent never exceeds.

  A run is a sequence of rounds, in each of which the model is asked and its
  calls are executed, and then at most one more request, with or without a plan.

  * `invocations`, `executions`: what a run asked outside;
  * `TurnCall.Kept`: the budgets, of all that was asked so far;
  * `TurnCall.Reached`: the loop at the start of a turn, `Reached.next` its step;
  * `Ended`, `modelTurn_goes`, `run_ended`: how a run ends, **within its budgets,
    whatever the model answers and whatever the tools return**.
-/
import Xauusd.Agent.Batch
import Xauusd.Agent.Loop

namespace Xauusd.Agent

open Raises (bind_eq_ok raiseIf_eq_ok orRaise_eq_ok mapError_eq_ok)

variable {W : Type} {P : Python}

/-! ## What a run asks outside -/

/-- A request to the model. -/
structure Invocation where
  payload : PyJson
  toolsAllowed : Bool
  plannedToolCalls : ℕ

def Event.invocation? : Event → Option Invocation
  | invoked payload toolsAllowed planned => some ⟨payload, toolsAllowed, planned⟩
  | executed .. => none

def Event.execution? : Event → Option (BatchCall × List ToolResult)
  | invoked .. => none
  | executed call results => some (call, results)

def invocations (events : List Event) : List Invocation := events.filterMap Event.invocation?

def executions (events : List Event) : List (BatchCall × List ToolResult) := events.filterMap Event.execution?

/-- The calls of a run. -/
def callsUsed (events : List Event) : ℕ := ((executions events).map (·.1.calls.length)).sum

/-- The tokens of the results of a run. -/
def tokensUsed (events : List Event) : ℕ := ((executions events).map fun e => (e.2.map (·.resultTokens)).sum).sum

/-- The evidence that some executions returned, each id once. -/
def returnedIds (es : List (BatchCall × List ToolResult)) : List PyStr :=
  joinIds [] (es.flatMap fun e => e.2.flatMap (·.evidenceIds))

theorem returnedIds_append (es : List (BatchCall × List ToolResult)) (e : BatchCall × List ToolResult) :
    returnedIds (es ++ [e]) = joinIds (returnedIds es) (e.2.flatMap (·.evidenceIds)) := by
  rw [returnedIds, List.flatMap_append, joinIds_append, List.flatMap_singleton]
  rfl

theorem nodup_returnedIds (es : List (BatchCall × List ToolResult)) : (returnedIds es).Nodup :=
  (joinIds_spec List.nodup_nil).1

theorem mem_returnedIds {es : List (BatchCall × List ToolResult)} {id : PyStr} :
    id ∈ returnedIds es ↔ ∃ e ∈ es, ∃ x ∈ e.2, id ∈ x.evidenceIds := by
  rw [returnedIds, (joinIds_spec List.nodup_nil).2]
  simp [List.mem_flatMap]

section
variable (events : List Event) (payload : PyJson) (allowed : Bool) (planned : ℕ) (call : BatchCall)
  (results : List ToolResult)

@[simp] theorem invocations_invoked :
    invocations (events ++ [.invoked payload allowed planned]) = invocations events ++ [⟨payload, allowed, planned⟩] := by
  simp [invocations, Event.invocation?]

@[simp] theorem invocations_executed : invocations (events ++ [.executed call results]) = invocations events := by
  simp [invocations, Event.invocation?]

@[simp] theorem executions_invoked :
    executions (events ++ [.invoked payload allowed planned]) = executions events := by
  simp [executions, Event.execution?]

@[simp] theorem executions_executed :
    executions (events ++ [.executed call results]) = executions events ++ [(call, results)] := by
  simp [executions, Event.execution?]

@[simp] theorem callsUsed_invoked : callsUsed (events ++ [.invoked payload allowed planned]) = callsUsed events := by
  simp [callsUsed]

@[simp] theorem callsUsed_executed :
    callsUsed (events ++ [.executed call results]) = callsUsed events + call.calls.length := by
  simp [callsUsed]

@[simp] theorem tokensUsed_invoked : tokensUsed (events ++ [.invoked payload allowed planned]) = tokensUsed events := by
  simp [tokensUsed]

@[simp] theorem tokensUsed_executed :
    tokensUsed (events ++ [.executed call results]) = tokensUsed events + (results.map (·.resultTokens)).sum := by
  simp [tokensUsed]

end

namespace TurnCall

variable {t : TurnCall P W} {w : AgentWorld W} {s s' : LoopState} {events : List Event} {k n : ℕ}

/-! ## Budgets -/

/-- A request that leaves room for its reply, and offers tools only when another
    request may follow. -/
structure Allowed (t : TurnCall P W) (n : ℕ) (i : Invocation) : Prop where
  context : ∃ estimate, conservativeTokenEstimate P i.payload = .ok estimate ∧
    estimate + t.budgets.maxOutputTokens ≤ t.budgets.maxActiveContextTokens.val
  offered : i.toolsAllowed = true → n < t.budgets.maxModelTurnsPerUserTurn.val ∧ n ≤ MAX_TOOL_ROUNDS_PER_USER_TURN ∧
    1 ≤ i.plannedToolCalls ∧ i.plannedToolCalls ≤ t.budgets.maxParallelToolCalls ∧
    i.plannedToolCalls ≤ (t.registry.authorized t.request.actor).length
  closed : i.toolsAllowed = false → i.plannedToolCalls = 0

/-- A plan that the tools executed after some others, no larger than the request
    for it offered. -/
structure Planned (t : TurnCall P W) (w : AgentWorld W) (before : List (BatchCall × List ToolResult)) (i : Invocation)
    (e : BatchCall × List ToolResult) : Prop where
  offered : i.toolsAllowed = true
  size : e.1.calls.length ≤ i.plannedToolCalls
  caller : e.1.actor = t.request.actor ∧ e.1.retrievalCutoff = t.canonicalCutoff
  evidence : e.1.maxRetrievedEvidence = t.budgets.maxRetrievedEvidence - (returnedIds before).length
  executed : t.registry.executeBatch (w.batch before.length) e.1 = .ok e.2

/-- All that a run asked keeps to the budgets. -/
structure Kept (t : TurnCall P W) (w : AgentWorld W) (events : List Event) : Prop where
  turns : (invocations events).length ≤ t.budgets.maxModelTurnsPerUserTurn.val
  rounds : (executions events).length ≤ MAX_TOOL_ROUNDS_PER_USER_TURN
  calls : callsUsed events ≤ t.budgets.maxToolCallsPerUserTurn.val
  tokens : tokensUsed events ≤ t.budgets.maxToolResultTokens.val
  requests : ∀ k i, (invocations events)[k]? = some i → t.Allowed (k + 1) i
  plans : ∀ k e, (executions events)[k]? = some e →
    ∃ i, (invocations events)[k]? = some i ∧ t.Planned w ((executions events).take k) i e

/-- The state of the loop after `k` rounds. -/
structure Reached (t : TurnCall P W) (w : AgentWorld W) (k : ℕ) (s : LoopState) (events : List Event) : Prop where
  kept : t.Kept w events
  asked : (invocations events).length = k
  answered : (executions events).length = k
  room : k < t.budgets.maxModelTurnsPerUserTurn.val
  rounds : s.toolRounds = k
  calls : s.toolCallsUsed = callsUsed events
  tokens : s.toolResultTokensUsed = tokensUsed events
  receipts : s.modelReceipts.length = k ∧ s.modelVersions.length = k ∧
    s.toolReceipts = (executions events).map fun e => e.2.map ToolResult.receipt
  evidence : s.availableEvidenceIds = returnedIds (executions events)
  few : s.availableEvidenceIds.length ≤ t.budgets.maxRetrievedEvidence.val

theorem reached_initial (contents : List PyJson) : t.Reached w 0 (.initial contents) [] where
  kept := {
    turns := Nat.zero_le _
    rounds := Nat.zero_le _
    calls := Nat.zero_le _
    tokens := Nat.zero_le _
    requests := by intro k i h; cases h
    plans := by intro k e h; cases h }
  asked := rfl
  answered := rfl
  room := t.budgets.maxModelTurnsPerUserTurn.2.1
  rounds := rfl
  calls := rfl
  tokens := rfl
  receipts := ⟨rfl, rfl, rfl⟩
  evidence := rfl
  few := Nat.zero_le _

/-! ## Requests -/

theorem toolsAllowed_iff : t.toolsAllowed s n = true ↔
    t.registry.authorized t.request.actor ≠ [] ∧ s.toolCallsUsed < t.budgets.maxToolCallsPerUserTurn.val ∧
      n < t.budgets.maxModelTurnsPerUserTurn.val ∧ s.toolRounds < MAX_TOOL_ROUNDS_PER_USER_TURN := by
  simp [toolsAllowed, and_assoc]

/-- The request of a turn. -/
def invocation (t : TurnCall P W) (s : LoopState) (n : ℕ) : Invocation :=
  ⟨t.payload s n, t.toolsAllowed s n, t.plannedToolCalls s n⟩

theorem allowed_invocation (hrounds : s.toolRounds + 1 = n)
    (hcontext : ∃ estimate, conservativeTokenEstimate P (t.payload s n) = .ok estimate ∧
      estimate + t.budgets.maxOutputTokens ≤ t.budgets.maxActiveContextTokens.val) :
    t.Allowed n (t.invocation s n) := by
  refine ⟨hcontext, ?_, ?_⟩
  · intro hallowed
    obtain ⟨htools, hcalls, hturn, hround⟩ := toolsAllowed_iff.1 hallowed
    have hplanned : (t.invocation s n).plannedToolCalls =
        min (min (t.budgets.maxToolCallsPerUserTurn - s.toolCallsUsed) t.budgets.maxParallelToolCalls)
          (t.registry.authorized t.request.actor).length := if_pos hallowed
    have hlength := List.length_pos_iff.2 htools
    have hparallel := t.budgets.maxParallelToolCalls.2.1
    rw [hplanned]
    refine ⟨hturn, ?_, ?_, ?_, Nat.min_le_right _ _⟩
    · omega
    · omega
    · omega
  · intro hclosed
    exact if_neg (by rw [show t.toolsAllowed s n = false from hclosed]; decide)

/-- One more request. -/
theorem Reached.invoke (h : t.Reached w k s events) (hallowed : t.Allowed (k + 1) (t.invocation s (k + 1))) :
    t.Kept w (events ++ [.invoked (t.payload s (k + 1)) (t.toolsAllowed s (k + 1)) (t.plannedToolCalls s (k + 1))]) where
  turns := by
    rw [invocations_invoked, List.length_append, h.asked]
    exact h.room
  rounds := by simpa using h.kept.rounds
  calls := by simpa using h.kept.calls
  tokens := by simpa using h.kept.tokens
  requests := by
    intro j i hi
    rw [invocations_invoked] at hi
    rcases Nat.lt_trichotomy j k with hj | rfl | hj
    · rw [List.getElem?_append_left (by rw [h.asked]; exact hj)] at hi
      exact h.kept.requests j i hi
    · rw [List.getElem?_append_right (by rw [h.asked]), h.asked, Nat.sub_self] at hi
      cases hi
      exact hallowed
    · rw [List.getElem?_eq_none (by rw [List.length_append, h.asked]; exact hj)] at hi
      cases hi
  plans := by
    intro j e he
    rw [executions_invoked] at he
    obtain ⟨i, hi, hplanned⟩ := h.kept.plans j e he
    refine ⟨i, ?_, ?_⟩
    · rw [invocations_invoked, List.getElem?_append_left (List.getElem?_eq_some_iff.1 hi).1]
      exact hi
    · rw [executions_invoked]
      exact hplanned

/-! ## Plans -/

/-- A plan that is executed. -/
theorem planCalls_ok {calls : List ToolCall} {call : BatchCall} (h : t.planCalls s n calls = .ok call) :
    t.toolsAllowed s n = true ∧ calls.length ≤ t.plannedToolCalls s n ∧
      s.toolCallsUsed + calls.length ≤ t.budgets.maxToolCallsPerUserTurn.val ∧
      s.toolResultTokensUsed + 32 ≤ t.budgets.maxToolResultTokens.val ∧ call = t.batchCall s n calls := by
  rw [planCalls] at h
  obtain ⟨_, hallowed, h⟩ := bind_eq_ok.1 h
  obtain ⟨_, hsize, h⟩ := bind_eq_ok.1 h
  obtain ⟨_, htokens, h⟩ := bind_eq_ok.1 h
  cases h
  have hsize := not_or.1 (raiseIf_eq_ok.1 hsize)
  exact ⟨not_not.1 (raiseIf_eq_ok.1 hallowed), Nat.not_lt.1 hsize.1, Nat.not_lt.1 hsize.2,
    Nat.not_lt.1 (raiseIf_eq_ok.1 htokens), rfl⟩

section
variable {calls : List ToolCall} {call : BatchCall} {results : List ToolResult}

/-- The tokens of the results of a plan keep to what is left. -/
theorem batch_tokens (hplan : t.planCalls s n calls = .ok call)
    (hexecuted : t.registry.executeBatch (w.batch k) call = .ok results) :
    s.toolResultTokensUsed + (results.map (·.resultTokens)).sum ≤ t.budgets.maxToolResultTokens.val := by
  obtain ⟨-, -, -, htokens, rfl⟩ := planCalls_ok hplan
  obtain ⟨cutoff, prepared, -, hbatch⟩ := executeBatch_executed hexecuted
  have hsum : (results.map (·.resultTokens)).sum ≤ t.budgets.maxToolResultTokens - s.toolResultTokensUsed := hbatch.tokens
  omega

/-- One more plan. -/
theorem Reached.execute (h : t.Reached w k s events) (hallowed : t.Allowed (k + 1) (t.invocation s (k + 1)))
    (hplan : t.planCalls s (k + 1) calls = .ok call)
    (hexecuted : t.registry.executeBatch (w.batch k) call = .ok results) :
    t.Kept w (events ++
      [.invoked (t.payload s (k + 1)) (t.toolsAllowed s (k + 1)) (t.plannedToolCalls s (k + 1))] ++
      [.executed call results]) := by
  have hkept := h.invoke hallowed
  obtain ⟨htools, hsize, hcalls, -, rfl⟩ := planCalls_ok hplan
  have htokens := batch_tokens hplan hexecuted
  exact {
    turns := by
      rw [invocations_executed]
      exact hkept.turns
    rounds := by
      have hround := (toolsAllowed_iff.1 htools).2.2.2
      rw [executions_executed, executions_invoked, List.length_append, h.answered]
      rw [h.rounds] at hround
      exact hround
    calls := by
      rw [callsUsed_executed, callsUsed_invoked, ← h.calls]
      exact hcalls
    tokens := by
      rw [tokensUsed_executed, tokensUsed_invoked, ← h.tokens]
      exact htokens
    requests := by
      intro j i hi
      rw [invocations_executed] at hi
      exact hkept.requests j i hi
    plans := by
      intro j e he
      rw [executions_executed, executions_invoked] at he
      rcases Nat.lt_trichotomy j k with hj | rfl | hj
      · rw [List.getElem?_append_left (by rw [h.answered]; exact hj)] at he
        obtain ⟨i, hi, hplanned⟩ := h.kept.plans j e he
        refine ⟨i, ?_, ?_⟩
        · rw [invocations_executed, invocations_invoked, List.getElem?_append_left (List.getElem?_eq_some_iff.1 hi).1]
          exact hi
        · rw [executions_executed, executions_invoked, List.take_append_of_le_length (by rw [h.answered]; omega)]
          exact hplanned
      · rw [List.getElem?_append_right (by rw [h.answered]), h.answered, Nat.sub_self] at he
        cases he
        refine ⟨t.invocation s (j + 1), ?_, ?_⟩
        · rw [invocations_executed, invocations_invoked, List.getElem?_append_right (by rw [h.asked]), h.asked,
            Nat.sub_self]
          rfl
        · rw [executions_executed, executions_invoked, List.take_left' h.answered]
          exact {
            offered := htools
            size := hsize
            caller := ⟨rfl, rfl⟩
            evidence := by
              rw [← h.evidence]
              rfl
            executed := by
              rw [h.answered]
              exact hexecuted }
      · rw [List.getElem?_eq_none (by rw [List.length_append, h.answered]; exact hj)] at he
        cases he }

/-! ## Rounds -/

/-- The state after a round. -/
theorem Reached.next {reply : RoutedTurn} (h : t.Reached w k s events)
    (hallowed : t.Allowed (k + 1) (t.invocation s (k + 1)))
    (hplan : t.planCalls s (k + 1) reply.turn.toolCalls = .ok call)
    (hexecuted : t.registry.executeBatch (w.batch k) call = .ok results)
    (habsorb : t.absorb (s.received reply) reply results = .ok s') :
    t.Reached w (k + 1) s' (events ++
      [.invoked (t.payload s (k + 1)) (t.toolsAllowed s (k + 1)) (t.plannedToolCalls s (k + 1))] ++
      [.executed call results]) := by
  have hkept := h.execute hallowed hplan hexecuted
  obtain ⟨htools, -, -, -, rfl⟩ := planCalls_ok hplan
  rw [absorb] at habsorb
  obtain ⟨_, -, habsorb⟩ := bind_eq_ok.1 habsorb
  obtain ⟨_, hfew, habsorb⟩ := bind_eq_ok.1 habsorb
  cases habsorb
  exact {
    kept := hkept
    asked := by rw [invocations_executed, invocations_invoked, List.length_append, h.asked]; rfl
    answered := by rw [executions_executed, executions_invoked, List.length_append, h.answered]; rfl
    room := (toolsAllowed_iff.1 htools).2.2.1
    rounds := congrArg (· + 1) h.rounds
    calls := by
      rw [callsUsed_executed, callsUsed_invoked, ← h.calls]
      rfl
    tokens := by
      rw [tokensUsed_executed, tokensUsed_invoked, ← h.tokens]
      rfl
    receipts := by
      obtain ⟨hreceipts, hversions, htool⟩ := h.receipts
      refine ⟨?_, ?_, ?_⟩
      · rw [← hreceipts]
        exact List.length_append
      · rw [← hversions]
        exact List.length_append
      · rw [executions_executed, executions_invoked, List.map_append, ← htool]
        rfl
    evidence := by
      rw [executions_executed, executions_invoked, returnedIds_append, ← h.evidence]
      rfl
    few := Nat.not_lt.1 (raiseIf_eq_ok.1 hfew) }

end

/-! ## Runs -/

/-- How a run ends: with an error, or with the answer of a request. -/
inductive Ended (t : TurnCall P W) (w : AgentWorld W) : List Event → Except Raised AgentResult → Prop where
  | raised (events : List Event) (e : Raised) (kept : t.Kept w events) : Ended t w events (.error e)
  | answered (k : ℕ) (s : LoopState) (events : List Event) (reply : RoutedTurn) (result : AgentResult)
      (reached : t.Reached w k s events) (allowed : t.Allowed (k + 1) (t.invocation s (k + 1)))
      (answer : t.answerTurn (s.received reply) reply = .ok result) :
    Ended t w (events ++ [.invoked (t.payload s (k + 1)) (t.toolsAllowed s (k + 1)) (t.plannedToolCalls s (k + 1))])
      (.ok result)

/-- What a turn does: it ends the run, or reaches the next turn. -/
def Goes (t : TurnCall P W) (w : AgentWorld W) (k : ℕ) (before : List Event) (turn : List Event × Progress) : Prop :=
  match turn.2 with
  | .over result => t.Ended w (before ++ turn.1) result
  | .next s' => t.Reached w (k + 1) s' (before ++ turn.1)

theorem Kept.raised (h : t.Kept w events) (e : Raised) : t.Goes w k events ([], .over (.error e)) :=
  .raised _ e (by rw [List.append_nil]; exact h)

/-- The rest of a turn whose reply calls tools. -/
theorem toolTurn_goes {reply : RoutedTurn} (h : t.Reached w k s events)
    (hallowed : t.Allowed (k + 1) (t.invocation s (k + 1))) :
    t.Goes w k (events ++
      [.invoked (t.payload s (k + 1)) (t.toolsAllowed s (k + 1)) (t.plannedToolCalls s (k + 1))])
      (t.toolTurn w (s.received reply) (k + 1) reply) := by
  have hbefore := h.invoke hallowed
  have hrounds : (s.received reply).toolRounds = k := h.rounds
  rw [toolTurn, hrounds]
  cases hplan : t.planCalls (s.received reply) (k + 1) reply.turn.toolCalls with
  | error e => exact hbefore.raised e
  | ok call =>
    dsimp only
    cases hexecuted : t.registry.executeBatch (w.batch k) call with
    | error e =>
      cases e with
      | planRejected message => exact hbefore.raised _
      | _ => exact hbefore.raised _
    | ok results =>
      dsimp only
      cases habsorb : t.absorb (s.received reply) reply results with
      | error e => exact .raised _ e (h.execute hallowed hplan hexecuted)
      | ok s' =>
        dsimp only
        cases w.onToolResults k results with
        | error e => exact .raised _ e (h.execute hallowed hplan hexecuted)
        | ok u => exact h.next hallowed hplan hexecuted habsorb

/-- One turn of the model. -/
theorem modelTurn_goes (h : t.Reached w k s events) : t.Goes w k events (t.modelTurn w (k + 1) s) := by
  rw [modelTurn]
  cases hestimate : conservativeTokenEstimate P (t.payload s (k + 1)) with
  | error e => exact h.kept.raised e
  | ok estimate =>
    dsimp only
    split
    · exact h.kept.raised _
    · next hroom =>
      have hallowed : t.Allowed (k + 1) (t.invocation s (k + 1)) :=
        allowed_invocation (congrArg (· + 1) h.rounds) ⟨estimate, hestimate, Nat.not_lt.1 hroom⟩
      cases w.invokeModel (k + 1) (t.payload s (k + 1)) (t.plannedToolCalls s (k + 1)) with
      | error e => exact .raised _ e (h.invoke hallowed)
      | ok reply =>
        dsimp only
        cases reply.validate P with
        | error e => exact .raised _ e (h.invoke hallowed)
        | ok u =>
          dsimp only
          split
          · cases hanswer : t.answerTurn (s.received reply) reply with
            | error e => exact .raised _ e (h.invoke hallowed)
            | ok result => exact .answered k s events reply result h hallowed hanswer
          · have hrest := @toolTurn_goes _ _ t w s events k reply h hallowed
            revert hrest
            obtain ⟨after, result | s'⟩ := t.toolTurn w (s.received reply) (k + 1) reply
            · intro hrest
              rw [Goes, List.append_assoc] at hrest
              exact hrest
            · intro hrest
              rw [Goes, List.append_assoc] at hrest
              exact hrest

/-- The turns of the model never run out, as the last one offers no tools: one of
    them ends the run. -/
theorem modelTurns_over {remaining : ℕ} (h : t.Reached w k s events)
    (hremaining : k + remaining = t.budgets.maxModelTurnsPerUserTurn.val) :
    ∃ n s' before, t.Reached w n s' before ∧
      events ++ (t.modelTurns w remaining (k + 1) s).1 = before ++ (t.modelTurn w (n + 1) s').1 ∧
      (t.modelTurn w (n + 1) s').2 = .over (t.modelTurns w remaining (k + 1) s).2 := by
  induction remaining generalizing k s events with
  | zero =>
    have hroom := h.room
    omega
  | succ remaining ih =>
    have hturn := modelTurn_goes h
    rw [modelTurns]
    generalize hresult : t.modelTurn w (k + 1) s = turn at hturn
    obtain ⟨after, result | s'⟩ := turn
    · exact ⟨k, s, events, h, by rw [hresult], by rw [hresult]⟩
    · obtain ⟨n, s'', before, hreached, hevents, hover⟩ := ih hturn (by omega)
      refine ⟨n, s'', before, hreached, ?_, hover⟩
      rw [← hevents, List.append_assoc]

theorem Ended.kept {result : Except Raised AgentResult} (h : t.Ended w events result) : t.Kept w events := by
  cases h with
  | raised _ _ kept => exact kept
  | answered k s events reply result reached allowed answer => exact reached.invoke allowed

end TurnCall

section
variable {q : AgentRequest} {r : Registry P W} {budgets : AgentBudgets} {w : AgentWorld W}

/-- The turn that ends a run. -/
theorem run_over {t : TurnCall P W} {contents : List PyJson} (h : startTurn q r budgets = .ok (t, contents)) :
    ∃ k s before, t.Reached w k s before ∧
      (runBoundedAssistantAgent q r budgets w).1 = before ++ (t.modelTurn w (k + 1) s).1 ∧
      (t.modelTurn w (k + 1) s).2 = .over (runBoundedAssistantAgent q r budgets w).2 := by
  rw [runBoundedAssistantAgent, h]
  obtain ⟨k, s, before, hreached, hevents, hover⟩ :=
    TurnCall.modelTurns_over (@TurnCall.reached_initial _ _ t w contents) (Nat.zero_add _)
  exact ⟨k, s, before, hreached, hevents, hover⟩

theorem run_ended {t : TurnCall P W} {contents : List PyJson} (h : startTurn q r budgets = .ok (t, contents)) :
    t.Ended w (runBoundedAssistantAgent q r budgets w).1 (runBoundedAssistantAgent q r budgets w).2 := by
  obtain ⟨k, s, before, hreached, hevents, hover⟩ := @run_over _ _ q r budgets w t contents h
  have hgoes := TurnCall.modelTurn_goes hreached
  rw [TurnCall.Goes, hover, ← hevents] at hgoes
  exact hgoes

end

/-- **A run keeps to its budgets**, whatever the model answers and whatever the
    tools return, and one of its turns ends it. -/
theorem run_bounded_assistant_agent_keeps (q : AgentRequest) (r : Registry P W) (budgets : AgentBudgets)
    (w : AgentWorld W) :
    match startTurn q r budgets with
    | .error e => runBoundedAssistantAgent q r budgets w = ([], .error e)
    | .ok (t, _) => t.Kept w (runBoundedAssistantAgent q r budgets w).1 ∧
      ∃ k s before, t.Reached w k s before ∧
        (runBoundedAssistantAgent q r budgets w).1 = before ++ (t.modelTurn w (k + 1) s).1 ∧
        (t.modelTurn w (k + 1) s).2 = .over (runBoundedAssistantAgent q r budgets w).2 := by
  cases hstart : startTurn q r budgets with
  | error e => simp [runBoundedAssistantAgent, hstart]
  | ok start => exact ⟨(run_ended hstart).kept, run_over hstart⟩

end Xauusd.Agent
