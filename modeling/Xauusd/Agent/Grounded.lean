/-
  What the answer of a turn rests on.

  * `TurnCall.Evidenced`: evidence that a tool returned in a run;
  * `TurnCall.Grounded`: an answer, with its document and provenance, that agrees
    with what its run did;
  * `run_bounded_assistant_agent_grounded`: **every answer cites only what the
    tools of its run returned, and its provenance tells what the run did**.
-/
import Xauusd.Agent.Bounded

namespace Xauusd.Agent

open Raises (bind_eq_ok raiseIf_eq_ok orRaise_eq_ok mapError_eq_ok)

variable {W : Type} {P : Python}

/-- A text of the lines of its claims has no carriage return. -/
theorem Validated.Covered.plainText {available : List PyStr} {maxCited : ℕ} {v : Validated}
    (h : v.Covered available maxCited) : CodePoint.char '\r' ∉ v.answer := by
  intro hmem
  rcases h.plain _ hmem rfl with heq | heq
  · cases heq
  · cases heq

/-- What is cited is available. -/
theorem Validated.Covered.available {available : List PyStr} {maxCited : ℕ} {v : Validated}
    (h : v.Covered available maxCited) {id : PyStr} (hid : id ∈ v.evidenceIds) : id ∈ available := by
  by_cases hnone : available = []
  · rw [h.uncited hnone] at hid
    cases hid
  · obtain ⟨c, hc, hid⟩ := (h.cited.2 id).1 hid
    exact (h.covered hnone c hc).2.2 id hid

namespace TurnCall

variable {t : TurnCall P W} {w : AgentWorld W} {s : LoopState} {events : List Event} {result : AgentResult}
  {reply : RoutedTurn}

/-! ## Evidence -/

/-- Evidence that a tool returned in a run, at the cutoff of the turn, for a call
    that the actor may make. -/
def Evidenced (t : TurnCall P W) (w : AgentWorld W) (events : List Event) (id : PyStr) : Prop :=
  ∃ k e cutoff prepared, (executions events)[k]? = some e ∧
    Agent.canonicalCutoff P "tool" (PyStr.of t.canonicalCutoff) = .ok cutoff ∧
    t.registry.Executed (w.batch k) e.1 cutoff prepared e.2 ∧ e.1.actor = t.request.actor ∧
    ∃ p ∈ prepared, ∃ output ids,
      p.definition.executor ((w.batch k).world p.index) p.call.arguments
        (p.context t.request.actor cutoff (w.batch k)) = .ok output ∧
      evidenceIdsOf output = .ok ids ∧ id ∈ ids

theorem validate_cutoff {c : BatchCall} {cutoff : String} (h : c.validate P = .ok cutoff) :
    Agent.canonicalCutoff P "tool" (PyStr.of c.retrievalCutoff) = .ok cutoff := by
  rw [BatchCall.validate] at h
  obtain ⟨_, -, h⟩ := bind_eq_ok.1 h
  obtain ⟨cutoff', hcutoff, h⟩ := bind_eq_ok.1 h
  obtain ⟨_, -, h⟩ := bind_eq_ok.1 h
  obtain ⟨_, -, h⟩ := bind_eq_ok.1 h
  obtain ⟨_, -, h⟩ := bind_eq_ok.1 h
  obtain ⟨_, -, h⟩ := bind_eq_ok.1 h
  obtain ⟨_, -, h⟩ := bind_eq_ok.1 h
  obtain ⟨_, -, h⟩ := bind_eq_ok.1 h
  obtain ⟨_, -, h⟩ := bind_eq_ok.1 h
  cases h
  exact hcutoff

theorem Kept.evidenced (h : t.Kept w events) {id : PyStr} (hid : id ∈ returnedIds (executions events)) :
    t.Evidenced w events id := by
  obtain ⟨e, he, x, hx, hid⟩ := mem_returnedIds.1 hid
  obtain ⟨k, hk⟩ := List.mem_iff_getElem?.1 he
  obtain ⟨i, -, hplanned⟩ := h.plans k e hk
  have hexecuted := hplanned.executed
  rw [List.length_take_of_le (List.getElem?_eq_some_iff.1 hk).1.le] at hexecuted
  obtain ⟨cutoff, prepared, hcutoff, hbatch⟩ := executeBatch_executed hexecuted
  obtain ⟨p, hp, output, houtput, hids⟩ := hbatch.returned hx hid
  obtain ⟨hactor, hturn⟩ := hplanned.caller
  refine ⟨k, e, cutoff, prepared, hk, hturn ▸ validate_cutoff hcutoff, hbatch, hactor, p, hp, output, _, ?_, hids, hid⟩
  rw [← hactor]
  exact houtput

/-! ## Answers -/

/-- An answer that rests on what its run did. -/
structure Grounded (t : TurnCall P W) (w : AgentWorld W) (events : List Event) (result : AgentResult) : Prop where
  /-- its claims cite what the tools returned, if they returned anything -/
  covered : ∃ v : Validated, v.Covered (returnedIds (executions events)) t.maxCitedEvidence ∧
    result.answer = v.answer ∧ result.evidenceIds = v.evidenceIds ∧
    result.provenance.evidenceIds = v.evidenceIds ∧ result.provenance.evidenceValidation = v.receipt P
  evidence : ∀ id ∈ result.evidenceIds, t.Evidenced w events id
  size : ∃ bytes, PyStr.encode result.answer = some bytes ∧ bytes.length ≤ t.budgets.maxOutputTokens.val * 8
  document : result.contentDocument.Bound P result.answer result.evidenceIds
  message : result.provenance.conversationId = t.request.conversationId ∧
    result.provenance.userMessageId = t.request.userMessageId ∧ result.provenance.retrievalCutoff = t.canonicalCutoff ∧
    result.provenance.activeContextSha256 = sha256Bytes t.contextBytes
  turns : result.provenance.modelTurnCount = (invocations events).length ∧
    result.provenance.modelVersions.length = (invocations events).length ∧
    result.provenance.modelVersions.getLast? = some result.modelVersion
  tools : result.provenance.toolRoundCount = (executions events).length ∧
    result.provenance.toolCallCount = callsUsed events ∧ result.provenance.toolResultTokens = tokensUsed events ∧
    result.provenance.toolExecution = (executions events).map fun e => e.2.map ToolResult.receipt
  hash : ∃ bytes, P.jsonBytes (pyDict result.provenance.core) = some bytes ∧ result.runSha256 = sha256Bytes bytes

/-- What an answer is made of. -/
theorem answerTurn_ok (h : t.answerTurn s reply = .ok result) : ∃ v, v.Covered s.availableEvidenceIds t.maxCitedEvidence ∧
    result.answer = v.answer ∧ result.evidenceIds = v.evidenceIds ∧ result.provenance = t.provenance s v ∧
    result.modelVersion = reply.modelVersion ∧
    (∃ bytes, PyStr.encode v.answer = some bytes ∧ bytes.length ≤ t.budgets.maxOutputTokens.val * 8) ∧
    result.contentDocument.Bound P v.answer v.evidenceIds ∧
    ∃ bytes, P.jsonBytes (pyDict (t.provenance s v).core) = some bytes ∧ result.runSha256 = sha256Bytes bytes := by
  rw [answerTurn] at h
  obtain ⟨_, -, h⟩ := bind_eq_ok.1 h
  obtain ⟨_, -, h⟩ := bind_eq_ok.1 h
  obtain ⟨_, -, h⟩ := bind_eq_ok.1 h
  obtain ⟨v, hv, h⟩ := bind_eq_ok.1 h
  obtain ⟨answerBytes, hanswer, h⟩ := bind_eq_ok.1 h
  obtain ⟨_, hsize, h⟩ := bind_eq_ok.1 h
  obtain ⟨bytes, hbytes, h⟩ := bind_eq_ok.1 h
  obtain ⟨document, hdocument, h⟩ := bind_eq_ok.1 h
  cases h
  have hcovered := validated_covered (mapError_eq_ok.1 hv)
  exact ⟨v, hcovered, rfl, rfl, rfl, rfl, ⟨answerBytes, orRaise_eq_ok.1 hanswer, Nat.not_lt.1 (raiseIf_eq_ok.1 hsize)⟩,
    buildDocument_bound hdocument hcovered.plainText, bytes, orRaise_eq_ok.1 hbytes, rfl⟩

theorem Ended.grounded (h : t.Ended w events (.ok result)) : t.Grounded w events result := by
  have hkept := h.kept
  cases h with
  | answered k s events reply result reached allowed answer =>
    obtain ⟨v, hcovered, hanswer, hids, hprovenance, hversion, hsize, hdocument, hhash⟩ := answerTurn_ok answer
    obtain ⟨hreceipts, hversions, htools⟩ := reached.receipts
    have havailable : (s.received reply).availableEvidenceIds = returnedIds (executions events) := reached.evidence
    rw [havailable] at hcovered
    exact {
      covered := by
        rw [executions_invoked, hprovenance]
        exact ⟨v, hcovered, hanswer, hids, rfl, rfl⟩
      evidence := by
        intro id hid
        rw [hids] at hid
        refine hkept.evidenced ?_
        rw [executions_invoked]
        exact hcovered.available hid
      size := by
        rw [hanswer]
        exact hsize
      document := by
        rw [hanswer, hids]
        exact hdocument
      message := by
        rw [hprovenance]
        exact ⟨rfl, rfl, rfl, rfl⟩
      turns := by
        rw [hprovenance, hversion, invocations_invoked, List.length_append, reached.asked]
        refine ⟨?_, ?_, List.getLast?_concat⟩
        · exact List.length_append.trans (congrArg (· + 1) hreceipts)
        · exact List.length_append.trans (congrArg (· + 1) hversions)
      tools := by
        rw [hprovenance, executions_invoked, callsUsed_invoked, tokensUsed_invoked]
        refine ⟨?_, reached.calls, reached.tokens, htools⟩
        rw [← List.length_map (f := fun e : BatchCall × List ToolResult => e.2.map ToolResult.receipt), ← htools]
        rfl
      hash := by
        rw [hprovenance]
        exact hhash }

end TurnCall

/-- **An answer rests on its run**: its claims cite what the tools returned, its
    document shows no other evidence, and its provenance counts what was asked. -/
theorem run_bounded_assistant_agent_grounded {q : AgentRequest} {r : Registry P W} {budgets : AgentBudgets}
    {w : AgentWorld W} {result : AgentResult} (h : (runBoundedAssistantAgent q r budgets w).2 = .ok result) :
    ∃ t contents, startTurn q r budgets = .ok (t, contents) ∧
      t.Grounded w (runBoundedAssistantAgent q r budgets w).1 result := by
  cases hstart : startTurn q r budgets with
  | error e =>
    rw [runBoundedAssistantAgent, hstart] at h
    cases h
  | ok start =>
    have hended := @run_ended _ _ q r budgets w start.1 start.2 hstart
    rw [h] at hended
    exact ⟨start.1, start.2, rfl, hended.grounded⟩

/-! ## A run of two turns -/

def sampleRequest : AgentRequest where
  conversationId := PyStr.of "c1"
  userMessageId := PyStr.of "m1"
  actor := sampleActor
  userText := PyStr.of "Why?"
  activeContext := []
  retrievalCutoff := PyStr.of "2025-01-02T03:04:05.000Z"
  systemInstruction := PyStr.of "Answer."
  systemInstructionVersion := PyStr.of "v1"

def sampleBudgets : AgentBudgets where
  maxModelTurnsPerUserTurn := 3
  maxToolCallsPerUserTurn := 4
  maxParallelToolCalls := 2
  maxToolResultTokens := 200
  maxRetrievedEvidence := 20
  maxActiveContextTokens := 32000
  maxOutputTokens := 1200

/-- A model that calls the tool, and then answers. -/
def sampleWorld : AgentWorld Unit where
  invokeModel n _ _ := .ok {
    turn :=
      if n = 1 then { content := pyDict [], text := [], toolCalls := samplePlan.calls.take 1 }
      else { content := pyDict [], text := sampleAnswer, toolCalls := [] }
    modelVersion := "gemma"
    routing := pyDict [] }
  batch _ := sampleBatch
  onToolResults _ _ := .ok ()

theorem run_bounded_assistant_agent_grounded_cited : ∃ result,
    (runBoundedAssistantAgent sampleRequest sampleRegistry sampleBudgets sampleWorld).2 = .ok result ∧
      ∃ t contents, startTurn sampleRequest sampleRegistry sampleBudgets = .ok (t, contents) ∧
        t.Grounded sampleWorld (runBoundedAssistantAgent sampleRequest sampleRegistry sampleBudgets sampleWorld).1
          result := by
  obtain ⟨result, hresult⟩ := Raises.exists_of_isOk (show
    (runBoundedAssistantAgent sampleRequest sampleRegistry sampleBudgets sampleWorld).2.isOk = true by decide +kernel)
  exact ⟨result, hresult, run_bounded_assistant_agent_grounded hresult⟩

end Xauusd.Agent
