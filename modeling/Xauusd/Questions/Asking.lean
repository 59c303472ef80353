/-
  What asking a question promises.

  * `Fresh`: a call draws ids that are not in use;
  * `Created`: a call appends one conversation, one message and one question;
  * `create_of_admits`, `create_of_not_admits`: a fresh call does that or
    nothing;
  * `Keyed`: a conversation for each question, and no two questions of an owner
    under one key;
  * `asked_run`: the questions in the store are those of the calls that created
    one;
  * `Faithful`: what the outcome of a call promises;
  * `ask_faithful_iff`: **it is kept if and only if the question was not created
    under the key on another UTC day**, whatever batches land before the call,
    and between its batch and its query.
-/
import Xauusd.Questions.Store

namespace Xauusd.Questions

open Machine

variable {L : Locale} {s s' : Store} {c : AskCall}

/-! ## One batch -/

/-- The ids that the call draws are new. -/
structure AskCall.Fresh (c : AskCall) (s : Store) : Prop where
  question : ∀ q ∈ s.questions, q.key ≠ c.questionId
  conversation : ∀ v ∈ s.conversations, v.id ≠ c.conversationId
  message : ∀ m ∈ s.messages, m.id ≠ c.userMessageId ∧ m.sourceId ≠ c.questionId

instance (c : AskCall) (s : Store) : Decidable (c.Fresh s) :=
  decidable_of_iff ((∀ q ∈ s.questions, q.key ≠ c.questionId) ∧ (∀ v ∈ s.conversations, v.id ≠ c.conversationId) ∧
      ∀ m ∈ s.messages, m.id ≠ c.userMessageId ∧ m.sourceId ≠ c.questionId)
    ⟨fun h => ⟨h.1, h.2.1, h.2.2⟩, fun h => ⟨h.question, h.conversation, h.message⟩⟩

/-- One conversation, one message and one question more. -/
structure Created (L : Locale) (c : AskCall) (s s' : Store) : Prop where
  conversations : s'.conversations.rows = s.conversations.rows ++ [c.conversation L]
  messages : s'.messages.rows = s.messages.rows ++ [c.message]
  questions : s'.questions.rows = s.questions.rows ++ [c.row L]

/-- What admission found. -/
structure Admitted (L : Locale) (c : AskCall) (s : Store) : Prop where
  room : s.hasRoom c.ownerId c.now = true
  question : ∀ q ∈ s.questions, q.toAsked.matchesCall L c = false
  conversation : ∀ v ∈ s.conversations, ¬ (v.ownerId = c.ownerId ∧ v.initialIdempotencyKey = c.idempotencyKey)

theorem admits_iff : s.admits L c = true ↔ Admitted L c s := by
  simp only [Store.admits, Bool.and_eq_true, Bool.not_eq_true', List.any_eq_false, Bool.not_eq_true,
    decide_eq_true_eq]
  constructor
  · rintro ⟨⟨hroom, hquestion⟩, hconversation⟩
    exact ⟨hroom, hquestion, hconversation⟩
  · intro h
    exact ⟨⟨h.room, h.question⟩, h.conversation⟩

/-- A row that nothing stands against is inserted. -/
theorem rows_insertIgnore {ρ κ : Type} [DecidableEq κ] {key : ρ → κ} {t : Table key} {r : ρ} {p : ρ → Bool}
    (hkey : ∀ r' ∈ t, key r' ≠ key r) (hclash : ∀ r' ∈ t, p r' = false) :
    (t.insertIgnore r p).rows = t.rows ++ [r] := by
  obtain ⟨-, r', hr', h | h⟩ | ⟨-, h⟩ := t.insertIgnore_cases r p
  · exact absurd h (hkey r' hr')
  · rw [hclash r' hr'] at h
    cases h
  · exact h

theorem create_of_admits (hfresh : c.Fresh s) (h : Admitted L c s) :
    ∃ s', s.create L c = some (some (c.row L), s') ∧ Created L c s s' := by
  have hconversations := rows_insertIgnore (t := s.conversations) (r := c.conversation L)
    (p := fun v => v.ownerId = c.ownerId && v.initialIdempotencyKey = c.idempotencyKey) hfresh.conversation
    (fun v hv => by simpa using h.conversation v hv)
  have hmessages := rows_insertIgnore (t := s.messages) (r := c.message)
    (p := fun m => m.sourceId = c.questionId && m.role = .user) (fun m hm => (hfresh.message m hm).1)
    (fun m hm => by simp [(hfresh.message m hm).2])
  have hquestions := rows_insertIgnore (t := s.questions) (r := c.row L) (p := fun q => q.matchesCall L c)
    hfresh.question h.question
  have hadmits := admits_iff.2 h
  have hfind : (s.conversations.insertIgnore (c.conversation L)
      fun v => v.ownerId = c.ownerId && v.initialIdempotencyKey = c.idempotencyKey).find? c.conversationId =
        some (c.conversation L) := by
    rw [Table.find?_eq_some_iff, ← Table.mem_rows, hconversations]
    exact ⟨by simp, rfl⟩
  have hinserted : (s.questions.rows.any fun q => q.key = c.questionId || q.matchesCall L c) = false := by
    simp only [List.any_eq_false, Bool.or_eq_true, decide_eq_true_eq, not_or, Bool.not_eq_true]
    exact fun q hq => ⟨hfresh.question q hq, h.question q hq⟩
  refine ⟨⟨s.conversations.insertIgnore (c.conversation L)
      fun v => v.ownerId = c.ownerId && v.initialIdempotencyKey = c.idempotencyKey,
    s.messages.insertIgnore c.message fun m => m.sourceId = c.questionId && m.role = .user,
    s.questions.insertIgnore (c.row L) fun q => q.matchesCall L c⟩, ?_, ⟨hconversations, hmessages, hquestions⟩⟩
  have howner : (c.conversation L).ownerId = c.ownerId := rfl
  simp only [Store.create, hadmits, if_true, hfind, Option.filter_some, howner, decide_true, hinserted,
    Bool.not_false]
  rw [if_pos]
  simp only [Store.hasThread, hconversations, hmessages, List.any_append, Bool.and_eq_true, Bool.or_eq_true]
  refine ⟨.inr ?_, .inr ?_⟩
  · simp [AskCall.conversation, AskCall.asked]
  · simp [AskCall.message, AskCall.asked]

theorem create_of_not_admits (hfresh : c.Fresh s) (h : ¬ Admitted L c s) : s.create L c = some (none, s) := by
  have hadmits : s.admits L c = false := Bool.eq_false_iff.2 fun hadmits => h (admits_iff.1 hadmits)
  have hfind : s.conversations.find? c.conversationId = none := Table.find?_eq_none_iff.2 hfresh.conversation
  simp [Store.create, hadmits, hfind]

/-! ## What no request changes -/

/-- What was asked, of all questions. -/
def Store.asked (s : Store) : List Asked := s.questions.rows.map (·.toAsked)

/-- The owners and keys of the conversations. -/
def Store.keys (s : Store) : List (String × String) :=
  s.conversations.rows.map fun v => (v.ownerId, v.initialIdempotencyKey)

def Asked.ownerKey (q : Asked) : String × String := (q.ownerId, q.idempotencyKey)

/-- Nothing is asked, and no conversation begins or goes. -/
structure Kept (s s' : Store) : Prop where
  asked : s'.asked = s.asked
  keys : s'.keys = s.keys

theorem Kept.refl (s : Store) : Kept s s := ⟨rfl, rfl⟩

theorem Kept.trans {s'' : Store} (h : Kept s s') (h' : Kept s' s'') : Kept s s'' :=
  ⟨h'.asked.trans h.asked, h'.keys.trans h.keys⟩

theorem kept_updateQuestions (s : Store) (p : Question → Bool) {f : Question → Question}
    (hf : ∀ q, (f q).key = q.key) (hasked : ∀ q, (f q).toAsked = q.toAsked) : Kept s (s.updateQuestions p f hf) :=
  ⟨s.questions.map_update p f hf hasked, rfl⟩

theorem kept_released (s : Store) (p : Question → Bool) (status : Status) (failureCode : String) (availableAt : ℤ) :
    Kept s (s.updateQuestions p (Question.released status failureCode availableAt)
      (Question.released_key status failureCode availableAt)) :=
  kept_updateQuestions s p _ fun _ => rfl

theorem kept_sweep (s : Store) (now : ℤ) : Kept s (s.sweep now) :=
  (((kept_released s _ _ _ _).trans (kept_released _ _ _ _ _)).trans (kept_released _ _ _ _ _)).trans
    (kept_released _ _ _ _ _)

theorem kept_claim (s : Store) (workerId leaseToken : String) (now : ℤ) :
    Kept s (s.claim workerId leaseToken now) := by
  unfold Store.claim
  dsimp only
  split
  · exact kept_sweep s now
  · exact (kept_sweep s now).trans (kept_updateQuestions _ _ (Question.claimed_key _) fun _ => rfl)

theorem kept_complete {id leaseToken assistantMessageId : String} {a : Answer} {now : ℤ}
    (h : s.complete id leaseToken assistantMessageId a now = some s') : Kept s s' := by
  unfold Store.complete at h
  split at h
  · cases h
    exact Kept.refl s
  · dsimp only at h
    split at h
    · cases h
      constructor
      · exact s.questions.map_update _ _ (Question.answeredWith_key a assistantMessageId) fun _ => rfl
      · exact s.conversations.map_update _ _ (Conversation.active_id now) fun _ => rfl
    · cases h

def AskOutcome.isCreated : AskOutcome → Bool
  | .created _ => true
  | _ => false

/-- What is made out afterwards is no creation. -/
theorem isCreated_madeOut : (s.madeOut L c).isCreated = false := by
  unfold Store.madeOut
  split
  · rfl
  · split
    · rfl
    · rfl

/-- The call with the outcome `CREATED`; its query reads nothing then. -/
def Batch.created? (L : Locale) (s : Store) : Batch → Option AskCall
  | .create c => if ((createNewsQuestion L c s).2 s).isCreated then some c else none
  | _ => none

/-- The calls of a run that created a question, oldest first. -/
def createdCalls (L : Locale) : Store → List Batch → List AskCall
  | _, [] => []
  | s, b :: bs => (b.created? L s).toList ++ createdCalls L (step L s b).2 bs

/-- The batch is no question, or draws new ids. -/
def Batch.Fresh (s : Store) : Batch → Prop
  | .create c => c.Fresh s
  | _ => True

instance (s : Store) : (b : Batch) → Decidable (b.Fresh s)
  | .create c => inferInstanceAs (Decidable (c.Fresh s))
  | .claim .. | .complete .. | .release .. => .isTrue trivial

/-- What a batch may do: create a question, or keep what was asked. -/
theorem step_cases {b : Batch} (hfresh : b.Fresh s) :
    (∃ c, b = .create c ∧ b.created? L s = some c ∧ Admitted L c s ∧ Created L c s (step L s b).2) ∨
      (b.created? L s = none ∧ Kept s (step L s b).2) := by
  cases b with
  | create c =>
    by_cases hquery : deriveRetrievalQuery L c.question = ""
    · right
      simp only [Batch.created?, step, createNewsQuestion, hquery, if_true]
      exact ⟨rfl, Kept.refl s⟩
    · by_cases hadmitted : Admitted L c s
      · left
        obtain ⟨s', hcreate, hcreated⟩ := create_of_admits hfresh hadmitted
        simp only [Batch.created?, step, createNewsQuestion, hquery, if_false, hcreate]
        exact ⟨c, rfl, rfl, hadmitted, hcreated⟩
      · right
        have hcreate := create_of_not_admits hfresh hadmitted
        simp only [Batch.created?, step, createNewsQuestion, hquery, if_false, hcreate, isCreated_madeOut]
        exact ⟨rfl, Kept.refl s⟩
  | claim workerId leaseToken now => exact .inr ⟨rfl, kept_claim s workerId leaseToken now⟩
  | complete id leaseToken assistantMessageId a now =>
    refine .inr ⟨rfl, ?_⟩
    simp only [step]
    cases h : s.complete id leaseToken assistantMessageId a now with
    | none => exact Kept.refl s
    | some s' => exact kept_complete h
  | release id leaseToken status failureCode availableAt =>
    exact .inr ⟨rfl, kept_released s _ _ _ _⟩

theorem asked_created (h : Created L c s s') : s'.asked = s.asked ++ [c.asked L] := by
  rw [Store.asked, h.questions, List.map_append]
  rfl

theorem asked_step {b : Batch} (hfresh : b.Fresh s) :
    (step L s b).2.asked = s.asked ++ (b.created? L s).toList.map (·.asked L) := by
  obtain ⟨c, -, hc, -, hcreated⟩ | ⟨hnone, hkept⟩ := step_cases (L := L) hfresh
  · rw [asked_created hcreated, hc]
    rfl
  · rw [hkept.asked, hnone]
    simp

/-- What was asked after a run: what was asked before, and the calls created. -/
theorem asked_run {batches : List Batch} (h : Along (step L) Batch.Fresh s batches) :
    (run (step L) s batches).asked = s.asked ++ (createdCalls L s batches).map (·.asked L) := by
  induction batches generalizing s with
  | nil => simp [createdCalls]
  | cons b bs ih =>
    rw [run_cons, ih h.2, asked_step h.1, createdCalls, List.map_append, List.append_assoc]

/-! ## Owners and keys -/

/-- A conversation for each question, and one question under each key. -/
structure Keyed (s : Store) : Prop where
  threads : s.keys = s.asked.map Asked.ownerKey
  nodup : (s.asked.map Asked.ownerKey).Nodup

theorem keyed_empty : Keyed Store.empty := ⟨rfl, List.nodup_nil⟩

theorem keyed_created (hadmitted : Admitted L c s) (hcreated : Created L c s s') (h : Keyed s) : Keyed s' := by
  have hasked := asked_created hcreated
  constructor
  · rw [hasked, List.map_append, ← h.threads, Store.keys, hcreated.conversations, List.map_append]
    rfl
  · rw [hasked, List.map_append, List.nodup_append]
    refine ⟨h.nodup, List.nodup_singleton _, ?_⟩
    rintro k hk k' hk' rfl
    obtain ⟨a, ha, rfl⟩ := List.mem_map.1 hk
    obtain ⟨q, hq, rfl⟩ := List.mem_map.1 ha
    have hsame : q.toAsked.ownerKey = (c.ownerId, c.idempotencyKey) := List.mem_singleton.1 hk'
    obtain ⟨howner, hkey⟩ := Prod.mk.inj hsame
    have hclash := hadmitted.question q hq
    simp [Asked.matchesCall, howner, hkey] at hclash

theorem keyed_step {b : Batch} (hfresh : b.Fresh s) (h : Keyed s) : Keyed (step L s b).2 := by
  obtain ⟨c, -, -, hadmitted, hcreated⟩ | ⟨-, hkept⟩ := step_cases (L := L) hfresh
  · exact keyed_created hadmitted hcreated h
  · exact ⟨by rw [hkept.keys, hkept.asked, h.threads], by rw [hkept.asked]; exact h.nodup⟩

theorem keyed_run {batches : List Batch} (h : Along (step L) Batch.Fresh Store.empty batches) :
    Keyed (run (step L) Store.empty batches) :=
  run_invariant (fun _ _ => keyed_step) h keyed_empty

/-- Without a question under its key, a call is refused for the limits or for
    the digest of another question. -/
theorem admitted_of_hasRoom (hkeyed : Keyed s) (hroom : s.hasRoom c.ownerId c.now = true)
    (hnone : ∀ a ∈ s.asked, a.matchesCall L c = false) : Admitted L c s := by
  refine ⟨hroom, fun q hq => hnone _ (List.mem_map_of_mem hq), ?_⟩
  rintro v hv ⟨howner, hkey⟩
  have hthread : (v.ownerId, v.initialIdempotencyKey) ∈ s.asked.map Asked.ownerKey := by
    rw [← hkeyed.threads]
    exact List.mem_map_of_mem hv
  obtain ⟨a, ha, hsame⟩ := List.mem_map.1 hthread
  obtain ⟨howner', hkey'⟩ := Prod.mk.inj hsame
  have hmatches := hnone a ha
  simp [Asked.matchesCall, howner', hkey', howner, hkey] at hmatches

/-! ## Making out the outcome -/

theorem existing_eq_none_iff : s.existing L c = none ↔ ∀ a ∈ s.asked, a.matchesCall L c = false := by
  simp only [Store.existing, Option.or_eq_none_iff, List.find?_eq_none, Store.asked, List.forall_mem_map,
    Asked.matchesCall, Bool.and_eq_true, decide_eq_true_eq, Bool.and_eq_false_iff, Bool.or_eq_false_iff,
    decide_eq_false_iff_not]
  constructor
  · rintro ⟨hkey, hhash⟩ q hq
    by_cases howner : q.ownerId = c.ownerId
    · exact .inr ⟨fun h => hkey q hq ⟨howner, h⟩, fun h => hhash q hq ⟨howner, h⟩⟩
    · exact .inl howner
  · intro h
    constructor
    · rintro q hq ⟨howner, hkey⟩
      exact (h q hq).elim (fun hne => hne howner) fun hne => hne.1 hkey
    · rintro q hq ⟨howner, hhash⟩
      exact (h q hq).elim (fun hne => hne howner) fun hne => hne.2 hhash

/-- The question under the key goes before the one with the digest. -/
theorem existing_of_key {q : Question} (hkeyed : Keyed s) (hq : q ∈ s.questions)
    (hkey : q.toAsked.ownerKey = (c.ownerId, c.idempotencyKey)) : s.existing L c = some q := by
  have hfind : (s.questions.rows.find? fun q => q.ownerId = c.ownerId && q.idempotencyKey = c.idempotencyKey) = some q := by
    obtain ⟨howner, hkey'⟩ := Prod.mk.inj hkey
    cases hfind : s.questions.rows.find? fun q => q.ownerId = c.ownerId && q.idempotencyKey = c.idempotencyKey with
    | none =>
      have hnone := List.find?_eq_none.1 hfind q hq
      simp [howner, hkey'] at hnone
    | some q' =>
      have hsame := List.find?_some hfind
      simp only [Bool.and_eq_true, decide_eq_true_eq] at hsame
      have hmem := List.mem_of_find?_eq_some hfind
      have hnodup : (s.questions.rows.map fun q => q.toAsked.ownerKey).Nodup := by
        have h := hkeyed.nodup
        rwa [Store.asked, List.map_map] at h
      have heq : q'.toAsked.ownerKey = q.toAsked.ownerKey := by
        rw [hkey, Asked.ownerKey, hsame.1, hsame.2]
      rw [List.inj_on_of_nodup_map hnodup hmem hq heq]
  rw [Store.existing, hfind, Option.some_or]

theorem mem_of_existing {q : Question} (h : s.existing L c = some q) :
    q ∈ s.questions ∧ q.ownerId = c.ownerId := by
  rw [Store.existing, Option.or_eq_some_iff] at h
  obtain h | ⟨-, h⟩ := h
  · have hfound := List.find?_some h
    simp only [Bool.and_eq_true, decide_eq_true_eq] at hfound
    exact ⟨List.mem_of_find?_eq_some h, hfound.1⟩
  · have hfound := List.find?_some h
    simp only [Bool.and_eq_true, decide_eq_true_eq] at hfound
    exact ⟨List.mem_of_find?_eq_some h, hfound.1⟩

theorem asked_inj (hkeyed : Keyed s) {a a' : Asked} (ha : a ∈ s.asked) (ha' : a' ∈ s.asked)
    (h : a.ownerKey = a'.ownerKey) : a = a' :=
  List.inj_on_of_nodup_map hkeyed.nodup ha ha' h

/-! ## The promise -/

/-- A call of `createNewsQuestion` in a run: the batches that land before its
    own, and those that land between its own and its query. -/
structure Asking where
  before : List Batch
  call : AskCall
  between : List Batch

namespace Asking

variable (L : Locale) (a : Asking)

def batches : List Batch := a.before ++ .create a.call :: a.between

/-- The store that the batch finds, that it leaves, and that the query reads. -/
def found : Store := run (step L) Store.empty a.before

def left : Store := (createNewsQuestion L a.call (a.found L)).1

def queried : Store := run (step L) (a.left L) a.between

def outcome : AskOutcome := (createNewsQuestion L a.call (a.found L)).2 (a.queried L)

end Asking

/-- The same question of the same owner under the same key. -/
structure AskCall.Repeats (L : Locale) (c₀ c : AskCall) : Prop where
  owner : c₀.ownerId = c.ownerId
  key : c₀.idempotencyKey = c.idempotencyKey
  text : L.text c₀.question = L.text c.question

/-- On one UTC day, or on two days with which the digests of the text collide. -/
def AskCall.SameDay (L : Locale) (c₀ c : AskCall) : Prop :=
  utcDay c₀.now = utcDay c.now ∨
    sha256 (utcDay c₀.now ++ "\n" ++ L.text c.question) = sha256 (utcDay c.now ++ "\n" ++ L.text c.question)

/-- What the outcome of a call promises. -/
structure Faithful (L : Locale) (a : Asking) : Prop where
  /-- a question that was created is found again -/
  repeated : ∀ c₀ ∈ createdCalls L Store.empty a.before, c₀.Repeats L a.call →
    ∃ q ∈ (a.queried L).questions, q.toAsked = c₀.asked L ∧
      ∃ title, a.outcome L = .existing (publicNewsQuestion q title)
  /-- the key is of another question -/
  conflict : a.outcome L = .conflict → ∃ c₁ ∈ createdCalls L Store.empty a.batches,
    c₁.ownerId = a.call.ownerId ∧ c₁.idempotencyKey = a.call.idempotencyKey ∧
      L.text c₁.question ≠ L.text a.call.question
  /-- a limit is reached -/
  capacity : a.outcome L = .capacity → (a.found L).hasRoom a.call.ownerId a.call.now = false
  created : (a.outcome L).isCreated = true → Created L a.call (a.found L) (a.left L)
  others : (a.outcome L).isCreated = false → a.left L = a.found L

theorem questionHash_eq_iff {c₀ : AskCall} (h : L.text c₀.question = L.text c.question) :
    c₀.questionHash L = c.questionHash L ↔ c₀.SameDay L c := by
  unfold AskCall.questionHash AskCall.SameDay
  rw [h]
  refine ⟨.inr, ?_⟩
  rintro (hday | hcollide)
  · rw [hday]
  · exact hcollide

theorem createdCalls_append (s : Store) (batches batches' : List Batch) :
    createdCalls L s (batches ++ batches') =
      createdCalls L s batches ++ createdCalls L (run (step L) s batches) batches' := by
  induction batches generalizing s with
  | nil => rfl
  | cons b bs ih => simp only [List.cons_append, createdCalls, run_cons, ih, List.append_assoc]

theorem query_of_mem_createdCalls {batches : List Batch} {c₀ : AskCall} (h : c₀ ∈ createdCalls L s batches) :
    deriveRetrievalQuery L c₀.question ≠ "" := by
  induction batches generalizing s with
  | nil => cases h
  | cons b bs ih =>
    rw [createdCalls, List.mem_append] at h
    rcases h with h | h
    · cases b with
      | create c =>
        rw [Option.mem_toList, Batch.created?, Option.ite_none_right_eq_some] at h
        obtain ⟨hcreated, heq⟩ := h
        obtain rfl := Option.some.inj heq
        intro hquery
        simp [createNewsQuestion, hquery, AskOutcome.isCreated] at hcreated
      | claim _ _ _ => cases h
      | complete _ _ _ _ _ => cases h
      | release _ _ _ _ _ => cases h
    · exact ih h

/-- The ways a call goes: no query, created, refused. -/
theorem asking_cases {a : Asking} (hfresh : a.call.Fresh (a.found L)) :
    (deriveRetrievalQuery L a.call.question = "" ∧ a.left L = a.found L ∧ a.outcome L = .noRetrievalQuery) ∨
    (Admitted L a.call (a.found L) ∧ Created L a.call (a.found L) (a.left L) ∧
      ∃ item, a.outcome L = .created item) ∨
    (¬ Admitted L a.call (a.found L) ∧ a.left L = a.found L ∧ a.outcome L = (a.queried L).madeOut L a.call) := by
  unfold Asking.outcome Asking.left createNewsQuestion
  by_cases hquery : deriveRetrievalQuery L a.call.question = ""
  · rw [if_pos hquery]
    exact .inl ⟨hquery, rfl, rfl⟩
  · rw [if_neg hquery]
    by_cases hadmitted : Admitted L a.call (a.found L)
    · obtain ⟨s', hcreate, hcreated⟩ := create_of_admits hfresh hadmitted
      rw [hcreate]
      exact .inr (.inl ⟨hadmitted, hcreated, _, rfl⟩)
    · rw [create_of_not_admits hfresh hadmitted]
      exact .inr (.inr ⟨hadmitted, rfl, rfl⟩)

theorem run_batches (a : Asking) : run (step L) Store.empty a.batches = a.queried L := by
  rw [Asking.batches, run_append]
  rfl

theorem createdCalls_before {a : Asking} {c₀ : AskCall} (h : c₀ ∈ createdCalls L Store.empty a.before) :
    c₀ ∈ createdCalls L Store.empty a.batches := by
  rw [Asking.batches, createdCalls_append]
  exact List.mem_append_left _ h

section
variable {a : Asking} (hfresh : Along (step L) Batch.Fresh Store.empty a.batches)
include hfresh

theorem fresh_call : a.call.Fresh (a.found L) := by
  rw [Asking.batches, along_append, along_cons] at hfresh
  exact hfresh.2.1

theorem keyed_found : Keyed (a.found L) := by
  rw [Asking.batches, along_append] at hfresh
  exact keyed_run hfresh.1

theorem keyed_queried : Keyed (a.queried L) := by
  rw [← run_batches a]
  exact keyed_run hfresh

theorem asked_queried : (a.queried L).asked = (createdCalls L Store.empty a.batches).map (·.asked L) := by
  rw [← run_batches a, asked_run hfresh]
  rfl

theorem asked_found : (a.found L).asked = (createdCalls L Store.empty a.before).map (·.asked L) := by
  rw [Asking.batches, along_append] at hfresh
  rw [Asking.found, asked_run hfresh.1]
  rfl

theorem asked_of_mem {c₀ : AskCall} (h : c₀ ∈ createdCalls L Store.empty a.batches) :
    c₀.asked L ∈ (a.queried L).asked := by
  rw [asked_queried hfresh]
  exact List.mem_map_of_mem h

/-- A refused repetition is made out by the question under its key. -/
theorem madeOut_of_repeats {c₀ : AskCall} (h : c₀ ∈ createdCalls L Store.empty a.batches)
    (hrepeats : c₀.Repeats L a.call) : ∃ q ∈ (a.queried L).questions, q.toAsked = c₀.asked L ∧
      (a.queried L).existing L a.call = some q := by
  obtain ⟨q, hq, hasked⟩ := List.mem_map.1 (asked_of_mem hfresh h)
  refine ⟨q, hq, hasked, existing_of_key (keyed_queried hfresh) hq ?_⟩
  rw [hasked]
  exact congrArg₂ Prod.mk hrepeats.owner hrepeats.key

/-- On the days of the earlier calls, a repetition finds its question. -/
theorem faithful_of_sameDay (hday : ∀ c₀ ∈ createdCalls L Store.empty a.batches, c₀.Repeats L a.call →
    c₀.SameDay L a.call) : Faithful L a := by
  have hhash : ∀ c₀ ∈ createdCalls L Store.empty a.batches, c₀.Repeats L a.call →
      c₀.questionHash L = a.call.questionHash L := fun c₀ h₀ hrepeats =>
    (questionHash_eq_iff hrepeats.text).2 (hday c₀ h₀ hrepeats)
  obtain ⟨hquery, hleft, hout⟩ | ⟨hadmitted, hcreated, item, hout⟩ | ⟨hrefused, hleft, hout⟩ :=
    asking_cases (fresh_call hfresh)
  · rw [deriveRetrievalQuery] at hquery
    constructor
    · intro c₀ h₀ hrepeats
      have hquery₀ := query_of_mem_createdCalls h₀
      rw [deriveRetrievalQuery, hrepeats.text] at hquery₀
      exact absurd hquery hquery₀
    · rw [hout]
      rintro ⟨⟩
    · rw [hout]
      rintro ⟨⟩
    · rw [hout]
      rintro ⟨⟩
    · exact fun _ => hleft
  · constructor
    · intro c₀ h₀ hrepeats
      have hasked : c₀.asked L ∈ (a.found L).asked := by
        rw [asked_found hfresh]
        exact List.mem_map_of_mem h₀
      obtain ⟨q, hq, heq⟩ := List.mem_map.1 hasked
      have hclash := hadmitted.question q hq
      rw [heq] at hclash
      simp [Asked.matchesCall, AskCall.asked, hrepeats.owner, hrepeats.key] at hclash
    · rw [hout]
      rintro ⟨⟩
    · rw [hout]
      rintro ⟨⟩
    · exact fun _ => hcreated
    · rw [hout]
      rintro ⟨⟩
  · have hmade : (a.outcome L).isCreated = false := by
      rw [hout]
      exact isCreated_madeOut
    constructor
    · intro c₀ h₀ hrepeats
      obtain ⟨q, hq, hasked, hexisting⟩ := madeOut_of_repeats hfresh (createdCalls_before h₀) hrepeats
      refine ⟨q, hq, hasked, ((a.queried L).conversations.find? q.conversationId).map (·.title), ?_⟩
      have hsame : q.questionHash = a.call.questionHash L := by
        rw [hasked]
        exact hhash c₀ (createdCalls_before h₀) hrepeats
      rw [hout, Store.madeOut, hexisting]
      exact if_neg fun h => h.2 hsame
    · intro hconflict
      rw [hout, Store.madeOut] at hconflict
      cases hexisting : (a.queried L).existing L a.call with
      | none => simp [hexisting] at hconflict
      | some q =>
        simp only [hexisting] at hconflict
        split at hconflict
        · next hother =>
          obtain ⟨hq, howner⟩ := mem_of_existing hexisting
          have hasked : q.toAsked ∈ (a.queried L).asked := List.mem_map_of_mem hq
          rw [asked_queried hfresh] at hasked
          obtain ⟨c₁, h₁, heq⟩ := List.mem_map.1 hasked
          rw [← heq] at hother howner
          refine ⟨c₁, h₁, howner, hother.1, fun htext => hother.2 ?_⟩
          exact hhash c₁ h₁ ⟨howner, hother.1, htext⟩
        · cases hconflict
    · intro hcapacity
      rw [hout, Store.madeOut] at hcapacity
      cases hexisting : (a.queried L).existing L a.call with
      | some q =>
        simp only [hexisting] at hcapacity
        split at hcapacity
        · cases hcapacity
        · cases hcapacity
      | none =>
        rw [existing_eq_none_iff, asked_queried hfresh] at hexisting
        refine Bool.eq_false_iff.2 fun hroom => hrefused (admitted_of_hasRoom (keyed_found hfresh) hroom ?_)
        intro asked hasked
        rw [asked_found hfresh] at hasked
        obtain ⟨c₀, h₀, rfl⟩ := List.mem_map.1 hasked
        exact hexisting _ (List.mem_map_of_mem (createdCalls_before h₀))
    · rw [hmade]
      rintro ⟨⟩
    · exact fun _ => hleft

/-- What was created under the key on another day comes out as a conflict. -/
theorem sameDay_of_faithful (hfaithful : Faithful L a) {c₀ : AskCall}
    (h₀ : c₀ ∈ createdCalls L Store.empty a.batches) (hrepeats : c₀.Repeats L a.call) : c₀.SameDay L a.call := by
  rw [← questionHash_eq_iff hrepeats.text]
  have hasked := asked_of_mem hfresh h₀
  have hinj : ∀ x ∈ (a.queried L).asked, x.ownerId = a.call.ownerId → x.idempotencyKey = a.call.idempotencyKey →
      c₀.asked L = x := by
    intro x hx howner hkey
    refine asked_inj (keyed_queried hfresh) hasked hx ?_
    rw [Asked.ownerKey, Asked.ownerKey, howner, hkey]
    exact congrArg₂ Prod.mk hrepeats.owner hrepeats.key
  obtain ⟨hquery, -, -⟩ | ⟨-, hcreated, -⟩ | ⟨-, -, hout⟩ := asking_cases (fresh_call hfresh)
  · have hquery₀ := query_of_mem_createdCalls h₀
    rw [deriveRetrievalQuery] at hquery hquery₀
    rw [hrepeats.text] at hquery₀
    exact absurd hquery hquery₀
  · have hown : a.call.asked L ∈ (a.queried L).asked := by
      have hleft : a.call.asked L ∈ (a.left L).asked := by
        rw [asked_created hcreated]
        exact List.mem_append_right _ List.mem_cons_self
      rw [Asking.batches, along_append, along_cons] at hfresh
      have hrest : Along (step L) Batch.Fresh (a.left L) a.between := hfresh.2.2
      rw [Asking.queried, asked_run hrest]
      exact List.mem_append_left _ hleft
    exact congrArg Asked.questionHash (hinj _ hown rfl rfl)
  · obtain ⟨q, -, heq, hexisting⟩ := madeOut_of_repeats hfresh h₀ hrepeats
    by_contra hne
    have hconflict : a.outcome L = .conflict := by
      rw [hout, Store.madeOut, hexisting]
      refine if_pos ⟨?_, ?_⟩
      · rw [heq]
        exact hrepeats.key
      · rw [heq]
        exact hne
    obtain ⟨c₁, h₁, howner, hkey, htext⟩ := hfaithful.conflict hconflict
    have hsame := congrArg Asked.question (hinj _ (asked_of_mem hfresh h₁) howner hkey)
    have hquestion : c₀.question = c₁.question := hsame
    rw [← hquestion] at htext
    exact htext hrepeats.text

end

/-- **The outcome of a question is faithful** if and only if every question that
    was created of it under the key was asked on its UTC day.  Any batches may
    land before the call, and between its batch and its query. -/
theorem ask_faithful_iff (L : Locale) (a : Asking) (hfresh : Along (step L) Batch.Fresh Store.empty a.batches) :
    Faithful L a ↔
      ∀ c₀ ∈ createdCalls L Store.empty a.batches, c₀.Repeats L a.call → c₀.SameDay L a.call :=
  ⟨fun hfaithful _ h₀ hrepeats => sameDay_of_faithful hfresh hfaithful h₀ hrepeats, faithful_of_sameDay hfresh⟩

/-! ## Midnight -/

/-- The texts of a lower-case ASCII question without blanks to spare. -/
def plainLocale : Locale where
  normalizedQuestion question := question
  lower := Text.lower
  keywords question := question
  provisionalAssistantTitle question := question

/-- The question of an owner, asked for the n-th time so many minutes after a
    UTC midnight. -/
def goldQuestion (n : String) (minutes : ℤ) : AskCall where
  ownerId := "owner"
  idempotencyKey := "question-key-0001"
  question := "gold price"
  now := 739000 * IsoTime.day + minutes * IsoTime.minute
  questionId := "question-" ++ n
  conversationId := "conversation-" ++ n
  userMessageId := "message-" ++ n

/-- Asked again at once. -/
theorem ask_faithful_at_once :
    Faithful plainLocale ⟨[.create (goldQuestion "1" 0)], goldQuestion "2" 1, []⟩ := by
  refine (ask_faithful_iff plainLocale ⟨[.create (goldQuestion "1" 0)], goldQuestion "2" 1, []⟩
    (by decide)).2 fun c₀ h₀ _ => ?_
  have hcalls : createdCalls plainLocale Store.empty
      (Asking.batches ⟨[.create (goldQuestion "1" 0)], goldQuestion "2" 1, []⟩) = [goldQuestion "1" 0] := by
    decide +kernel
  rw [hcalls, List.mem_singleton] at h₀
  subst h₀
  exact .inl (by decide)

/-- **Asked again two minutes later, after midnight**: the question was created,
    and its repetition is a conflict. -/
theorem ask_conflict_after_midnight :
    let a : Asking := ⟨[.create (goldQuestion "1" (-1))], goldQuestion "2" 1, []⟩
    createdCalls plainLocale Store.empty a.before = [goldQuestion "1" (-1)] ∧
      (goldQuestion "1" (-1)).Repeats plainLocale a.call ∧ a.outcome plainLocale = .conflict ∧
      ¬ Faithful plainLocale a := by
  intro a
  have hcalls : createdCalls plainLocale Store.empty a.before = [goldQuestion "1" (-1)] := by decide
  have hrepeats : (goldQuestion "1" (-1)).Repeats plainLocale a.call := ⟨rfl, rfl, rfl⟩
  have hout : a.outcome plainLocale = .conflict := by decide +kernel
  refine ⟨hcalls, hrepeats, hout, fun hfaithful => ?_⟩
  obtain ⟨q, -, -, title, h⟩ := hfaithful.repeated (goldQuestion "1" (-1)) (by simp [hcalls]) hrepeats
  rw [hout] at h
  cases h

end Xauusd.Questions
