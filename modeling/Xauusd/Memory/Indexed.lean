/-
  The index holds what the messages say (`assistant-memory-index.ts`).

  * `Owns`: what a batch of the memory leaves of messages and owners;
  * `Recorded`: an entry is of one message and one job, with its digest, its
    terms and its vector;
  * `Indexed`: the invariant of the index;
  * `Steps`: the invariant holds after a batch, and what was indexed stays;
  * `steps_memory`, `steps_claim`, `steps_complete`, `steps_fail`: the batches;
  * `complete_lost`: a completion that has lost its lease is aborted;
  * `index_sound`: **in every run the index holds what the messages say**.
-/
import Xauusd.Memory.Compaction
import Xauusd.Memory.Indexing

namespace Xauusd.Memory

open Program

/-! ## The batches of the memory -/

/-- Messages are kept, and the conversations with their owners. -/
structure Owns (m m' : Store) : Prop where
  messages : m'.messages = m.messages
  owners : ∀ c ∈ m.conversations, ∃ c' ∈ m'.conversations, c'.id = c.id ∧ c'.ownerId = c.ownerId

section
variable {m m' m'' : Store}

theorem Owns.refl (m : Store) : Owns m m := ⟨rfl, fun c hc => ⟨c, hc, rfl, rfl⟩⟩

theorem Owns.trans (h : Owns m m') (h' : Owns m' m'') : Owns m m'' := by
  refine ⟨h'.messages.trans h.messages, fun c hc => ?_⟩
  obtain ⟨c', hc', hid, howner⟩ := h.owners c hc
  obtain ⟨c'', hc'', hid', howner'⟩ := h'.owners c' hc'
  exact ⟨c'', hc'', hid'.trans hid, howner'.trans howner⟩

/-- The other tables do not matter. -/
theorem Owns.congr (h : Owns m m') (hmessages : m''.messages = m'.messages)
    (hconversations : m''.conversations = m'.conversations) : Owns m m'' := by
  refine ⟨hmessages.trans h.messages, ?_⟩
  rw [hconversations]
  exact h.owners

theorem owns_updateConversations (m : Store) {q : Conversation → Bool} {g : Conversation → Conversation}
    {hg : ∀ c, (g c).id = c.id} (howner : ∀ c, (g c).ownerId = c.ownerId) : Owns m (m.updateConversations q g hg) := by
  refine ⟨rfl, fun c hc => ?_⟩
  by_cases hq : q c
  · exact ⟨g c, (Table.mem_update hg).2 ⟨c, hc, (if_pos hq).symm⟩, hg c, howner c⟩
  · exact ⟨c, (Table.mem_update hg).2 ⟨c, hc, (if_neg hq).symm⟩, rfl, rfl⟩

theorem owns_schedule {b : Schedule} (hexec : m.scheduleCompaction b = some m') : Owns m m' := by
  obtain ⟨m₂, hm₂, rfl⟩ := scheduleCompaction_eq_some hexec
  have hrequest : Owns m (m.requestJob b) := owns_updateConversations m fun _ => rfl
  have howns : Owns m m₂ := by
    split at hm₂
    · obtain ⟨jobs, rfl, -⟩ := insertJob_eq_some hm₂
      exact hrequest.congr rfl rfl
    · cases hm₂
      exact hrequest
  split
  · exact howns
  · exact howns.trans (owns_updateConversations m₂ fun _ => rfl)

theorem owns_claim (m : Store) (workerId leaseToken : String) (now : ℤ) : Owns m (m.claimJob workerId leaseToken now) := by
  have hclear : Owns m (m.updateConversations (fun c => c.pendingCompactionJobId.any fun id =>
      m.jobs.rows.any fun j => j.id = id && j.lapsed now && j.spent) Conversation.clear Conversation.clear_id) :=
    owns_updateConversations m fun _ => rfl
  have hrecover : Owns m (m.recoverJobs now) := hclear.congr rfl rfl
  unfold Store.claimJob
  dsimp only
  split
  · exact hrecover
  · exact hrecover.congr rfl rfl

theorem owns_complete {b : Completion} (hexec : m.completeJob b = some m') : Owns m m' := by
  obtain ⟨m₃, hm₃, hadvance⟩ := completeJob_eq_some hexec
  have howns : Owns m m₃ := by
    split at hm₃
    · cases hm₃
      exact (Owns.refl m).congr rfl rfl
    · obtain ⟨m₂, hm₂, hm₃⟩ := Option.bind_eq_some_iff.1 hm₃
      obtain ⟨⟨summaries, rfl, -⟩, -⟩ := insertSummary_eq_some hm₂
      obtain ⟨pins, rfl⟩ := insertPins_frame hm₃
      exact (Owns.refl m).congr rfl rfl
  obtain ⟨-, rfl⟩ := advance_eq_some hadvance
  exact howns.trans (owns_updateConversations m₃ fun _ => rfl)

/-- A batch keeps the messages, or a message of a conversation is said. -/
theorem exec_owns {b : Batch} (hexec : exec b m = some m') :
    Owns m m' ∨ ∃ said, m'.messages.rows = m.messages.rows ++ [said] ∧ m'.conversations = m.conversations ∧
      ∃ c ∈ m.conversations, c.id = said.conversationId := by
  cases b with
  | converse id ownerId =>
    simp only [exec] at hexec
    obtain ⟨conversations, hinsert, rfl⟩ := Option.map_eq_some_iff.1 hexec
    exact .inl ⟨rfl, fun c hc => ⟨c, (Table.mem_insertAll hinsert).2 (.inl hc), rfl, rfl⟩⟩
  | say said =>
    simp only [exec] at hexec
    split at hexec
    · next hany =>
      obtain ⟨messages, hinsert, rfl⟩ := Option.map_eq_some_iff.1 hexec
      obtain ⟨c, hc, hid⟩ := List.any_eq_true.1 hany
      exact .inr ⟨said, Table.rows_insertAll hinsert, rfl, c, hc, of_decide_eq_true hid⟩
    · cases hexec
  | pin entry =>
    left
    simp only [exec, Store.createPin] at hexec
    split at hexec
    · cases hexec
    · split at hexec
      · cases hexec
        exact .refl m
      · obtain ⟨pins, -, rfl⟩ := Option.map_eq_some_iff.1 hexec
        exact (Owns.refl m).congr rfl rfl
  | schedule b => exact .inl (owns_schedule hexec)
  | claim workerId leaseToken now =>
    cases hexec
    exact .inl (owns_claim m workerId leaseToken now)
  | complete b => exact .inl (owns_complete hexec)
  | release b =>
    cases hexec
    have hclear : Owns m (m.updateConversations (fun c => c.pendingCompactionJobId = some b.id && b.terminal)
        Conversation.clear Conversation.clear_id) := owns_updateConversations m fun _ => rfl
    exact .inl (hclear.congr rfl rfl)

end

/-! ## The invariant -/

/-- An entry is of one message and of the job that was completed with it. -/
structure Recorded (N : Normal) (s : IndexStore) (e : MemoryEntry) (m : Message) (j : IndexJob) : Prop where
  job : j ∈ s.jobs
  message : m ∈ s.memory.messages
  source : j.sourceMessageId = m.id
  id : e.id = entryIdOf j
  sourceJobId : e.sourceJobId = j.id
  owner : e.ownerId = j.ownerId
  conversation : e.conversationId = m.conversationId
  sourceMessageId : e.sourceMessageId = m.id
  role : e.sourceRole = m.role
  createdAt : e.sourceCreatedAt = m.createdAt
  digest : e.sourceContentSha256 = sha256 m.content
  version : e.indexVersion = ASSISTANT_MEMORY_INDEX_VERSION
  termCount : e.termCount = (tokenizeAssistantMemory N m.content maxIndexTerms).length
  ended : ∃ completedAt, j.phase = .completed e.sourceContentSha256 e.termCount completedAt
  terms : ∀ term, (∃ t ∈ s.terms, t.entryId = e.id ∧ t.term = term) ↔
    term ∈ tokenizeAssistantMemory N m.content maxIndexTerms
  vector : ∃ v ∈ s.vectors, v.entryId = e.id ∧ v.ownerId = e.ownerId ∧ v.vectorId = vectorIdOf e.id

/-- The status is `COMPLETED`. -/
def IndexPhase.isCompleted : IndexPhase → Bool
  | completed _ _ _ => true
  | _ => false

/-- Every message has one job, and every job that is completed one entry. -/
structure Indexed (N : Normal) (s : IndexStore) : Prop where
  messages : ∀ m ∈ s.memory.messages, ∃ c ∈ s.memory.conversations, c.id = m.conversationId
  covered : ∀ m ∈ s.memory.messages, ∃ j ∈ s.jobs, j.sourceMessageId = m.id
  jobs : ∀ j ∈ s.jobs, ∃ m ∈ s.memory.messages, ∃ c ∈ s.memory.conversations, c.id = m.conversationId ∧
    j.toIndexInputs = .ofMessage c m
  attempts : ∀ j ∈ s.jobs, j.attemptCount ≤ j.maxAttempts ∧ (j.phase = .pending → j.attemptCount < j.maxAttempts)
  entries : ∀ e ∈ s.entries, ∃ m j, Recorded N s e m j
  ended : ∀ j ∈ s.jobs, j.phase.isCompleted = true → ∃ e ∈ s.entries, e.sourceJobId = j.id
  terms : ∀ t ∈ s.terms, ∃ e ∈ s.entries, e.id = t.entryId ∧ e.ownerId = t.ownerId ∧
    e.sourceCreatedAt = t.sourceCreatedAt
  vectors : ∀ v ∈ s.vectors, ∃ e ∈ s.entries, e.id = v.entryId ∧ e.ownerId = v.ownerId
  leases : ∀ j ∈ s.jobs, ∀ l, j.phase = .processing l → (l.token, j) ∈ s.claims
  tokens : (s.claims.map Prod.fst).Nodup

theorem indexed_empty (N : Normal) : Indexed N .empty where
  messages := by rintro m ⟨⟩
  covered := by rintro m ⟨⟩
  jobs := by rintro j ⟨⟩
  attempts := by rintro j ⟨⟩
  entries := by rintro e ⟨⟩
  ended := by rintro j ⟨⟩
  terms := by rintro t ⟨⟩
  vectors := by rintro v ⟨⟩
  leases := by rintro j ⟨⟩
  tokens := List.nodup_nil

/-! ## Steps -/

/-- The job has ended. -/
def IndexPhase.over : IndexPhase → Bool
  | completed _ _ _ | failed _ => true
  | _ => false

/-- What was indexed stays: the messages, the inputs of the jobs, the jobs that
    have ended, the entries with their terms and vectors. -/
structure Stays (s s' : IndexStore) : Prop where
  messages : ∀ m ∈ s.memory.messages, m ∈ s'.memory.messages
  jobs : ∀ j ∈ s.jobs, ∃ j' ∈ s'.jobs, j'.toIndexInputs = j.toIndexInputs ∧ (j.phase.over = true → j' = j)
  entries : ∀ e ∈ s.entries, e ∈ s'.entries
  terms : ∀ t ∈ s.terms, t ∈ s'.terms
  vectors : ∀ v ∈ s.vectors, v ∈ s'.vectors
  claims : ∀ e ∈ s.claims, e ∈ s'.claims

/-- The invariant holds after a batch, and what was indexed stays. -/
structure Steps (N : Normal) (s s' : IndexStore) : Prop where
  indexed : Indexed N s'
  stays : Stays s s'

section
variable {N : Normal} {s s' s'' : IndexStore}

theorem Stays.refl (s : IndexStore) : Stays s s :=
  ⟨fun _ h => h, fun j hj => ⟨j, hj, rfl, fun _ => rfl⟩, fun _ h => h, fun _ h => h, fun _ h => h, fun _ h => h⟩

theorem Stays.trans (h : Stays s s') (h' : Stays s' s'') : Stays s s'' where
  messages := fun m hm => h'.messages m (h.messages m hm)
  jobs := by
    intro j hj
    obtain ⟨j', hj', hinputs, hover⟩ := h.jobs j hj
    obtain ⟨j'', hj'', hinputs', hover'⟩ := h'.jobs j' hj'
    refine ⟨j'', hj'', hinputs'.trans hinputs, fun ho => ?_⟩
    obtain rfl := hover ho
    exact hover' ho
  entries := fun e he => h'.entries e (h.entries e he)
  terms := fun t ht => h'.terms t (h.terms t ht)
  vectors := fun v hv => h'.vectors v (h.vectors v hv)
  claims := fun e he => h'.claims e (h.claims e he)

theorem Steps.refl (h : Indexed N s) : Steps N s s := ⟨h, .refl s⟩

theorem Steps.trans (h : Steps N s s') (h' : Steps N s' s'') : Steps N s s'' := ⟨h'.indexed, h.stays.trans h'.stays⟩

theorem IndexStore.job_inj {j j' : IndexJob} (hj : j ∈ s.jobs) (hj' : j' ∈ s.jobs) (h : j.id = j'.id) : j = j' :=
  s.jobs.eq_of_key_eq hj hj' h

theorem IndexStore.message_inj {m m' : Message} (hm : m ∈ s.memory.messages) (hm' : m' ∈ s.memory.messages)
    (h : m.id = m'.id) : m = m' :=
  s.memory.messages.eq_of_key_eq hm hm' h

/-- The columns of a job are those of its message. -/
theorem Indexed.source (h : Indexed N s) {j : IndexJob} (hj : j ∈ s.jobs) {m : Message} (hm : m ∈ s.memory.messages)
    (hsource : j.sourceMessageId = m.id) :
    j.id = "memory-index:assistant-memory-hybrid-v3:" ++ m.id ∧ j.conversationId = m.conversationId ∧
      j.sourceCreatedAt = m.createdAt ∧ j.indexVersion = ASSISTANT_MEMORY_INDEX_VERSION ∧
      ∃ c ∈ s.memory.conversations, c.id = m.conversationId ∧ j.ownerId = c.ownerId := by
  obtain ⟨m₀, hm₀, c, hc, hid, hinputs⟩ := h.jobs j hj
  have hsame : m₀ = m := by
    refine IndexStore.message_inj hm₀ hm ?_
    rw [← hsource, congrArg IndexInputs.sourceMessageId hinputs]
    rfl
  subst hsame
  exact ⟨congrArg IndexInputs.id hinputs, congrArg IndexInputs.conversationId hinputs,
    congrArg IndexInputs.sourceCreatedAt hinputs, congrArg IndexInputs.indexVersion hinputs, c, hc, hid,
    congrArg IndexInputs.ownerId hinputs⟩

/-- A message has one job. -/
theorem Indexed.job_unique (h : Indexed N s) {j j' : IndexJob} (hj : j ∈ s.jobs) (hj' : j' ∈ s.jobs)
    (hsource : j.sourceMessageId = j'.sourceMessageId) : j = j' := by
  obtain ⟨m, hm, c, -, -, hinputs⟩ := h.jobs j hj
  have hm_source : j.sourceMessageId = m.id := congrArg IndexInputs.sourceMessageId hinputs
  refine IndexStore.job_inj hj hj' ?_
  rw [(h.source hj hm hm_source).1, (h.source hj' hm (hsource ▸ hm_source)).1]

/-- What an entry rests on stays. -/
theorem Recorded.keep {e : MemoryEntry} {m : Message} {j : IndexJob} (h : Recorded N s e m j) (hstays : Stays s s')
    (hterms : ∀ t ∈ s'.terms, t.entryId = e.id → t ∈ s.terms) : Recorded N s' e m j := by
  obtain ⟨completedAt, hended⟩ := h.ended
  obtain ⟨j', hj', -, hover⟩ := hstays.jobs j h.job
  obtain rfl := hover (by rw [hended]; rfl)
  refine { h with job := hj', message := hstays.messages m h.message, terms := ?_, vector := ?_ }
  · intro term
    rw [← h.terms term]
    constructor
    · rintro ⟨t, ht, hid, rfl⟩
      exact ⟨t, hterms t ht hid, hid, rfl⟩
    · rintro ⟨t, ht, hid, rfl⟩
      exact ⟨t, hstays.terms t ht, hid, rfl⟩
  · obtain ⟨v, hv, hvector⟩ := h.vector
    exact ⟨v, hstays.vectors v hv, hvector⟩

end

/-! ## Updates of jobs -/

/-- An update of jobs that are not over, none of which it completes. -/
structure Turns (s : IndexStore) (p : IndexJob → Bool) (f : IndexJob → IndexJob) : Prop where
  inputs : ∀ j, (f j).toIndexInputs = j.toIndexInputs
  live : ∀ j ∈ s.jobs, p j = true → j.phase.over = false
  open_ : ∀ j ∈ s.jobs, p j = true → (f j).phase.isCompleted = false
  attempts : ∀ j ∈ s.jobs, p j = true → (f j).attemptCount ≤ j.maxAttempts ∧
    ((f j).phase = .pending → (f j).attemptCount < j.maxAttempts)
  leases : ∀ j ∈ s.jobs, p j = true → ∀ l, (f j).phase = .processing l → (l.token, f j) ∈ s.claims

section
variable {N : Normal} {s s' : IndexStore} {p : IndexJob → Bool} {f : IndexJob → IndexJob}

theorem stays_updateJobs (hinputs : ∀ j, (f j).toIndexInputs = j.toIndexInputs)
    (hlive : ∀ j ∈ s.jobs, p j = true → j.phase.over = false) (hf : ∀ j, (f j).key = j.key) :
    Stays s (s.updateJobs p f hf) := by
  refine ⟨fun _ h => h, fun j hj => ?_, fun _ h => h, fun _ h => h, fun _ h => h, fun _ h => h⟩
  refine ⟨_, (Table.mem_update hf).2 ⟨j, hj, rfl⟩, ?_⟩
  by_cases hp : p j
  · rw [if_pos hp]
    refine ⟨hinputs j, fun hover => ?_⟩
    rw [hlive j hj hp] at hover
    cases hover
  · rw [if_neg hp]
    exact ⟨rfl, fun _ => rfl⟩

/-- **Jobs that are not over move on.** -/
theorem steps_updateJobs (h : Indexed N s) (ht : Turns s p f) (hf : ∀ j, (f j).key = j.key) :
    Steps N s (s.updateJobs p f hf) := by
  have hstays : Stays s (s.updateJobs p f hf) := stays_updateJobs ht.inputs ht.live hf
  refine ⟨?_, hstays⟩
  constructor
  · exact h.messages
  · intro m hm
    obtain ⟨j, hj, hsource⟩ := h.covered m hm
    obtain ⟨j', hj', hinputs, -⟩ := hstays.jobs j hj
    exact ⟨j', hj', (congrArg IndexInputs.sourceMessageId hinputs).trans hsource⟩
  · intro j' hj'
    obtain ⟨j, hj, rfl⟩ := (Table.mem_update hf).1 hj'
    obtain ⟨m, hm, c, hc, hid, hinputs⟩ := h.jobs j hj
    refine ⟨m, hm, c, hc, hid, ?_⟩
    by_cases hp : p j
    · rw [if_pos hp, ht.inputs, hinputs]
    · rw [if_neg hp, hinputs]
  · intro j' hj'
    obtain ⟨j, hj, rfl⟩ := (Table.mem_update hf).1 hj'
    by_cases hp : p j
    · rw [if_pos hp]
      have hmax : (f j).maxAttempts = j.maxAttempts := congrArg IndexInputs.maxAttempts (ht.inputs j)
      rw [hmax]
      exact ht.attempts j hj hp
    · rw [if_neg hp]
      exact h.attempts j hj
  · intro e he
    obtain ⟨m, j, hrecorded⟩ := h.entries e he
    exact ⟨m, j, hrecorded.keep hstays fun t ht _ => ht⟩
  · intro j' hj' hcompleted
    obtain ⟨j, hj, rfl⟩ := (Table.mem_update hf).1 hj'
    by_cases hp : p j
    · rw [if_pos hp, ht.open_ j hj hp] at hcompleted
      cases hcompleted
    · rw [if_neg hp] at hcompleted ⊢
      exact h.ended j hj hcompleted
  · exact h.terms
  · exact h.vectors
  · intro j' hj' l hl
    obtain ⟨j, hj, rfl⟩ := (Table.mem_update hf).1 hj'
    by_cases hp : p j
    · rw [if_pos hp] at hl ⊢
      exact ht.leases j hj hp l hl
    · rw [if_neg hp] at hl ⊢
      exact h.leases j hj l hl
  · exact h.tokens

/-! ## Messages -/

theorem ofMessage_congr {c c' : Conversation} (howner : c'.ownerId = c.ownerId) (m : Message) :
    IndexInputs.ofMessage c m = .ofMessage c' m := by
  unfold IndexInputs.ofMessage
  rw [howner]

/-- The rest of the invariant does not depend on what the memory keeps. -/
theorem steps_owns (h : Indexed N s) {memory : Store} (howns : Owns s.memory memory) :
    Steps N s { s with memory := memory } := by
  have hmessage : ∀ {m : Message}, m ∈ memory.messages ↔ m ∈ s.memory.messages := by
    intro m
    rw [howns.messages]
  have hstays : Stays s { s with memory := memory } :=
    ⟨fun m hm => hmessage.2 hm, fun j hj => ⟨j, hj, rfl, fun _ => rfl⟩, fun _ h => h, fun _ h => h, fun _ h => h,
      fun _ h => h⟩
  refine ⟨?_, hstays⟩
  constructor
  · intro m hm
    obtain ⟨c, hc, hid⟩ := h.messages m (hmessage.1 hm)
    obtain ⟨c', hc', hid', -⟩ := howns.owners c hc
    exact ⟨c', hc', hid'.trans hid⟩
  · exact fun m hm => h.covered m (hmessage.1 hm)
  · intro j hj
    obtain ⟨m, hm, c, hc, hid, hinputs⟩ := h.jobs j hj
    obtain ⟨c', hc', hid', howner⟩ := howns.owners c hc
    exact ⟨m, hmessage.2 hm, c', hc', hid'.trans hid, hinputs.trans (ofMessage_congr howner m)⟩
  · exact h.attempts
  · intro e he
    obtain ⟨m, j, hrecorded⟩ := h.entries e he
    exact ⟨m, j, hrecorded.keep hstays fun t ht _ => ht⟩
  · exact h.ended
  · exact h.terms
  · exact h.vectors
  · exact h.leases
  · exact h.tokens

/-- **A new message gets its job.** -/
theorem steps_said (h : Indexed N s) {memory : Store} {said : Message}
    (hrows : memory.messages.rows = s.memory.messages.rows ++ [said])
    (hconversations : memory.conversations = s.memory.conversations)
    (hconversation : ∃ c ∈ s.memory.conversations, c.id = said.conversationId) :
    Steps N s (({ s with memory := memory } : IndexStore).schedule said) := by
  have hmessage : ∀ {m : Message}, m ∈ memory.messages ↔ m ∈ s.memory.messages ∨ m = said := by
    intro m
    rw [← Table.mem_rows, hrows, List.mem_append, List.mem_singleton, Table.mem_rows]
  have hnew : ∀ m ∈ s.memory.messages, m.id ≠ said.id := by
    have hnodup := memory.messages.nodup
    rw [hrows, List.map_append, List.nodup_append] at hnodup
    exact fun m hm => hnodup.2.2 _ (List.mem_map_of_mem hm) _ (List.mem_singleton_self _)
  obtain ⟨c, hc, hid⟩ := hconversation
  have hfind : memory.conversations.find? said.conversationId = some c := by
    rw [hconversations]
    exact Table.find?_eq_some_iff.2 ⟨hc, hid⟩
  have hsource : ∀ j ∈ s.jobs, j.sourceMessageId ≠ said.id := by
    intro j hj
    obtain ⟨m, hm, c, -, -, hinputs⟩ := h.jobs j hj
    rw [congrArg IndexInputs.sourceMessageId hinputs]
    exact hnew m hm
  have hjobs : ∀ {j : IndexJob}, j ∈ (({ s with memory := memory } : IndexStore).schedule said).jobs ↔
      j ∈ s.jobs ∨ j = .ofMessage c said := by
    intro j
    unfold IndexStore.schedule
    simp only [hfind]
    rcases Table.insertIgnore_cases s.jobs (IndexJob.ofMessage c said) fun j =>
        j.sourceMessageId = said.id && j.indexVersion = ASSISTANT_MEMORY_INDEX_VERSION with
      ⟨-, j', hj', hclash⟩ | ⟨-, hrows⟩
    · exfalso
      obtain ⟨m, hm, c, -, -, hinputs⟩ := h.jobs j' hj'
      have hsource' : j'.sourceMessageId = m.id := congrArg IndexInputs.sourceMessageId hinputs
      rcases hclash with hkey | hclash
      · have hkey : "memory-index:assistant-memory-hybrid-v3:" ++ m.id =
            "memory-index:assistant-memory-hybrid-v3:" ++ said.id := (h.source hj' hm hsource').1.symm.trans hkey
        exact hnew m hm (String.append_right_inj _ |>.1 hkey)
      · simp only [Bool.and_eq_true, decide_eq_true_eq] at hclash
        exact hsource j' hj' hclash.1
    · rw [← Table.mem_rows, hrows, List.mem_append, List.mem_singleton, Table.mem_rows]
  have hmemory : (({ s with memory := memory } : IndexStore).schedule said).memory = memory := by
    unfold IndexStore.schedule
    simp only [hfind]
  have hentries : (({ s with memory := memory } : IndexStore).schedule said).entries = s.entries := by
    unfold IndexStore.schedule
    simp only [hfind]
  have hterms : (({ s with memory := memory } : IndexStore).schedule said).terms = s.terms := by
    unfold IndexStore.schedule
    simp only [hfind]
  have hvectors : (({ s with memory := memory } : IndexStore).schedule said).vectors = s.vectors := by
    unfold IndexStore.schedule
    simp only [hfind]
  have hclaims : (({ s with memory := memory } : IndexStore).schedule said).claims = s.claims := by
    unfold IndexStore.schedule
    simp only [hfind]
  have hstays : Stays s (({ s with memory := memory } : IndexStore).schedule said) := by
    refine ⟨?_, fun j hj => ⟨j, hjobs.2 (.inl hj), rfl, fun _ => rfl⟩, ?_, ?_, ?_, ?_⟩
    · rw [hmemory]
      exact fun m hm => hmessage.2 (.inl hm)
    · rw [hentries]
      exact fun _ h => h
    · rw [hterms]
      exact fun _ h => h
    · rw [hvectors]
      exact fun _ h => h
    · rw [hclaims]
      exact fun _ h => h
  refine ⟨?_, hstays⟩
  constructor
  · rw [hmemory, hconversations]
    intro m hm
    rcases hmessage.1 hm with hm | rfl
    · exact h.messages m hm
    · exact ⟨c, hc, hid⟩
  · rw [hmemory]
    intro m hm
    rcases hmessage.1 hm with hm | rfl
    · obtain ⟨j, hj, hj_source⟩ := h.covered m hm
      exact ⟨j, hjobs.2 (.inl hj), hj_source⟩
    · exact ⟨_, hjobs.2 (.inr rfl), rfl⟩
  · rw [hmemory, hconversations]
    intro j hj
    rcases hjobs.1 hj with hj | rfl
    · obtain ⟨m, hm, hjob⟩ := h.jobs j hj
      exact ⟨m, hmessage.2 (.inl hm), hjob⟩
    · exact ⟨said, hmessage.2 (.inr rfl), c, hc, hid, rfl⟩
  · intro j hj
    rcases hjobs.1 hj with hj | rfl
    · exact h.attempts j hj
    · exact ⟨Nat.zero_le _, fun _ => Nat.zero_lt_succ _⟩
  · rw [hentries]
    intro e he
    obtain ⟨m, j, hrecorded⟩ := h.entries e he
    refine ⟨m, j, hrecorded.keep hstays ?_⟩
    rw [hterms]
    exact fun t ht _ => ht
  · rw [hentries]
    intro j hj hcompleted
    rcases hjobs.1 hj with hj | rfl
    · exact h.ended j hj hcompleted
    · cases hcompleted
  · rw [hterms, hentries]
    exact h.terms
  · rw [hvectors, hentries]
    exact h.vectors
  · rw [hclaims]
    intro j hj l hl
    rcases hjobs.1 hj with hj | rfl
    · exact h.leases j hj l hl
    · cases hl
  · rw [hclaims]
    exact h.tokens

theorem steps_memory (h : Indexed N s) {b : Batch} (hexec : execIndex (.memory b) s = some s') : Steps N s s' := by
  obtain ⟨memory, hmemory, rfl⟩ := Option.map_eq_some_iff.1 hexec
  rcases exec_owns hmemory with howns | ⟨said, hrows, hconversations, hconversation⟩
  · have hnone : memory.messages.rows.drop s.memory.messages.rows.length = [] := by
      rw [howns.messages, List.drop_length]
    rw [hnone]
    exact steps_owns h howns
  · have hone : memory.messages.rows.drop s.memory.messages.rows.length = [said] := by
      rw [hrows, List.drop_left]
    rw [hone]
    exact steps_said h hrows hconversations hconversation

/-! ## Leases -/

theorem IndexJob.heldBy_iff {leaseToken : String} {now : ℤ} {j : IndexJob} :
    j.heldBy leaseToken now = true ↔ ∃ l, j.phase = .processing l ∧ l.token = leaseToken ∧ now < l.expiresAt := by
  cases hphase : j.phase <;> simp [IndexJob.heldBy, hphase]

theorem IndexJob.over_of_lapsed {now : ℤ} {j : IndexJob} (h : j.lapsed now = true) : j.phase.over = false := by
  cases hphase : j.phase <;> simp [IndexJob.lapsed, IndexPhase.over, hphase] at h ⊢

theorem IndexJob.over_of_heldBy {leaseToken : String} {now : ℤ} {j : IndexJob} (h : j.heldBy leaseToken now = true) :
    j.phase.over = false := by
  obtain ⟨l, hl, -⟩ := IndexJob.heldBy_iff.1 h
  rw [hl]
  rfl

theorem steps_recover (h : Indexed N s) (now : ℤ) : Steps N s (s.recoverIndexJobs now) := by
  have hfail : Turns s (fun j => j.lapsed now && j.spent && j.current)
      (IndexJob.become (.failed now) none (some "LEASE_EXPIRED")) := by
    refine ⟨fun _ => rfl, fun j hj hsel => ?_, fun j hj hsel => rfl, fun j hj hsel => ⟨(h.attempts j hj).1, ?_⟩, ?_⟩
    · simp only [Bool.and_eq_true] at hsel
      exact IndexJob.over_of_lapsed hsel.1.1
    · rintro ⟨⟩
    · rintro j hj hsel l ⟨⟩
  have hfailed := steps_updateJobs h hfail (IndexJob.become_key (.failed now) none (some "LEASE_EXPIRED"))
  refine hfailed.trans (steps_updateJobs hfailed.indexed ?_ _)
  refine ⟨fun _ => rfl, fun j hj hsel => ?_, fun j hj hsel => rfl,
    fun j hj hsel => ⟨(hfailed.indexed.attempts j hj).1, ?_⟩, ?_⟩
  · simp only [Bool.and_eq_true] at hsel
    exact IndexJob.over_of_lapsed hsel.1.1
  · intro _
    simp only [Bool.and_eq_true, Bool.not_eq_true', IndexJob.spent, decide_eq_false_iff_not, not_le] at hsel
    exact hsel.1.2
  · rintro j hj hsel l ⟨⟩

/-- A new token is recorded. -/
theorem steps_claims (h : Indexed N s) {leaseToken : String} (row : IndexJob) (hfresh : leaseToken ∉ s.claims.map Prod.fst) :
    Steps N s { s with claims := (leaseToken, row) :: s.claims } := by
  have hstays : Stays s { s with claims := (leaseToken, row) :: s.claims } :=
    ⟨fun _ h => h, fun j hj => ⟨j, hj, rfl, fun _ => rfl⟩, fun _ h => h, fun _ h => h, fun _ h => h,
      fun _ he => List.mem_cons_of_mem _ he⟩
  refine ⟨⟨h.messages, h.covered, h.jobs, h.attempts, ?_, h.ended, h.terms, h.vectors, ?_, ?_⟩, hstays⟩
  · intro e he
    obtain ⟨m, j, hrecorded⟩ := h.entries e he
    exact ⟨m, j, hrecorded.keep hstays fun t ht _ => ht⟩
  · exact fun j hj l hl => List.mem_cons_of_mem _ (h.leases j hj l hl)
  · exact List.nodup_cons.2 ⟨hfresh, h.tokens⟩

theorem steps_claim (h : Indexed N s) {workerId leaseToken : String} {now : ℤ}
    (hfresh : leaseToken ∉ s.claims.map Prod.fst) (hexec : s.claimIndexJob workerId leaseToken now = some s') :
    Steps N s s' := by
  have hrecover := steps_recover h now
  unfold IndexStore.claimIndexJob at hexec
  dsimp only at hexec
  split at hexec
  · cases hexec
    exact hrecover
  · next j hfirst =>
    split at hexec
    · next hattempt =>
      cases hexec
      have hmem := List.mem_filter.1 (Table.mem_of_firstBy hfirst)
      simp only [Bool.and_eq_true, decide_eq_true_eq] at hmem
      obtain ⟨hj, ⟨hpending, -⟩, -⟩ := hmem
      have hrecord := steps_claims hrecover.indexed (j.claimed ⟨workerId, leaseToken, now + indexLease⟩) hfresh
      refine (hrecover.trans hrecord).trans (steps_updateJobs hrecord.indexed ?_
        (IndexJob.claimed_key ⟨workerId, leaseToken, now + indexLease⟩))
      have honly : ∀ j' ∈ (s.recoverIndexJobs now).jobs, decide (j'.id = j.id) = true → j' = j :=
        fun j' hj' hid => IndexStore.job_inj hj' hj (of_decide_eq_true hid)
      refine ⟨fun _ => rfl, fun j' hj' hid => ?_, fun j' hj' hid => rfl, fun j' hj' hid => ⟨?_, ?_⟩, ?_⟩
      · rw [honly j' hj' hid, hpending]
        rfl
      · rw [honly j' hj' hid]
        exact hattempt
      · rintro ⟨⟩
      · rintro j' hj' hid l ⟨⟩
        rw [honly j' hj' hid]
        exact List.mem_cons_self
    · cases hexec

/-- The job that a token was drawn for. -/
theorem Indexed.claim_unique (h : Indexed N s) {leaseToken : String} {j j' : IndexJob} (hj : (leaseToken, j) ∈ s.claims)
    (hj' : (leaseToken, j') ∈ s.claims) : j = j' := by
  have hsame := List.inj_on_of_nodup_map h.tokens hj hj' rfl
  exact congrArg Prod.snd hsame

/-- What the sender of a failure has read: the job that it claimed. -/
def IndexFailure.Reads (s : IndexStore) (b : IndexFailure) : Prop :=
  ∃ row, (b.leaseToken, row) ∈ s.claims ∧ b.terminal = row.spent

theorem steps_fail (h : Indexed N s) {b : IndexFailure} (hreads : b.Reads s) (hexec : s.failIndexJob b = some s') :
    Steps N s s' := by
  obtain ⟨row, hrow, hterminal⟩ := hreads
  unfold IndexStore.failIndexJob at hexec
  split at hexec
  · cases hexec
  · cases hexec
    refine steps_updateJobs h ?_ b.become_key
    have hheld : ∀ {j}, b.holds j = true → j.heldBy b.leaseToken b.now = true := by
      intro j hholds
      rw [IndexFailure.holds, Bool.and_eq_true] at hholds
      exact hholds.2
    have hphase : ∀ j : IndexJob, (j.become b.ended (some b.availableAt) (some b.failureCode)).phase = .failed b.now ∧
        b.terminal = true ∨ (j.become b.ended (some b.availableAt) (some b.failureCode)).phase = .pending ∧
        b.terminal = false := by
      intro j
      show b.ended = _ ∧ _ ∨ b.ended = _ ∧ _
      unfold IndexFailure.ended
      cases b.terminal
      · exact .inr ⟨rfl, rfl⟩
      · exact .inl ⟨rfl, rfl⟩
    refine ⟨fun _ => rfl, fun j hj hholds => IndexJob.over_of_heldBy (hheld hholds), fun j hj hholds => ?_,
      fun j hj hholds => ⟨(h.attempts j hj).1, fun hpending => ?_⟩, fun j hj hholds l hl => ?_⟩
    · rcases hphase j with ⟨hended, -⟩ | ⟨hended, -⟩ <;> rw [hended] <;> rfl
    · rcases hphase j with ⟨hended, -⟩ | ⟨-, hgiven⟩
      · rw [hended] at hpending
        cases hpending
      · obtain ⟨l, hl, htoken, -⟩ := IndexJob.heldBy_iff.1 (hheld hholds)
        have hclaim := h.leases j hj l hl
        rw [htoken] at hclaim
        obtain rfl := h.claim_unique hrow hclaim
        rw [hgiven, IndexJob.spent] at hterminal
        exact not_le.1 (of_decide_eq_false hterminal.symm)
    · rcases hphase j with ⟨hended, -⟩ | ⟨hended, -⟩ <;> rw [hended] at hl <;> cases hl

/-! ## Completions -/

theorem IndexCompletion.holds_iff {b : IndexCompletion} {j : IndexJob} :
    b.holds j = true ↔ j.id = b.id ∧ j.heldBy b.leaseToken b.now = true := by
  simp [IndexCompletion.holds]

/-- The terms of an entry are added to it, by induction on them. -/
theorem insertTerms_entry {e : MemoryEntry} (he : s.entries.find? e.id = some e) {terms : List (List Char)}
    (hexec : s.insertTerms e.id terms = some s') : ∃ table : Table MemoryTerm.key, s' = { s with terms := table } ∧
      table.rows = s.terms.rows ++ terms.map fun term => ⟨e.id, e.ownerId, term, e.sourceCreatedAt⟩ := by
  induction terms generalizing s with
  | nil =>
    obtain rfl := Option.some.inj hexec
    exact ⟨s.terms, rfl, (List.append_nil _).symm⟩
  | cons term terms ih =>
    obtain ⟨s₁, hs₁, hexec⟩ := Option.bind_eq_some_iff.1 hexec
    unfold IndexStore.insertTerm at hs₁
    rw [he] at hs₁
    dsimp only at hs₁
    split at hs₁
    · obtain ⟨table, hinsert, rfl⟩ := Option.map_eq_some_iff.1 hs₁
      have he' : ({ s with terms := table } : IndexStore).entries.find? e.id = some e := he
      obtain ⟨table', rfl, hrows⟩ := ih he' hexec
      refine ⟨table', rfl, hrows.trans ?_⟩
      rw [Table.rows_insertAll hinsert, List.append_assoc, List.map_cons, List.singleton_append]
    · cases hs₁

/-- Without the entry, there are none. -/
theorem insertTerms_missing {entryId : String} (he : s.entries.find? entryId = none) {terms : List (List Char)}
    (hexec : s.insertTerms entryId terms = some s') : s' = s := by
  induction terms generalizing s with
  | nil => exact (Option.some.inj hexec).symm
  | cons term terms ih =>
    obtain ⟨s₁, hs₁, hexec⟩ := Option.bind_eq_some_iff.1 hexec
    unfold IndexStore.insertTerm at hs₁
    rw [he] at hs₁
    obtain rfl := Option.some.inj hs₁
    exact ih he hexec

theorem insertTerms_frame {entryId : String} {terms : List (List Char)}
    (hexec : s.insertTerms entryId terms = some s') : ∃ table : Table MemoryTerm.key, s' = { s with terms := table } := by
  cases hfind : s.entries.find? entryId with
  | none => exact ⟨s.terms, insertTerms_missing hfind hexec⟩
  | some e =>
    obtain rfl : e.id = entryId := (Table.find?_eq_some_iff.1 hfind).2
    obtain ⟨table, rfl, -⟩ := insertTerms_entry hfind hexec
    exact ⟨table, rfl⟩

theorem insertVector_eq_some {v : MemoryVector} (hexec : s.insertVector v = some s') :
    (∃ e ∈ s.entries, e.id = v.entryId ∧ e.ownerId = v.ownerId) ∧ (∀ v' ∈ s.vectors, v'.entryId ≠ v.entryId) ∧
      ∃ table : Table MemoryVector.entryId, s' = { s with vectors := table } ∧ table.rows = s.vectors.rows ++ [v] := by
  unfold IndexStore.insertVector at hexec
  split at hexec
  · next hvalid =>
    obtain ⟨table, hinsert, rfl⟩ := Option.map_eq_some_iff.1 hexec
    obtain ⟨e, he, hsame⟩ := List.any_eq_true.1 hvalid.1
    simp only [Bool.and_eq_true, decide_eq_true_eq] at hsame
    refine ⟨⟨e, he, hsame⟩, fun v' hv' => ?_, table, rfl, Table.rows_insertAll hinsert⟩
    exact (Table.new_of_insertAll hinsert).2 v' hv' v (List.mem_singleton_self v)
  · cases hexec

/-- **A completion that has lost its lease is aborted.** -/
theorem complete_lost (h : Indexed N s) {b : IndexCompletion} (hlost : ∀ j ∈ s.jobs, b.holds j = false) :
    s.completeIndexJob b = none := by
  have hnone : s.jobs.rows.find? b.holds = none :=
    List.find?_eq_none.2 fun j hj hholds => by rw [hlost j hj] at hholds; cases hholds
  refine Option.eq_none_iff_forall_ne_some.2 fun s' hexec => ?_
  obtain ⟨s₁, hs₁, hexec⟩ := Option.bind_eq_some_iff.1 hexec
  unfold IndexStore.insertEntryOf at hs₁
  rw [hnone] at hs₁
  obtain rfl := Option.some.inj hs₁
  obtain ⟨s₂, hs₂, hexec⟩ := Option.bind_eq_some_iff.1 hexec
  obtain ⟨s₃, hs₃, -⟩ := Option.bind_eq_some_iff.1 hexec
  obtain ⟨table, rfl⟩ := insertTerms_frame hs₂
  -- an entry of that id has its vector already
  obtain ⟨⟨e, he, hid, -⟩, hnew, -⟩ := insertVector_eq_some hs₃
  obtain ⟨m, j, hrecorded⟩ := h.entries e he
  obtain ⟨v, hv, hentry, -⟩ := hrecorded.vector
  exact hnew v hv (hentry.trans hid)

/-- What a completion did to the rows. -/
structure Inserted (s s' : IndexStore) (b : IndexCompletion) (j : IndexJob) : Prop where
  job : j ∈ s.jobs
  holds : b.holds j = true
  fresh : ∀ e ∈ s.entries, e.id ≠ b.entryId
  memory : s'.memory = s.memory
  claims : s'.claims = s.claims
  jobs : s'.jobs = s.jobs.update b.holds (IndexJob.become b.ended none none) b.become_key
  entries : s'.entries.rows = s.entries.rows ++ [b.entry j]
  terms : s'.terms.rows = s.terms.rows ++ b.terms.map fun term => ⟨b.entryId, j.ownerId, term, j.sourceCreatedAt⟩
  vectors : s'.vectors.rows = s.vectors.rows ++ [b.vector]

theorem complete_eq_some (h : Indexed N s) {b : IndexCompletion} (hexec : s.completeIndexJob b = some s') :
    ∃ j, Inserted s s' b j := by
  have hsome := hexec
  obtain ⟨s₁, hs₁, hexec⟩ := Option.bind_eq_some_iff.1 hexec
  obtain ⟨s₂, hs₂, hexec⟩ := Option.bind_eq_some_iff.1 hexec
  obtain ⟨s₃, hs₃, hexec⟩ := Option.bind_eq_some_iff.1 hexec
  unfold IndexStore.insertEntryOf at hs₁
  split at hs₁
  · next hnone =>
    have hlost : ∀ j ∈ s.jobs, b.holds j = false := fun j hj => Bool.eq_false_iff.2 (List.find?_eq_none.1 hnone j hj)
    rw [complete_lost h hlost] at hsome
    cases hsome
  · next j hfind =>
    have hj : j ∈ s.jobs := List.mem_of_find?_eq_some hfind
    have hholds : b.holds j = true := List.find?_some hfind
    unfold IndexStore.insertEntry at hs₁
    split at hs₁
    · obtain ⟨entries, hinsert, rfl⟩ := Option.map_eq_some_iff.1 hs₁
      have hentry : entries.find? (b.entry j).id = some (b.entry j) :=
        Table.find?_eq_some_iff.2 ⟨(Table.mem_insertAll hinsert).2 (.inr (List.mem_singleton_self _)), rfl⟩
      obtain ⟨terms, rfl, hterms⟩ := insertTerms_entry
        (show ({ s with entries := entries } : IndexStore).entries.find? (b.entry j).id = some (b.entry j) from hentry) hs₂
      obtain ⟨-, -, vectors, rfl, hvectors⟩ := insertVector_eq_some hs₃
      unfold IndexStore.endIndexJob at hexec
      split at hexec
      · obtain rfl := Option.some.inj hexec
        exact ⟨j, hj, hholds, fun e he => (Table.new_of_insertAll hinsert).2 e he _ (List.mem_singleton_self _), rfl, rfl,
          rfl, Table.rows_insertAll hinsert, hterms, hvectors⟩
      · cases hexec
    · cases hs₁

/-- What the sender of a completion has read: the job and its message. -/
def IndexCompletion.Reads (N : Normal) (s : IndexStore) (b : IndexCompletion) : Prop :=
  ∃ j ∈ s.jobs, ∃ m ∈ s.memory.messages, j.id = b.id ∧ j.sourceMessageId = m.id ∧ b.entryId = entryIdOf j ∧
    b.sourceRole = m.role ∧ b.sourceContentSha256 = sha256 m.content ∧ b.indexVersion = j.indexVersion ∧
    b.terms = tokenizeAssistantMemory N m.content maxIndexTerms ∧ b.ownerId = j.ownerId ∧
    b.vectorId = vectorIdOf b.entryId

theorem Inserted.stays {b : IndexCompletion} {j : IndexJob} (hi : Inserted s s' b j) : Stays s s' := by
  have hupdate : Stays s (s.updateJobs b.holds (IndexJob.become b.ended none none) b.become_key) :=
    @stays_updateJobs s b.holds (IndexJob.become b.ended none none) (fun _ => rfl)
      (fun j' _ hholds => IndexJob.over_of_heldBy (IndexCompletion.holds_iff.1 hholds).2) b.become_key
  constructor
  · rw [hi.memory]
    exact fun m hm => hm
  · rw [hi.jobs]
    exact hupdate.jobs
  · intro e he
    rw [← Table.mem_rows, hi.entries]
    exact List.mem_append_left _ he
  · intro t ht
    rw [← Table.mem_rows, hi.terms]
    exact List.mem_append_left _ ht
  · intro v hv
    rw [← Table.mem_rows, hi.vectors]
    exact List.mem_append_left _ hv
  · rw [hi.claims]
    exact fun e he => he

/-- **The entry of a completed job records its message.** -/
theorem Inserted.recorded {b : IndexCompletion} {j : IndexJob} (hi : Inserted s s' b j) (h : Indexed N s)
    (hreads : b.Reads N s) : ∃ m, Recorded N s' (b.entry j) m (j.become b.ended none none) := by
  obtain ⟨j₀, hj₀, m, hm, hid, hsource, hentry, hrole, hdigest, hversion, hterms, howner, hvector⟩ := hreads
  obtain ⟨hid', -⟩ := IndexCompletion.holds_iff.1 hi.holds
  obtain rfl := IndexStore.job_inj hj₀ hi.job (hid.trans hid'.symm)
  obtain ⟨-, hconversation, hcreated, hcurrent, -⟩ := h.source hj₀ hm hsource
  refine ⟨m, ?_⟩
  constructor
  · rw [hi.jobs]
    exact (Table.mem_update b.become_key).2 ⟨j₀, hj₀, (if_pos hi.holds).symm⟩
  · rw [hi.memory]
    exact hm
  · exact hsource
  · exact hentry
  · rfl
  · rfl
  · exact hconversation
  · exact hsource
  · exact hrole
  · exact hcreated
  · exact hdigest
  · exact hversion.trans hcurrent
  · exact congrArg List.length hterms
  · exact ⟨b.now, rfl⟩
  · intro term
    rw [← hterms]
    constructor
    · rintro ⟨t, ht, htid, rfl⟩
      rw [← Table.mem_rows, hi.terms] at ht
      rcases List.mem_append.1 ht with ht | ht
      · obtain ⟨e, he, heid, -⟩ := h.terms t ht
        exact absurd (heid.trans htid) (hi.fresh e he)
      · obtain ⟨term, hterm, rfl⟩ := List.mem_map.1 ht
        exact hterm
    · intro hterm
      refine ⟨⟨b.entryId, j₀.ownerId, term, j₀.sourceCreatedAt⟩, ?_, rfl, rfl⟩
      rw [← Table.mem_rows, hi.terms]
      exact List.mem_append_right _ (List.mem_map_of_mem hterm)
  · refine ⟨b.vector, ?_, rfl, howner, hvector⟩
    rw [← Table.mem_rows, hi.vectors]
    exact List.mem_append_right _ (List.mem_singleton_self _)

theorem steps_complete (h : Indexed N s) {b : IndexCompletion} (hreads : b.Reads N s)
    (hexec : s.completeIndexJob b = some s') : Steps N s s' := by
  obtain ⟨j, hi⟩ := complete_eq_some h hexec
  have hstays := hi.stays
  obtain ⟨m, hrecorded⟩ := hi.recorded h hreads
  have hentries : ∀ {e : MemoryEntry}, e ∈ s'.entries ↔ e ∈ s.entries ∨ e = b.entry j := by
    intro e
    rw [← Table.mem_rows, hi.entries, List.mem_append, List.mem_singleton, Table.mem_rows]
  have hheld := (IndexCompletion.holds_iff.1 hi.holds).2
  have hjobs : ∀ {j' : IndexJob}, j' ∈ s'.jobs → j' = j.become b.ended none none ∨ j' ∈ s.jobs := by
    intro j' hj'
    rw [hi.jobs] at hj'
    obtain ⟨j₀, hj₀, rfl⟩ := (Table.mem_update b.become_key).1 hj'
    by_cases hholds : b.holds j₀
    · rw [if_pos hholds]
      have hsame : j₀ = j := IndexStore.job_inj hj₀ hi.job
        ((IndexCompletion.holds_iff.1 hholds).1.trans (IndexCompletion.holds_iff.1 hi.holds).1.symm)
      exact .inl (by rw [hsame])
    · rw [if_neg hholds]
      exact .inr hj₀
  refine ⟨?_, hstays⟩
  constructor
  · rw [hi.memory]
    exact h.messages
  · rw [hi.memory]
    intro m' hm'
    obtain ⟨j', hj', hsource⟩ := h.covered m' hm'
    obtain ⟨j'', hj'', hinputs, -⟩ := hstays.jobs j' hj'
    exact ⟨j'', hj'', (congrArg IndexInputs.sourceMessageId hinputs).trans hsource⟩
  · rw [hi.memory]
    intro j' hj'
    rcases hjobs hj' with rfl | hj'
    · exact h.jobs j hi.job
    · exact h.jobs j' hj'
  · intro j' hj'
    rcases hjobs hj' with rfl | hj'
    · exact ⟨(h.attempts j hi.job).1, by rintro ⟨⟩⟩
    · exact h.attempts j' hj'
  · intro e he
    rcases hentries.1 he with he | rfl
    · obtain ⟨m', j', hold⟩ := h.entries e he
      refine ⟨m', j', hold.keep hstays fun t ht hid => ?_⟩
      rw [← Table.mem_rows, hi.terms] at ht
      rcases List.mem_append.1 ht with ht | ht
      · exact ht
      · obtain ⟨term, -, rfl⟩ := List.mem_map.1 ht
        exact absurd hid.symm (hi.fresh e he)
    · exact ⟨m, _, hrecorded⟩
  · intro j' hj' hcompleted
    rcases hjobs hj' with rfl | hj'
    · exact ⟨b.entry j, hentries.2 (.inr rfl), rfl⟩
    · obtain ⟨e, he, hjob⟩ := h.ended j' hj' hcompleted
      exact ⟨e, hentries.2 (.inl he), hjob⟩
  · intro t ht
    rw [← Table.mem_rows, hi.terms] at ht
    rcases List.mem_append.1 ht with ht | ht
    · obtain ⟨e, he, hterm⟩ := h.terms t ht
      exact ⟨e, hentries.2 (.inl he), hterm⟩
    · obtain ⟨term, -, rfl⟩ := List.mem_map.1 ht
      exact ⟨b.entry j, hentries.2 (.inr rfl), rfl, rfl, rfl⟩
  · intro v hv
    rw [← Table.mem_rows, hi.vectors] at hv
    rcases List.mem_append.1 hv with hv | hv
    · obtain ⟨e, he, hvector⟩ := h.vectors v hv
      exact ⟨e, hentries.2 (.inl he), hvector⟩
    · obtain rfl := List.mem_singleton.1 hv
      obtain ⟨v, hv, hentry, howner, -⟩ := hrecorded.vector
      refine ⟨b.entry j, hentries.2 (.inr rfl), rfl, ?_⟩
      have hsame : v = b.vector := by
        refine s'.vectors.eq_of_key_eq hv ?_ hentry
        rw [← Table.mem_rows, hi.vectors]
        exact List.mem_append_right _ (List.mem_singleton_self _)
      rw [← hsame, howner]
  · rw [hi.claims]
    intro j' hj' l hl
    rcases hjobs hj' with rfl | hj'
    · cases hl
    · exact h.leases j' hj' l hl
  · rw [hi.claims]
    exact h.tokens

end

end Xauusd.Memory
