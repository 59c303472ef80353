/-
  What is recalled of other conversations is what was said in them.

  * `overlap_eq`: the terms that an entry is found by are those of its message;
  * `Candidate.Of`, `candidatesById_of`: what the two queries find;
  * `recallItems_spec`, `popItems_spec`: what the loops keep;
  * `Remembers`: what an item says of a message;
  * `historical_sound`: **in every run, what is recalled are earlier messages of
    the owner's other conversations, word for word and each once, within the
    budget; and the index is called complete just when it has all of them**.
-/
import Xauusd.Memory.Historical
import Xauusd.Memory.IndexSound

namespace Xauusd.Memory

open Program

theorem tokenize_nodup (N : Normal) (content : String) (maximumTerms : ℕ) :
    (tokenizeAssistantMemory N content maximumTerms).Nodup := by
  rw [tokenizeAssistantMemory, Tokens.scan_eq]
  have hadd : Tokens.add maximumTerms = Distinct.add Tokens.wanted maximumTerms := by
    funext kept term
    exact Tokens.add_eq term
  exact (Distinct.keep_spec Tokens.wanted maximumTerms _).nodup

section
variable {N : Normal} {s : IndexStore} {r : HistoricalRequest} {queryTerms : List (List Char)}

/-! ## Entries -/

/-- A message that may be recalled. -/
def IndexStore.concerns (s : IndexStore) (r : HistoricalRequest) (m : Message) : Bool :=
  m.conversationId ≠ r.conversationId && decide (m.createdAt < r.currentUser.createdAt) &&
    s.memory.conversations.rows.any fun c => c.id = m.conversationId && c.ownerId = r.ownerId

/-- The message of an entry that is recalled. -/
theorem Recorded.recallable {e : MemoryEntry} {m m' : Message} {j : IndexJob} (h : Recorded N s e m j)
    (hrecallable : s.recallable r e = some m') : m' = m ∧ e.ownerId = r.ownerId ∧ s.concerns r m = true := by
  unfold IndexStore.recallable at hrecallable
  split at hrecallable
  · next hscope =>
    obtain ⟨howner, -, helsewhere, hearlier, hconversation⟩ := hscope
    obtain ⟨hm', hid⟩ := Table.find?_eq_some_iff.1 hrecallable
    refine ⟨IndexStore.message_inj hm' h.message (hid.trans h.sourceMessageId), howner, ?_⟩
    rw [h.conversation] at helsewhere hconversation
    rw [h.createdAt] at hearlier
    simp only [IndexStore.concerns, Bool.and_eq_true, decide_eq_true_eq]
    exact ⟨⟨helsewhere, hearlier⟩, hconversation⟩
  · cases hrecallable

/-- **An entry is found by the terms of its message.** -/
theorem overlap_eq (h : Indexed N s) {e : MemoryEntry} {m : Message} {j : IndexJob} (he : e ∈ s.entries)
    (hrecorded : Recorded N s e m j) (howner : e.ownerId = r.ownerId) (hnodup : queryTerms.Nodup) :
    s.overlap r queryTerms e =
      (queryTerms.filter fun term => term ∈ tokenizeAssistantMemory N m.content maxIndexTerms).length := by
  set rows := s.terms.rows.filter fun t => t.entryId = e.id && t.ownerId = r.ownerId && t.term ∈ queryTerms with hrows
  have hmem : ∀ {t}, t ∈ rows ↔ t ∈ s.terms ∧ t.entryId = e.id ∧ t.ownerId = r.ownerId ∧ t.term ∈ queryTerms := by
    intro t
    rw [hrows, List.mem_filter, Table.mem_rows]
    simp [and_assoc]
  have hkeys : (rows.map MemoryTerm.term).Nodup := by
    have hsub : rows.Nodup := List.Nodup.filter _ (List.Nodup.of_map _ s.terms.nodup)
    refine List.Nodup.map_on (fun t ht t' ht' hterm => ?_) hsub
    obtain ⟨ht, hid, -⟩ := hmem.1 ht
    obtain ⟨ht', hid', -⟩ := hmem.1 ht'
    exact s.terms.eq_of_key_eq ht ht' (Prod.ext (hid.trans hid'.symm) hterm)
  have hperm : (rows.map MemoryTerm.term).Perm
      (queryTerms.filter fun term => term ∈ tokenizeAssistantMemory N m.content maxIndexTerms) := by
    refine (List.perm_ext_iff_of_nodup hkeys (hnodup.filter _)).2 fun term => ?_
    rw [List.mem_map, List.mem_filter, decide_eq_true_iff, ← hrecorded.terms term]
    constructor
    · rintro ⟨t, ht, rfl⟩
      obtain ⟨hmem_t, hid, -, hquery⟩ := hmem.1 ht
      exact ⟨hquery, t, hmem_t, hid, rfl⟩
    · rintro ⟨hquery, t, ht, hid, rfl⟩
      refine ⟨t, hmem.2 ⟨ht, hid, ?_, hquery⟩, rfl⟩
      obtain ⟨e', he', hid', howner', -⟩ := h.terms t ht
      have hsame : e' = e := s.entries.eq_of_key_eq he' he (hid'.trans hid)
      rw [← howner', hsame, howner]
  have hlength := hperm.length_eq
  rwa [List.length_map] at hlength

/-- Entries of one message are one. -/
theorem Indexed.entry_unique (h : Indexed N s) {e e' : MemoryEntry} (he : e ∈ s.entries) (he' : e' ∈ s.entries)
    (hsource : e.sourceMessageId = e'.sourceMessageId) : e = e' := by
  obtain ⟨m, j, hrecorded⟩ := h.entries e he
  obtain ⟨m', j', hrecorded'⟩ := h.entries e' he'
  have hjobs : j = j' := by
    refine h.job_unique hrecorded.job hrecorded'.job ?_
    rw [hrecorded.source, hrecorded'.source, ← hrecorded.sourceMessageId, ← hrecorded'.sourceMessageId, hsource]
  refine s.entries.eq_of_key_eq he he' ?_
  rw [hrecorded.id, hrecorded'.id, hjobs]

/-! ## Candidates -/

/-- A candidate is an entry with its message. -/
structure Candidate.Of (s : IndexStore) (r : HistoricalRequest) (queryTerms : List (List Char)) (c : Candidate) : Prop where
  entry : c.entry ∈ s.entries
  message : ∃ m, s.recallable r c.entry = some m ∧ c.content = m.content
  overlap : c.overlapCount = s.overlap r queryTerms c.entry ∨ c.overlapCount = 0

theorem lexicalRows_of {c : Candidate} (hc : c ∈ s.lexicalRows r queryTerms) : c.Of s r queryTerms := by
  have hc := (List.mem_insertionSort _).1 (List.mem_of_mem_take hc)
  obtain ⟨e, he, hrow⟩ := List.mem_filterMap.1 hc
  split at hrow
  · obtain ⟨m, hm, rfl⟩ := Option.map_eq_some_iff.1 hrow
    exact ⟨he, ⟨m, hm, rfl⟩, .inl rfl⟩
  · cases hrow

theorem semanticRows_of {ids : List String} {hit : String × Candidate} (hhit : hit ∈ s.semanticRows r ids) :
    hit.2.Of s r queryTerms := by
  obtain ⟨v, -, hrow⟩ := List.mem_filterMap.1 hhit
  split at hrow
  · obtain ⟨e, he, hrow⟩ := Option.bind_eq_some_iff.1 hrow
    obtain ⟨m, hm, hrow⟩ := Option.bind_eq_some_iff.1 hrow
    cases hrow
    exact ⟨(Table.find?_eq_some_iff.1 he).1, ⟨m, hm, rfl⟩, .inr rfl⟩
  · cases hrow

/-- What `candidatesById` holds: candidates, each under the id of its entry. -/
structure ById (s : IndexStore) (r : HistoricalRequest) (queryTerms : List (List Char))
    (byId : List (String × Candidate)) : Prop where
  keys : (byId.map Prod.fst).Nodup
  candidates : ∀ hit ∈ byId, hit.1 = hit.2.entry.id ∧ hit.2.Of s r queryTerms

theorem ById.assign {byId : List (String × Candidate)} (h : ById s r queryTerms byId) {c : Candidate}
    (hc : c.Of s r queryTerms) : ById s r queryTerms (byId.assign c.entry.id c) := by
  refine ⟨List.keys_assign_nodup h.keys, fun hit hhit => ?_⟩
  rcases List.mem_assign hhit with rfl | hhit
  · exact ⟨rfl, hc⟩
  · exact h.candidates hit hhit

theorem ById.add_lexical {byId : List (String × Candidate)} (h : ById s r queryTerms byId) {rows : List Candidate}
    (hrows : ∀ c ∈ rows, c.Of s r queryTerms) : ById s r queryTerms (rows.foldl addLexical byId) := by
  induction rows generalizing byId with
  | nil => exact h
  | cons c rows ih =>
    obtain ⟨hc, hrows⟩ := List.forall_mem_cons.1 hrows
    exact ih (h.assign hc) hrows

/-- A semantic candidate takes the place of its entry, or gets one. -/
theorem ById.add_semantic {byId : List (String × Candidate)} (h : ById s r queryTerms byId) (scores : List (String × ℚ))
    {rows : List (String × Candidate)} (hrows : ∀ hit ∈ rows, hit.2.Of s r queryTerms) :
    ById s r queryTerms (rows.foldl (addSemantic scores) byId) := by
  induction rows generalizing byId with
  | nil => exact h
  | cons hit rows ih =>
    obtain ⟨hhit, hrows⟩ := List.forall_mem_cons.1 hrows
    refine ih ?_ hrows
    unfold addSemantic
    cases hlookup : byId.lookup hit.2.entry.id with
    | none =>
      rw [Option.getD_none]
      exact h.assign (c := { hit.2 with semanticScore := some ((scores.lookup hit.1).getD 0) })
        ⟨hhit.entry, hhit.message, hhit.overlap⟩
    | some c =>
      rw [Option.getD_some]
      obtain ⟨l, l', hsplit, -⟩ := List.lookup_eq_some_iff.1 hlookup
      have hmem : (hit.2.entry.id, c) ∈ byId := by
        rw [hsplit]
        exact List.mem_append_right _ List.mem_cons_self
      obtain ⟨hid, hc⟩ := h.candidates _ hmem
      rw [show hit.2.entry.id = c.entry.id from hid]
      exact h.assign (c := { c with semanticScore := some ((scores.lookup hit.1).getD 0) })
        ⟨hc.entry, hc.message, hc.overlap⟩

theorem candidatesById_of (s : IndexStore) (r : HistoricalRequest) (queryTerms : List (List Char)) :
    ById s r queryTerms (candidatesById s r queryTerms) := by
  have hnone : ById s r queryTerms [] := ⟨List.nodup_nil, by rintro hit ⟨⟩⟩
  have hlexical : ById s r queryTerms
      (if queryTerms = [] then [] else (s.lexicalRows r queryTerms).foldl addLexical []) := by
    split
    · exact hnone
    · exact hnone.add_lexical fun c hc => lexicalRows_of hc
  unfold candidatesById
  dsimp only
  split
  · exact hlexical
  · exact hlexical.add_semantic _ fun hit hhit => semanticRows_of hhit

/-- The candidates are of different messages. -/
theorem ById.ranked_of (h : Indexed N s) {byId : List (String × Candidate)} (hid : ById s r queryTerms byId)
    (K : Collation) : (∀ c ∈ ranked K byId, c.Of s r queryTerms) ∧
      ((ranked K byId).map fun c => c.entry.sourceMessageId).Nodup := by
  have hmem : ∀ {c}, c ∈ ranked K byId → ∃ k, (k, c) ∈ byId := by
    intro c hc
    obtain ⟨hit, hhit, rfl⟩ := List.mem_map.1 ((List.mem_insertionSort _).1 (List.mem_of_mem_take hc))
    exact ⟨hit.1, hhit⟩
  refine ⟨fun c hc => ?_, ?_⟩
  · obtain ⟨k, hk⟩ := hmem hc
    exact (hid.candidates _ hk).2
  · have hids : (byId.map fun hit => hit.2.entry.sourceMessageId).Nodup := by
      have hnodup : byId.Nodup := List.Nodup.of_map _ hid.keys
      refine List.Nodup.map_on (fun hit hhit hit' hhit' hsource => ?_) hnodup
      obtain ⟨hkey, hof⟩ := hid.candidates hit hhit
      obtain ⟨hkey', hof'⟩ := hid.candidates hit' hhit'
      refine List.inj_on_of_nodup_map hid.keys hhit hhit' ?_
      rw [hkey, hkey', h.entry_unique hof.entry hof'.entry hsource]
    have hperm : ((byId.map Prod.snd).insertionSort fun c c' => c.notAfter K c' = true).Perm (byId.map Prod.snd) :=
      List.perm_insertionSort _ _
    have hsorted := (hperm.map fun c => c.entry.sourceMessageId).nodup_iff.2 (by rwa [List.map_map])
    exact hsorted.sublist ((List.take_sublist _ _).map _)

end

/-! ## The loops -/

section
variable {E : Estimator} {N : Normal} {queryTerms : List (List Char)} {tokenBudget : ℕ}

/-- What the loops leave of `retrieval`. -/
def Retrieval.sameCounts (a b : Retrieval) : Prop :=
  a.indexComplete = b.indexComplete ∧ a.totalMessages = b.totalMessages ∧ a.indexedMessages = b.indexedMessages ∧
    a.pendingMessages = b.pendingMessages ∧ a.processingMessages = b.processingMessages ∧
    a.failedMessages = b.failedMessages ∧ a.integrityFailures = b.integrityFailures

/-- The loop over candidates whose digests are right keeps some of them, in
    their order. -/
theorem recallItems_spec {candidates : List Candidate} {before retrieval : Retrieval} {kept items : List MemoryItem}
    (hdigest : ∀ c ∈ candidates, sha256 c.content = c.entry.sourceContentSha256)
    (hselected : before.selectedEntries = kept.length) (hbound : kept.length ≤ maxItems)
    (h : recallItems E N queryTerms tokenBudget candidates before kept = (retrieval, items)) :
    (∃ chosen : List Candidate, chosen.Sublist candidates ∧ items = kept ++ chosen.map (Candidate.item N queryTerms)) ∧
      retrieval.selectedEntries = items.length ∧ items.length ≤ maxItems ∧ retrieval.sameCounts before := by
  induction candidates generalizing before kept with
  | nil =>
    cases h
    exact ⟨⟨[], List.nil_sublist _, (List.append_nil _).symm⟩, hselected, hbound, rfl, rfl, rfl, rfl, rfl, rfl, rfl⟩
  | cons c candidates ih =>
    obtain ⟨hc, hdigest⟩ := List.forall_mem_cons.1 hdigest
    rw [recallItems] at h
    split at h
    · cases h
      exact ⟨⟨[], List.nil_sublist _, (List.append_nil _).symm⟩, hselected, hbound, rfl, rfl, rfl, rfl, rfl, rfl, rfl⟩
    · next hroom =>
      rw [if_neg (not_not.2 hc)] at h
      dsimp only at h
      split at h
      · have hlength : (kept ++ [c.item N queryTerms]).length = kept.length + 1 := by simp
        obtain ⟨⟨chosen, hsub, hitems⟩, hrest⟩ := ih hdigest (hlength ▸ rfl) (by rw [hlength]; omega) h
        refine ⟨⟨c :: chosen, hsub.cons_cons c, ?_⟩, hrest⟩
        rw [hitems, List.map_cons, List.append_assoc, List.singleton_append]
      · obtain ⟨⟨chosen, hsub, hitems⟩, hrest⟩ := ih hdigest hselected hbound h
        exact ⟨⟨chosen, hsub.cons c, hitems⟩, hrest⟩

/-- The last loop ends within the budget, or with no item. -/
theorem popItems_spec {items kept : List MemoryItem} {before retrieval : Retrieval}
    (hselected : before.selectedEntries = items.length) (h : popItems E tokenBudget items before = (retrieval, kept)) :
    kept <+: items.reverse ∧ retrieval.selectedEntries = kept.length ∧ retrieval.sameCounts before ∧
      (E.estimateTokens retrieval kept ≤ tokenBudget ∨ kept = []) := by
  induction items generalizing before with
  | nil =>
    cases h
    exact ⟨List.prefix_rfl, hselected, ⟨rfl, rfl, rfl, rfl, rfl, rfl, rfl⟩, .inr rfl⟩
  | cons item items ih =>
    rw [popItems] at h
    split at h
    · obtain ⟨hpre, hrest⟩ := ih rfl h
      refine ⟨?_, hrest⟩
      rw [List.reverse_cons]
      exact hpre.trans (List.prefix_append _ _)
    · next hfits =>
      cases h
      refine ⟨List.prefix_rfl, ?_, ⟨rfl, rfl, rfl, rfl, rfl, rfl, rfl⟩, .inl (not_lt.1 hfits)⟩
      rw [hselected, List.length_reverse]

end

/-! ## Counts -/

section
variable {N : Normal} {s : IndexStore} {r : HistoricalRequest}

/-- The jobs that are counted are those of the messages that may be recalled. -/
theorem mem_counted (h : Indexed N s) {j : IndexJob} (hj : j ∈ s.jobs) {m : Message} (hm : m ∈ s.memory.messages)
    (hsource : j.sourceMessageId = m.id) : j ∈ s.counted r ↔ s.concerns r m = true := by
  obtain ⟨-, hconversation, hcreated, hversion, c, hc, hid, howner⟩ := h.source hj hm hsource
  have hcurrent : j.current = true := decide_eq_true hversion
  unfold IndexStore.counted IndexStore.concerns
  rw [List.mem_filter]
  simp only [Bool.and_eq_true, decide_eq_true_eq, hcurrent, hconversation, hcreated, List.any_eq_true]
  constructor
  · rintro ⟨-, ⟨⟨hmine, -⟩, helsewhere⟩, hearlier⟩
    exact ⟨⟨helsewhere, hearlier⟩, c, hc, hid, howner.symm.trans hmine⟩
  · rintro ⟨⟨helsewhere, hearlier⟩, c', hc', hid', howner'⟩
    have hsame : c' = c := s.memory.conversations.eq_of_key_eq hc' hc (hid'.trans hid.symm)
    rw [hsame] at howner'
    exact ⟨hj, ⟨⟨howner.trans howner', trivial⟩, helsewhere⟩, hearlier⟩

/-- **The total counts the messages that may be recalled.** -/
theorem counted_length (h : Indexed N s) :
    (s.counted r).length = s.memory.messages.rows.countP (s.concerns r) := by
  have hperm : ((s.counted r).map fun j => j.sourceMessageId).Perm
      ((s.memory.messages.rows.filter (s.concerns r)).map Message.id) := by
    have hjobs : (s.counted r).Nodup := (List.Nodup.of_map _ s.jobs.nodup).filter _
    have hids : ((s.counted r).map fun j => j.sourceMessageId).Nodup :=
      hjobs.map_on fun j hj j' hj' hsource =>
        h.job_unique (List.mem_of_mem_filter hj) (List.mem_of_mem_filter hj') hsource
    have hmessages : ((s.memory.messages.rows.filter (s.concerns r)).map Message.id).Nodup :=
      s.memory.messages.nodup.sublist (List.filter_sublist.map _)
    refine (List.perm_ext_iff_of_nodup hids hmessages).2 fun id => ?_
    constructor
    · intro hid
      obtain ⟨j, hj, rfl⟩ := List.mem_map.1 hid
      have hmem : j ∈ s.jobs := List.mem_of_mem_filter hj
      obtain ⟨m, hm, c, -, -, hinputs⟩ := h.jobs j hmem
      have hsource : j.sourceMessageId = m.id := congrArg IndexInputs.sourceMessageId hinputs
      rw [hsource]
      exact List.mem_map_of_mem (List.mem_filter.2 ⟨hm, (mem_counted h hmem hm hsource).1 hj⟩)
    · intro hid
      obtain ⟨m, hm, rfl⟩ := List.mem_map.1 hid
      obtain ⟨hmem, hconcerns⟩ := List.mem_filter.1 hm
      obtain ⟨j, hj, hsource⟩ := h.covered m hmem
      rw [← hsource]
      exact List.mem_map_of_mem ((mem_counted h hj hmem hsource).2 hconcerns)
  have hlength := hperm.length_eq
  rwa [List.length_map, List.length_map, ← List.countP_eq_length_filter] at hlength

/-- A job that is completed has its entry and its vector. -/
theorem isIndexed_eq (h : Indexed N s) {j : IndexJob} (hj : j ∈ s.jobs) : s.isIndexed j = j.phase.isCompleted := by
  unfold IndexStore.isIndexed
  cases hcompleted : j.phase.isCompleted with
  | false => rfl
  | true =>
    obtain ⟨e, he, hjob⟩ := h.ended j hj hcompleted
    obtain ⟨m, j', hrecorded⟩ := h.entries e he
    obtain ⟨v, hv, hentry, -⟩ := hrecorded.vector
    rw [Bool.true_and, List.any_eq_true]
    refine ⟨e, he, ?_⟩
    rw [Bool.and_eq_true, decide_eq_true_eq, List.any_eq_true]
    exact ⟨hjob, v, hv, decide_eq_true hentry⟩

/-- Every job is in one of the four states. -/
theorem length_phases {p : IndexJob → Bool} {jobs : List IndexJob} (h : ∀ j ∈ jobs, p j = j.phase.isCompleted) :
    jobs.length = jobs.countP p + jobs.countP (·.phase.isPending) + jobs.countP (·.phase.isProcessing) +
      jobs.countP (·.phase.isFailed) := by
  induction jobs with
  | nil => rfl
  | cons j jobs ih =>
    obtain ⟨hj, hjobs⟩ := List.forall_mem_cons.1 h
    have hlength := ih hjobs
    have hone : ((if j.phase.isCompleted = true then 1 else 0) + (if j.phase.isPending = true then 1 else 0) +
        (if j.phase.isProcessing = true then 1 else 0) + if j.phase.isFailed = true then 1 else 0) = 1 := by
      cases j.phase <;> rfl
    simp only [List.length_cons, List.countP_cons, hj]
    omega

/-- All that is counted is indexed just when every message that may be recalled
    has an entry. -/
theorem indexComplete_iff (h : Indexed N s) : (s.counted r).length = (s.counted r).countP s.isIndexed ↔
    ∀ m ∈ s.memory.messages, s.concerns r m = true → ∃ e ∈ s.entries, e.sourceMessageId = m.id := by
  rw [eq_comm, List.countP_eq_length]
  constructor
  · intro hall m hm hconcerns
    obtain ⟨j, hj, hsource⟩ := h.covered m hm
    have hindexed := hall j ((mem_counted h hj hm hsource).2 hconcerns)
    rw [isIndexed_eq h hj] at hindexed
    obtain ⟨e, he, hjob⟩ := h.ended j hj hindexed
    obtain ⟨m', j', hrecorded⟩ := h.entries e he
    have hsame : j' = j := IndexStore.job_inj hrecorded.job hj (hrecorded.sourceJobId.symm.trans hjob)
    refine ⟨e, he, ?_⟩
    rw [hrecorded.sourceMessageId, ← hrecorded.source, hsame, hsource]
  · intro hall j hj
    have hmem : j ∈ s.jobs := List.mem_of_mem_filter hj
    obtain ⟨m, hm, c, -, -, hinputs⟩ := h.jobs j hmem
    have hsource : j.sourceMessageId = m.id := congrArg IndexInputs.sourceMessageId hinputs
    obtain ⟨e, he, hentry⟩ := hall m hm ((mem_counted h hmem hm hsource).1 hj)
    obtain ⟨m', j', hrecorded⟩ := h.entries e he
    have hsame : j' = j := by
      refine h.job_unique hrecorded.job hmem ?_
      rw [hrecorded.source, ← hrecorded.sourceMessageId, hentry, hsource]
    obtain ⟨completedAt, hended⟩ := hrecorded.ended
    rw [isIndexed_eq h hmem, ← hsame, hended]
    rfl

end

/-! ## What is recalled -/

/-- What an item says of a message. -/
structure Remembers (N : Normal) (s : IndexStore) (r : HistoricalRequest) (item : MemoryItem) (m : Message) : Prop where
  message : m ∈ s.memory.messages
  concerns : s.concerns r m = true
  content : item.content = m.content
  canonicalMessageIds : item.canonicalMessageIds = [m.id]
  sourceConversationId : item.sourceConversationId = m.conversationId
  role : item.role = m.role
  createdAt : item.createdAt = m.createdAt
  /-- the terms of the question that the message has -/
  matchTerms : item.matchTerms = (tokenizeAssistantMemory N r.currentUser.content maxQueryTerms).filter fun term =>
    term ∈ tokenizeAssistantMemory N m.content maxIndexTerms
  /-- only a message that is found by its vector alone may have none counted -/
  overlap : item.overlapCount = item.matchTerms.length ∨ item.overlapCount = 0

structure HistoricalSound (E : Estimator) (N : Normal) (s : IndexStore) (r : HistoricalRequest)
    (memory : HistoricalMemory) : Prop where
  items : ∀ item ∈ memory.items, ∃ m, Remembers N s r item m
  distinct : (memory.items.map (·.canonicalMessageIds)).Nodup
  bounded : memory.items.length ≤ maxItems
  selected : memory.retrieval.selectedEntries = memory.items.length
  estimate : memory.tokenEstimate = E.estimateTokens memory.retrieval memory.items
  budget : memory.tokenEstimate ≤ r.tokenBudget ∨ memory.items = []
  intact : memory.retrieval.integrityFailures = 0
  total : memory.retrieval.totalMessages = s.memory.messages.rows.countP (s.concerns r)
  counts : memory.retrieval.totalMessages = memory.retrieval.indexedMessages + memory.retrieval.pendingMessages +
    memory.retrieval.processingMessages + memory.retrieval.failedMessages
  complete : memory.retrieval.indexComplete = true ↔
    ∀ m ∈ s.memory.messages, s.concerns r m = true → ∃ e ∈ s.entries, e.sourceMessageId = m.id

section
variable {E : Estimator} {K : Collation} {N : Normal} {s : IndexStore} {r : HistoricalRequest}

/-- The item of a candidate remembers its message. -/
theorem Candidate.Of.remembers (h : Indexed N s) {c : Candidate}
    (hc : c.Of s r (tokenizeAssistantMemory N r.currentUser.content maxQueryTerms)) :
    sha256 c.content = c.entry.sourceContentSha256 ∧
      ∃ m, m.id = c.entry.sourceMessageId ∧
        Remembers N s r (c.item N (tokenizeAssistantMemory N r.currentUser.content maxQueryTerms)) m := by
  obtain ⟨m', hrecallable, hcontent⟩ := hc.message
  obtain ⟨m, j, hrecorded⟩ := h.entries c.entry hc.entry
  obtain ⟨rfl, howner, hconcerns⟩ := hrecorded.recallable hrecallable
  have hmatch : (c.item N (tokenizeAssistantMemory N r.currentUser.content maxQueryTerms)).matchTerms =
      (tokenizeAssistantMemory N r.currentUser.content maxQueryTerms).filter fun term =>
        term ∈ tokenizeAssistantMemory N m'.content maxIndexTerms := by
    rw [Candidate.item, hcontent]
  refine ⟨by rw [hcontent, hrecorded.digest], m', hrecorded.sourceMessageId.symm, ?_⟩
  refine ⟨hrecorded.message, hconcerns, hcontent, ?_, hrecorded.conversation, hrecorded.role, hrecorded.createdAt,
    hmatch, ?_⟩
  · exact congrArg (fun id => [id]) hrecorded.sourceMessageId
  · rcases hc.overlap with hoverlap | hnone
    · left
      rw [hmatch, ← overlap_eq h hc.entry hrecorded howner (tokenize_nodup N _ _)]
      exact hoverlap
    · exact .inr hnone

/-- What is recalled from a sound index is sound. -/
theorem Indexed.historical (h : Indexed N s) (E : Estimator) (K : Collation) (r : HistoricalRequest) :
    HistoricalSound E N s r (retrieveAssistantHistoricalMemory E K N s r) := by
  set queryTerms := tokenizeAssistantMemory N r.currentUser.content maxQueryTerms with hquery
  obtain ⟨hof, hids⟩ := (candidatesById_of s r queryTerms).ranked_of h K
  unfold retrieveAssistantHistoricalMemory
  dsimp only
  rw [← hquery]
  rcases hrecall : recallItems E N queryTerms r.tokenBudget (ranked K (candidatesById s r queryTerms))
    (s.retrieval K r queryTerms (candidatesById s r queryTerms)) [] with ⟨recalled, kept⟩
  obtain ⟨⟨chosen, hchosen, hkept⟩, hselected, hbound, hcounts⟩ := recallItems_spec
    (fun c hc => ((hof c hc).remembers h).1) rfl (Nat.zero_le _) hrecall
  have hintact : recalled.integrityFailures = 0 := hcounts.2.2.2.2.2.2
  dsimp only
  rw [if_neg (not_not.2 hintact)]
  rcases hpop : popItems E r.tokenBudget kept.reverse recalled with ⟨retrieval, items⟩
  obtain ⟨hpre, hlast, hsame, hbudget⟩ := popItems_spec (by rw [List.length_reverse, hselected]) hpop
  rw [List.reverse_reverse] at hpre
  have hitems : items.Sublist (chosen.map (Candidate.item N queryTerms)) := by
    rw [List.nil_append] at hkept
    rw [← hkept]
    exact hpre.sublist
  have htotals : retrieval.totalMessages = (s.counted r).length := hsame.2.1.trans hcounts.2.1
  have hcomplete : retrieval.indexComplete = decide ((s.counted r).length = (s.counted r).countP s.isIndexed) :=
    hsame.1.trans hcounts.1
  constructor
  · intro item hitem
    obtain ⟨c, hc, rfl⟩ := List.mem_map.1 (hitems.subset hitem)
    obtain ⟨-, m, -, hremembers⟩ := (hof c (hchosen.subset hc)).remembers h
    exact ⟨m, hremembers⟩
  · have hmap : (chosen.map (Candidate.item N queryTerms)).map (·.canonicalMessageIds) =
        (chosen.map fun c => c.entry.sourceMessageId).map fun id => [id] := by
      rw [List.map_map, List.map_map]
      rfl
    have hnodup : ((chosen.map (Candidate.item N queryTerms)).map (·.canonicalMessageIds)).Nodup := by
      rw [hmap]
      exact (hids.sublist (hchosen.map _)).map fun id id' hid => (List.cons.inj hid).1
    exact hnodup.sublist (hitems.map _)
  · exact hpre.length_le.trans hbound
  · exact hlast
  · rfl
  · exact hbudget
  · exact hsame.2.2.2.2.2.2.trans hintact
  · rw [htotals, counted_length h]
  · have hindexed : retrieval.indexedMessages = (s.counted r).countP s.isIndexed := hsame.2.2.1.trans hcounts.2.2.1
    have hpending : retrieval.pendingMessages = (s.counted r).countP (·.phase.isPending) :=
      hsame.2.2.2.1.trans hcounts.2.2.2.1
    have hprocessing : retrieval.processingMessages = (s.counted r).countP (·.phase.isProcessing) :=
      hsame.2.2.2.2.1.trans hcounts.2.2.2.2.1
    have hfailed : retrieval.failedMessages = (s.counted r).countP (·.phase.isFailed) :=
      hsame.2.2.2.2.2.1.trans hcounts.2.2.2.2.2.1
    rw [htotals, hindexed, hpending, hprocessing, hfailed]
    exact length_phases fun j hj => isIndexed_eq h (List.mem_of_mem_filter hj)
  · rw [hcomplete, decide_eq_true_iff, indexComplete_iff h]

end

/-- **What is recalled are earlier messages of the owner's other conversations,
    word for word and each once.** -/
theorem historical_sound (E : Estimator) (K : Collation) (N : Normal) {actions : List IndexAction}
    (hactions : Machine.Along (indexStep N) (FlightAction.Meets fun w b => b.Orderly w.state) IndexFlight.initial actions)
    (r : HistoricalRequest) :
    HistoricalSound E N (Machine.run (indexStep N) IndexFlight.initial actions).world.state r
      (retrieveAssistantHistoricalMemory E K N (Machine.run (indexStep N) IndexFlight.initial actions).world.state r) :=
  (index_run N hactions).2.historical E K r

/-- Every item counts for ten tokens. -/
def sampleEstimator : Estimator := ⟨fun _ items => 10 * items.length⟩

def sampleCollation : Collation := ⟨compare⟩

/-- A question in another conversation. -/
def sampleHistorical : HistoricalRequest where
  ownerId := "owner"
  conversationId := "other"
  currentUser := ⟨"question", "other", .user, "gold now", 9, .obj []⟩
  tokenBudget := 10
  semanticMatches := []
  semanticAvailable := false

theorem historical_sound_recalled :
    ((retrieveAssistantHistoricalMemory sampleEstimator sampleCollation plainNormal
        (Machine.run (indexStep plainNormal) IndexFlight.initial (sampleIndexing ++ [.advance 3])).world.state
        sampleHistorical).items.map (·.content)) = ["Gold?"] ∧
      HistoricalSound sampleEstimator plainNormal
        (Machine.run (indexStep plainNormal) IndexFlight.initial (sampleIndexing ++ [.advance 3])).world.state
        sampleHistorical
        (retrieveAssistantHistoricalMemory sampleEstimator sampleCollation plainNormal
          (Machine.run (indexStep plainNormal) IndexFlight.initial (sampleIndexing ++ [.advance 3])).world.state
          sampleHistorical) :=
  ⟨by decide +kernel, historical_sound sampleEstimator sampleCollation plainNormal (by decide +kernel) sampleHistorical⟩

end Xauusd.Memory
