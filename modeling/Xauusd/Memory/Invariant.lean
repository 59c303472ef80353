/-
  What holds of the memory of conversations at all times.

  * `Segment`, `Chain`: summaries of the versions 1 to n that cover a list of
    messages, each the part after the one before;
  * `Waits`: a job is about the first messages that no summary covers;
  * `Sound limit`: the messages are in order, each conversation has its chain,
    its pointer names its active job, if any, and at least `limit` of its users'
    messages come after what is summarized, or about to be;
  * `Chain.versions`, `Chain.afterCover`: the versions of a chain, and what is
    after the last summary;
  * `Grows`: how a store may have changed between the reads of a request.
-/
import Xauusd.Memory.Requests

namespace Xauusd.Memory

variable {limit : ℕ} {s s' : Store}

/-! ## Chains -/

/-- The messages that a summary is of. -/
structure Segment (x : Summary) (segment : List Message) : Prop where
  first : ∃ m, segment.head? = some m ∧ m.id = x.firstSourceMessageId
  last : ∃ m, segment.getLast? = some m ∧ m.place = x.cover
  count : segment.length = x.sourceMessageCount

/-- The summaries of the versions up to `n` cover the messages, one segment
    after the other. -/
inductive Chain : ℕ → List Summary → List Message → Prop
  | nil : Chain 0 [] []
  | snoc {n : ℕ} {xs : List Summary} {covered : List Message} {x : Summary} {segment : List Message} :
    Chain n xs covered → x.version = n + 1 → Segment x segment → Chain (n + 1) (xs ++ [x]) (covered ++ segment)

theorem Chain.versions {n : ℕ} {xs : List Summary} {covered : List Message} (h : Chain n xs covered) :
    xs.map (·.version) = List.range' 1 n := by
  induction h with
  | nil => rfl
  | snoc _ hversion _ ih =>
    rw [List.map_append, ih, List.range'_1_concat, List.map_singleton, hversion, Nat.add_comm]

/-- The summary of the last version covers the last message. -/
theorem Chain.last {n : ℕ} {xs : List Summary} {covered : List Message} (h : Chain n xs covered) :
    n = 0 ∧ covered = [] ∨
      ∃ x m, xs.getLast? = some x ∧ x.version = n ∧ covered.getLast? = some m ∧ m.place = x.cover := by
  cases h with
  | nil => exact .inl ⟨rfl, rfl⟩
  | @snoc n xs covered x segment hchain hversion hsegment =>
    obtain ⟨m, hm, hplace⟩ := hsegment.last
    refine .inr ⟨x, m, List.getLast?_concat, hversion, ?_, hplace⟩
    rw [List.getLast?_append, hm]
    rfl

namespace Store

/-- The messages of a conversation, as they were said. -/
def said (s : Store) (conversationId : String) : List Message :=
  s.messages.rows.filter fun m => m.conversationId = conversationId

def summariesOf (s : Store) (conversationId : String) : List Summary :=
  s.summaries.rows.filter fun x => x.conversationId = conversationId

end Store

/-- The messages of users after a place. -/
def usersAfter (log : List Message) (place : ℤ ×ₗ String) : ℕ :=
  log.countP fun m => m.role = .user && decide (place < m.place)

/-- The sources are the first of the messages, and enough users' messages of the
    log come after them. -/
structure Sources (limit : ℕ) (log messages : List Message) (ids : List String) (selected : List Message) : Prop where
  ids : ids = selected.map (·.id)
  first : selected <+: messages
  last : ∃ m, selected.getLast? = some m ∧ limit ≤ usersAfter log m.place

/-- An active job is about the first messages that no summary covers. -/
structure Waits (limit : ℕ) (s : Store) (c : Conversation) (rest : List Message) (j : Job) : Prop where
  version : j.priorSummaryVersion = c.summaryVersion
  sources : ∃ selected, Sources limit (s.said c.id) rest j.sourceMessageIds selected

/-- The state of a conversation: what is covered, and what is not. -/
structure Covers (limit : ℕ) (s : Store) (c : Conversation) (covered rest : List Message) : Prop where
  said : s.said c.id = covered ++ rest
  chain : Chain c.summaryVersion (s.summariesOf c.id) covered
  waits : ∀ j ∈ s.jobs, j.conversationId = c.id → j.phase.active = true → Waits limit s c rest j

/-- The invariant of the store. -/
structure Sound (limit : ℕ) (s : Store) : Prop where
  ordered : Ordered s.messages.rows
  messages : ∀ m ∈ s.messages, ∃ c ∈ s.conversations, c.id = m.conversationId
  covers : ∀ c ∈ s.conversations, ∃ covered rest, Covers limit s c covered rest
  jobs : ∀ j ∈ s.jobs, ∃ c ∈ s.conversations, c.id = j.conversationId
  summaries : ∀ x ∈ s.summaries, (∃ c ∈ s.conversations, c.id = x.conversationId) ∧
    limit ≤ usersAfter (s.said x.conversationId) x.cover
  pending : ∀ c ∈ s.conversations, ∀ id, c.pendingCompactionJobId = some id ↔
    ∃ j ∈ s.jobs, j.id = id ∧ j.conversationId = c.id ∧ j.phase.active = true
  frozen : ∀ j ∈ s.jobs, j.outputSummaryVersion = j.priorSummaryVersion + 1 ∧ j.sourceMessageIds ≠ [] ∧
    j.pinnedSnapshot.length ≤ maxPinnedEntries
  attempts : ∀ j ∈ s.jobs, j.attemptCount ≤ j.maxAttempts ∧ (j.phase = .pending → j.attemptCount < j.maxAttempts)
  leases : ∀ j ∈ s.jobs, ∀ l, j.phase = .processing l → (l.token, j) ∈ s.claims
  claims : ∀ t row, (t, row) ∈ s.claims → ∃ j ∈ s.jobs, j.toFrozen = row.toFrozen
  tokens : (s.claims.map Prod.fst).Nodup

theorem sound_empty (limit : ℕ) : Sound limit Store.empty where
  ordered := List.Pairwise.nil
  messages := by simp [Store.empty]
  covers := by simp [Store.empty]
  jobs := by simp [Store.empty]
  summaries := by simp [Store.empty]
  pending := by simp [Store.empty]
  frozen := by simp [Store.empty]
  attempts := by simp [Store.empty]
  leases := by simp [Store.empty]
  claims := by simp [Store.empty]
  tokens := List.nodup_nil

/-! ## What it says of the queries -/

theorem Sound.log (h : Sound limit s) (conversationId : String) : s.log conversationId = s.said conversationId :=
  log_of_ordered h.ordered conversationId

theorem Sound.said_ordered (h : Sound limit s) (conversationId : String) :
    (s.said conversationId).Pairwise fun m m' => m.place < m'.place :=
  h.ordered.filter conversationId

theorem mem_said {m : Message} {conversationId : String} :
    m ∈ s.said conversationId ↔ m ∈ s.messages ∧ m.conversationId = conversationId := by
  rw [Store.said, List.mem_filter, Table.mem_rows, decide_eq_true_eq]

/-- A conversation has one active job at most. -/
theorem Sound.active_unique (h : Sound limit s) {c : Conversation} (hc : c ∈ s.conversations) {j j' : Job}
    (hj : j ∈ s.jobs) (hj' : j' ∈ s.jobs) (hconversation : j.conversationId = c.id)
    (hconversation' : j'.conversationId = c.id) (hactive : j.phase.active = true) (hactive' : j'.phase.active = true) :
    j = j' := by
  have hpending := (h.pending c hc j.id).2 ⟨j, hj, rfl, hconversation, hactive⟩
  have hpending' := (h.pending c hc j'.id).2 ⟨j', hj', rfl, hconversation', hactive'⟩
  rw [hpending] at hpending'
  exact s.jobs.eq_of_key_eq hj hj' (Option.some.inj hpending')

/-- A lease is of one claim. -/
theorem Sound.attempts_of_token (h : Sound limit s) {t : String} {row row' : Job} (hrow : (t, row) ∈ s.claims)
    (hrow' : (t, row') ∈ s.claims) : row = row' :=
  (Prod.mk.inj (List.inj_on_of_nodup_map h.tokens hrow hrow' rfl)).2

/-- After the place of the last message of a part of a log comes the rest of it. -/
theorem afterCover_append {covered rest : List Message}
    (hordered : (covered ++ rest).Pairwise fun m m' => m.place < m'.place) {x : Summary} {m : Message}
    (hm : covered.getLast? = some m) (hplace : m.place = x.cover) :
    Store.afterCover (some x) (covered ++ rest) = rest := by
  rw [List.pairwise_append] at hordered
  have hlast : m ∈ covered := List.mem_of_getLast? hm
  rw [Store.afterCover, List.filter_append]
  have hnone : covered.filter (fun m => (some x).all fun x => decide (x.cover < m.place)) = [] := by
    rw [List.filter_eq_nil_iff]
    intro m' hm'
    obtain ⟨before, rfl⟩ := List.getLast?_eq_some_iff.1 hm
    rw [Option.all_some, ← hplace]
    rcases List.mem_append.1 hm' with hm' | hm'
    · have hlt := (List.pairwise_append.1 hordered.1).2.2 m' hm' m List.mem_cons_self
      simpa using hlt.le
    · rw [List.mem_singleton.1 hm']
      simp
  have hall : rest.filter (fun m => (some x).all fun x => decide (x.cover < m.place)) = rest := by
    rw [List.filter_eq_self]
    intro m' hm'
    rw [Option.all_some, ← hplace]
    simpa using hordered.2.2 m hlast m' hm'
  rw [hnone, hall, List.nil_append]

/-- The summary of the conversation's version. -/
theorem Covers.currentSummary {c : Conversation} {covered rest : List Message} (h : Covers limit s c covered rest) :
    (c.summaryVersion = 0 ∧ covered = [] ∧ s.currentSummary c.id c.summaryVersion = .ok none) ∨
      ∃ x m, s.currentSummary c.id c.summaryVersion = .ok (some x) ∧ x ∈ s.summariesOf c.id ∧
        covered.getLast? = some m ∧ m.place = x.cover := by
  rcases h.chain.last with ⟨hzero, hcovered⟩ | ⟨x, m, hx, hversion, hm, hplace⟩
  · exact .inl ⟨hzero, hcovered, if_pos hzero⟩
  · right
    have hmem : x ∈ s.summariesOf c.id := List.mem_of_getLast? hx
    obtain ⟨hrow, hconversation⟩ := List.mem_filter.1 hmem
    have hne : c.summaryVersion ≠ 0 := by
      have hrange : x.version ∈ List.range' 1 c.summaryVersion := by
        rw [← h.chain.versions]
        exact List.mem_map_of_mem hmem
      rw [List.mem_range'_1] at hrange
      omega
    have hnodup : ((s.summariesOf c.id).map (·.version)).Nodup := by
      rw [h.chain.versions]
      exact List.nodup_range'
    have hfind : s.summaryAt c.id c.summaryVersion = some x := by
      cases hfind : s.summaryAt c.id c.summaryVersion with
      | none =>
        have hnone := List.find?_eq_none.1 hfind x hrow
        simp only [decide_eq_true_eq] at hconversation
        simp [hconversation, hversion] at hnone
      | some x' =>
        have hfound := List.find?_some hfind
        simp only [Bool.and_eq_true, decide_eq_true_eq] at hfound
        have hmem' : x' ∈ s.summariesOf c.id :=
          List.mem_filter.2 ⟨List.mem_of_find?_eq_some hfind, by simpa using hfound.1⟩
        rw [List.inj_on_of_nodup_map hnodup hmem' hmem (hfound.2.trans hversion.symm)]
    refine ⟨x, m, ?_, hmem, hm, hplace⟩
    rw [Store.currentSummary, if_neg hne, hfind]

/-- What is after the summary of the conversation's version is what is not
    covered. -/
theorem Covers.afterCover {c : Conversation} {covered rest : List Message} (h : Covers limit s c covered rest)
    (hordered : (s.said c.id).Pairwise fun m m' => m.place < m'.place) {summary : Option Summary}
    (hsummary : s.currentSummary c.id c.summaryVersion = .ok summary) :
    Store.afterCover summary (s.said c.id) = rest := by
  rw [h.said] at hordered ⊢
  rcases h.currentSummary with ⟨-, hcovered, hnone⟩ | ⟨x, m, hsome, -, hm, hplace⟩
  · rw [hnone] at hsummary
    cases hsummary
    rw [hcovered]
    exact List.filter_eq_self.2 fun _ _ => rfl
  · rw [hsome] at hsummary
    cases hsummary
    exact afterCover_append hordered hm hplace

/-! ## How a store may change -/

/-- What a job may become.  An attempt that is its last is not taken over. -/
structure JobLater (j j' : Job) : Prop where
  frozen : j'.toFrozen = j.toFrozen
  ended : j.phase.active = false → j'.phase.active = false
  spent : ∀ l, j.phase = .processing l → j.spent = true → j' = j ∨ j'.phase.active = false

theorem JobLater.refl (j : Job) : JobLater j j := ⟨rfl, id, fun _ _ _ => .inl rfl⟩

theorem JobLater.trans {j j' j'' : Job} (h : JobLater j j') (h' : JobLater j' j'') : JobLater j j'' where
  frozen := h'.frozen.trans h.frozen
  ended := fun hj => h'.ended (h.ended hj)
  spent := by
    intro l hl hspent
    rcases h.spent l hl hspent with rfl | hended
    · exact h'.spent l hl hspent
    · exact .inr (h'.ended hended)

/-- Messages, summaries and claims are added, and the jobs go on. -/
structure Grows (s s' : Store) : Prop where
  messages : s.messages.rows <+: s'.messages.rows
  summaries : s.summaries.rows <+: s'.summaries.rows
  jobs : ∀ j ∈ s.jobs, ∃ j' ∈ s'.jobs, JobLater j j'
  claims : ∀ e ∈ s.claims, e ∈ s'.claims

theorem Grows.refl (s : Store) : Grows s s :=
  ⟨List.prefix_rfl, List.prefix_rfl, fun j hj => ⟨j, hj, .refl j⟩, fun _ he => he⟩

theorem Grows.trans {s'' : Store} (h : Grows s s') (h' : Grows s' s'') : Grows s s'' where
  messages := h.messages.trans h'.messages
  summaries := h.summaries.trans h'.summaries
  jobs := by
    intro j hj
    obtain ⟨j', hj', hlater⟩ := h.jobs j hj
    obtain ⟨j'', hj'', hlater'⟩ := h'.jobs j' hj'
    exact ⟨j'', hj'', hlater.trans hlater'⟩
  claims := fun e he => h'.claims e (h.claims e he)

theorem Grows.said (h : Grows s s') (conversationId : String) : s.said conversationId <+: s'.said conversationId :=
  h.messages.filter _

theorem Grows.job (h : Grows s s') {j j' : Job} (hj : j ∈ s.jobs) (hj' : j' ∈ s'.jobs) (hid : j'.id = j.id) :
    JobLater j j' := by
  obtain ⟨j'', hj'', hlater⟩ := h.jobs j hj
  have hsame : j''.id = j'.id := (congrArg Frozen.id hlater.frozen).trans hid.symm
  rwa [s'.jobs.eq_of_key_eq hj'' hj' hsame] at hlater

/-- A summary that was read is there to stay. -/
theorem Grows.currentSummary (h : Grows s s') {conversationId : String} {version : ℕ} {summary : Option Summary}
    (hsummary : s.currentSummary conversationId version = .ok summary) :
    s'.currentSummary conversationId version = .ok summary := by
  unfold Store.currentSummary at hsummary ⊢
  by_cases hzero : version = 0
  · rwa [if_pos hzero] at hsummary ⊢
  · rw [if_neg hzero] at hsummary ⊢
    cases hfind : s.summaryAt conversationId version with
    | none => simp [hfind] at hsummary
    | some x =>
      obtain ⟨more, hmore⟩ := h.summaries
      have hfind' : s'.summaryAt conversationId version = some x := by
        unfold Store.summaryAt at hfind ⊢
        rw [← hmore, List.find?_append, hfind, Option.some_or]
      rw [hfind'] 
      rwa [hfind] at hsummary

theorem usersAfter_mono {log log' : List Message} (h : log <+: log') (place : ℤ ×ₗ String) :
    usersAfter log place ≤ usersAfter log' place :=
  h.sublist.countP_le

/-- The first messages stay first when more are said. -/
theorem Sources.grow {log log' messages messages' : List Message} {ids : List String} {selected : List Message}
    (h : Sources limit log messages ids selected) (hlog : log <+: log') (hmessages : messages <+: messages') :
    Sources limit log' messages' ids selected := by
  obtain ⟨m, hm, hle⟩ := h.last
  exact ⟨h.ids, h.first.trans hmessages, m, hm, hle.trans (usersAfter_mono hlog _)⟩

end Xauusd.Memory
