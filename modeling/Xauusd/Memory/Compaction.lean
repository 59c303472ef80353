/-
  The batches that open a compaction job and that end it with a summary.

  * `Schedule.Reads`, `Completion.Reads`: what the sender has read, as long as it
    is true where the batch lands;
  * `advances_schedule`: the new job is about the first messages that are not
    summarized;
  * `complete_cases`: a completion finds its job leased, or does nothing;
  * `advances_complete`: the summary is the next of the chain.
-/
import Xauusd.Memory.Landing

namespace Xauusd.Memory

variable {limit : ℕ} {s s' : Store}

/-! ## Scheduling -/

/-- The sources are the first messages after the summary of the version. -/
def Schedule.Reads (limit : ℕ) (s : Store) (b : Schedule) : Prop :=
  b.pinnedSnapshot.length ≤ maxPinnedEntries ∧
    ∃ summary selected, s.currentSummary b.conversationId b.summaryVersion = .ok summary ∧
      Sources limit (s.said b.conversationId) (Store.afterCover summary (s.said b.conversationId)) b.sourceMessageIds selected

theorem Schedule.opens_iff {b : Schedule} {c : Conversation} : b.opens c = true ↔
    c.id = b.conversationId ∧ c.summaryVersion = b.summaryVersion ∧
      c.compactionRequestVersion = b.priorRequestVersion ∧ c.pendingCompactionJobId = none := by
  simp [Schedule.opens, and_assoc]

theorem Schedule.pending_of_requested {b : Schedule} {c : Conversation} (h : b.requested c = true) :
    c.pendingCompactionJobId = some b.jobId := by
  simp only [Schedule.requested, Bool.and_eq_true, decide_eq_true_eq] at h
  exact h.2

/-- The rows of the conversations, when one of them has got the job. -/
theorem mem_request {b : Schedule} {c : Conversation} (hc : c ∈ s.conversations) (hopens : b.opens c = true)
    {c' : Conversation} :
    c' ∈ s.conversations.update b.opens (Conversation.request b.jobId b.requestVersion)
        (Conversation.request_id b.jobId b.requestVersion) ↔
      c' = c.request b.jobId b.requestVersion ∨ c' ∈ s.conversations ∧ c' ≠ c := by
  have honly : ∀ c' ∈ s.conversations, b.opens c' = true → c' = c := fun c' hc' hopens' =>
    Store.conversation_inj hc' hc ((Schedule.opens_iff.1 hopens').1.trans (Schedule.opens_iff.1 hopens).1.symm)
  rw [Table.mem_update]
  constructor
  · rintro ⟨c₀, hc₀, rfl⟩
    by_cases hopens₀ : b.opens c₀
    · rw [if_pos hopens₀, honly c₀ hc₀ hopens₀]
      exact .inl rfl
    · rw [if_neg hopens₀]
      refine .inr ⟨hc₀, ?_⟩
      rintro rfl
      exact hopens₀ hopens
  · rintro (rfl | ⟨hc', hne⟩)
    · exact ⟨c, hc, (if_pos hopens).symm⟩
    · exact ⟨c', hc', (if_neg fun hopens' => hne (honly c' hc' hopens')).symm⟩

/-- The invariant asks of a conversation only its version and its pointer. -/
theorem advances_alike (h : Sound limit s) {conversations : Table Conversation.id}
    (hto : ∀ c' ∈ conversations, ∃ c ∈ s.conversations, c'.id = c.id ∧ c'.summaryVersion = c.summaryVersion ∧
      c'.pendingCompactionJobId = c.pendingCompactionJobId)
    (hfrom : ∀ c ∈ s.conversations, ∃ c' ∈ conversations, c'.id = c.id) :
    Advances limit s { s with conversations := conversations } := by
  have hnamed : ∀ {id}, (∃ c ∈ s.conversations, c.id = id) → ∃ c ∈ conversations, c.id = id := by
    rintro _ ⟨c, hc, rfl⟩
    exact hfrom c hc
  refine ⟨?_, List.prefix_rfl, List.prefix_rfl, fun j hj => ⟨j, hj, .refl j⟩, fun e he => he⟩
  constructor
  · exact h.ordered
  · exact fun m hm => hnamed (h.messages m hm)
  · intro c' hc'
    obtain ⟨c, hc, hid, hversion, -⟩ := hto c' hc'
    obtain ⟨covered, rest, hcovers⟩ := h.covers c hc
    exact ⟨covered, rest, hcovers.keep hid hversion hcovers.said List.prefix_rfl rfl
      fun j hj _ hactive => ⟨j, hj, rfl, hactive⟩⟩
  · exact fun j hj => hnamed (h.jobs j hj)
  · exact fun x hx => ⟨hnamed (h.summaries x hx).1, (h.summaries x hx).2⟩
  · intro c' hc' id
    obtain ⟨c, hc, hid, -, hpending⟩ := hto c' hc'
    rw [hid, hpending]
    exact h.pending c hc id
  · exact h.frozen
  · exact h.attempts
  · exact h.leases
  · exact h.claims
  · exact h.tokens

/-- **The conversation has got the job.** -/
theorem advances_opened (h : Sound limit s) {b : Schedule} (hreads : b.Reads limit s) {c : Conversation}
    (hc : c ∈ s.conversations) (hopens : b.opens c = true) {conversations : Table Conversation.id}
    (hconversations : ∀ c', c' ∈ conversations ↔
      c' = c.request b.jobId b.requestVersion ∨ c' ∈ s.conversations ∧ c' ≠ c)
    {jobs : Table Job.key} (hjobs : ∀ j, j ∈ jobs ↔ j ∈ s.jobs ∨ j = b.job) :
    Advances limit s { s with conversations := conversations, jobs := jobs } := by
  obtain ⟨hid, hversion, -, hfree⟩ := Schedule.opens_iff.1 hopens
  obtain ⟨hpins, summary, selected, hsummary, hsources⟩ := hreads
  have hrequest : c.request b.jobId b.requestVersion ∈ conversations := (hconversations _).2 (.inl rfl)
  have hnamed : ∀ {id}, (∃ c ∈ s.conversations, c.id = id) → ∃ c ∈ conversations, c.id = id := by
    rintro _ ⟨c', hc', rfl⟩
    by_cases hsame : c' = c
    · subst hsame
      exact ⟨_, hrequest, rfl⟩
    · exact ⟨c', (hconversations c').2 (.inr ⟨hc', hsame⟩), rfl⟩
  have hidle : ∀ j ∈ s.jobs, j.conversationId = c.id → j.phase.active = false := by
    intro j hj hconversation
    refine Bool.eq_false_iff.2 fun hactive => ?_
    have hpending := (h.pending c hc j.id).2 ⟨j, hj, rfl, hconversation, hactive⟩
    rw [hfree] at hpending
    cases hpending
  have hother : ∀ c' ∈ s.conversations, c' ≠ c → b.job.conversationId ≠ c'.id := by
    intro c' hc' hne hsame
    exact hne (Store.conversation_inj hc' hc (hsame.symm.trans hid.symm))
  refine ⟨?_, List.prefix_rfl, List.prefix_rfl, fun j hj => ⟨j, (hjobs j).2 (.inl hj), .refl j⟩, fun e he => he⟩
  constructor
  · exact h.ordered
  · exact fun m hm => hnamed (h.messages m hm)
  · intro c' hc'
    rcases (hconversations c').1 hc' with rfl | ⟨hc', hne⟩
    · obtain ⟨covered, rest, hcovers⟩ := h.covers c hc
      have hrest : Store.afterCover summary (s.said c.id) = rest := by
        refine hcovers.afterCover (h.said_ordered c.id) ?_
        rw [hid, hversion]
        exact hsummary
      refine ⟨covered, rest, hcovers.said, hcovers.chain, ?_⟩
      intro j hj hconversation hactive
      rcases (hjobs j).1 hj with hj | rfl
      · rw [hidle j hj hconversation] at hactive
        cases hactive
      · refine ⟨hversion.symm, selected, ?_⟩
        show Sources limit (s.said c.id) rest b.sourceMessageIds selected
        rw [← hrest, hid]
        exact hsources
    · obtain ⟨covered, rest, hcovers⟩ := h.covers c' hc'
      refine ⟨covered, rest, hcovers.keep rfl rfl hcovers.said List.prefix_rfl rfl ?_⟩
      intro j hj hconversation hactive
      rcases (hjobs j).1 hj with hj | rfl
      · exact ⟨j, hj, rfl, hactive⟩
      · exact absurd hconversation (hother c' hc' hne)
  · intro j hj
    rcases (hjobs j).1 hj with hj | rfl
    · exact hnamed (h.jobs j hj)
    · exact ⟨_, hrequest, hid⟩
  · exact fun x hx => ⟨hnamed (h.summaries x hx).1, (h.summaries x hx).2⟩
  · intro c' hc' id
    rcases (hconversations c').1 hc' with rfl | ⟨hc', hne⟩
    · constructor
      · rintro ⟨⟩
        exact ⟨b.job, (hjobs _).2 (.inr rfl), rfl, hid.symm, rfl⟩
      · rintro ⟨j, hj, rfl, hconversation, hactive⟩
        rcases (hjobs j).1 hj with hj | rfl
        · rw [hidle j hj hconversation] at hactive
          cases hactive
        · rfl
    · rw [h.pending c' hc' id]
      constructor
      · rintro ⟨j, hj, hjob⟩
        exact ⟨j, (hjobs j).2 (.inl hj), hjob⟩
      · rintro ⟨j, hj, hjob⟩
        rcases (hjobs j).1 hj with hj | rfl
        · exact ⟨j, hj, hjob⟩
        · exact absurd hjob.2.1 (hother c' hc' hne)
  · intro j hj
    rcases (hjobs j).1 hj with hj | rfl
    · exact h.frozen j hj
    · refine ⟨rfl, ?_, hpins⟩
      obtain ⟨m, hm, -⟩ := hsources.last
      show b.sourceMessageIds ≠ []
      rw [hsources.ids]
      intro hnil
      rw [List.map_eq_nil_iff.1 hnil] at hm
      cases hm
  · intro j hj
    rcases (hjobs j).1 hj with hj | rfl
    · exact h.attempts j hj
    · refine ⟨Nat.zero_le _, fun _ => ?_⟩
      show 0 < compactionMaxAttempts
      decide
  · intro j hj l hl
    rcases (hjobs j).1 hj with hj | rfl
    · exact h.leases j hj l hl
    · cases hl
  · intro t row hrow
    obtain ⟨j, hj, hfrozen⟩ := h.claims t row hrow
    exact ⟨j, (hjobs j).2 (.inl hj), hfrozen⟩
  · exact h.tokens

theorem insertJob_eq_some {j : Job} (hexec : s.insertJob j = some s') :
    ∃ jobs, s' = { s with jobs := jobs } ∧ ∀ j', j' ∈ jobs ↔ j' ∈ s.jobs ∨ j' = j := by
  unfold Store.insertJob at hexec
  split at hexec
  · obtain ⟨jobs, hinsert, rfl⟩ := Option.map_eq_some_iff.1 hexec
    refine ⟨jobs, rfl, fun j' => ?_⟩
    rw [Table.mem_insertAll hinsert, List.mem_singleton]
  · cases hexec

theorem Schedule.request_id (b : Schedule) (c : Conversation) : (c.request b.jobId b.requestVersion).id = c.id := rfl

/-- The conversations that request the job, and whether it is admitted. -/
def Store.requestJob (s : Store) (b : Schedule) : Store :=
  s.updateConversations b.opens (Conversation.request b.jobId b.requestVersion) b.request_id

def Store.admitsJob (s : Store) (b : Schedule) : Bool :=
  s.conversations.rows.any fun c => b.requested c && decide (s.activeJobs < activeCompactionsGlobal) &&
    decide (s.activeJobsOf c.ownerId < activeCompactionsPerOwner)

theorem scheduleCompaction_eq_some {b : Schedule} (hexec : s.scheduleCompaction b = some s') :
    ∃ s₂, (if (s.requestJob b).admitsJob b then (s.requestJob b).insertJob b.job else some (s.requestJob b)) = some s₂ ∧
      (if s₂.jobs.rows.any fun j => j.id = b.jobId then s₂
        else s₂.updateConversations (fun c => c.id = b.conversationId && c.pendingCompactionJobId = some b.jobId)
          Conversation.clear Conversation.clear_id) = s' := by
  unfold Store.scheduleCompaction at hexec
  dsimp only at hexec
  by_cases hadmitted : (s.requestJob b).admitsJob b = true
  · rw [if_pos hadmitted]
    rw [Store.admitsJob, Store.requestJob] at hadmitted
    rw [if_pos hadmitted] at hexec
    obtain ⟨s₂, hs₂, hexec⟩ := Option.bind_eq_some_iff.1 hexec
    exact ⟨s₂, hs₂, Option.some.inj hexec⟩
  · rw [if_neg hadmitted]
    rw [Store.admitsJob, Store.requestJob] at hadmitted
    rw [if_neg hadmitted] at hexec
    exact ⟨_, rfl, Option.some.inj hexec⟩

/-- The job has a new id. -/
theorem advances_schedule (h : Sound limit s) {b : Schedule} (hnew : ∀ j ∈ s.jobs, j.id ≠ b.jobId)
    (hreads : b.Reads limit s) (hexec : s.scheduleCompaction b = some s') : Advances limit s s' := by
  have hunnamed : ∀ c ∈ s.conversations, c.pendingCompactionJobId ≠ some b.jobId := by
    intro c hc hid
    obtain ⟨j, hj, hid, -⟩ := (h.pending c hc b.jobId).1 hid
    exact hnew j hj hid
  have hnone : (s.jobs.rows.any fun j => j.id = b.jobId) = false := by
    refine Bool.eq_false_iff.2 fun hany => ?_
    obtain ⟨j, hj, hid⟩ := List.any_eq_true.1 hany
    exact hnew j hj (of_decide_eq_true hid)
  obtain ⟨s₂, hs₂, hexec⟩ := scheduleCompaction_eq_some hexec
  by_cases hopen : ∃ c ∈ s.conversations, b.opens c = true
  · obtain ⟨c, hc, hopens⟩ := hopen
    have hmem := fun c' => @mem_request s b c hc hopens c'
    split at hs₂
    · obtain ⟨jobs, rfl, hjobs⟩ := insertJob_eq_some hs₂
      have hthere : (jobs.rows.any fun j => j.id = b.jobId) = true :=
        List.any_eq_true.2 ⟨b.job, (hjobs _).2 (.inr rfl), by simp [Schedule.job]⟩
      rw [if_pos hthere] at hexec
      subst hexec
      exact advances_opened h hreads hc hopens hmem hjobs
    · cases hs₂
      rw [if_neg (show ¬ ((s.requestJob b).jobs.rows.any fun j => j.id = b.jobId) = true from
        Bool.eq_false_iff.1 hnone)] at hexec
      subst hexec
      have hfree := (Schedule.opens_iff.1 hopens).2.2.2
      refine advances_alike h ?_ ?_
      · intro c'' hc''
        obtain ⟨c', hc', rfl⟩ := (Table.mem_update Conversation.clear_id).1 hc''
        rcases (hmem c').1 hc' with rfl | ⟨hc', -⟩
        · have hclear : (decide ((c.request b.jobId b.requestVersion).id = b.conversationId) &&
              decide ((c.request b.jobId b.requestVersion).pendingCompactionJobId = some b.jobId)) = true := by
            simp [Conversation.request, (Schedule.opens_iff.1 hopens).1]
          rw [if_pos hclear]
          exact ⟨c, hc, rfl, rfl, hfree.symm⟩
        · refine ⟨c', hc', ?_⟩
          rw [if_neg (by simp [hunnamed c' hc'])]
          exact ⟨rfl, rfl, rfl⟩
      · intro c' hc'
        by_cases hsame : c' = c
        · subst hsame
          refine ⟨_, (Table.mem_update Conversation.clear_id).2 ⟨_, (hmem _).2 (.inl rfl), rfl⟩, ?_⟩
          split
          · rfl
          · rfl
        · refine ⟨_, (Table.mem_update Conversation.clear_id).2 ⟨_, (hmem _).2 (.inr ⟨hc', hsame⟩), rfl⟩, ?_⟩
          split
          · rfl
          · rfl
  · have hclosed : ∀ c ∈ s.conversations, b.opens c = false :=
      fun c hc => Bool.eq_false_iff.2 fun hopens => hopen ⟨c, hc, hopens⟩
    have hsame : s.requestJob b = s := by
      have htable : s.conversations.update b.opens (Conversation.request b.jobId b.requestVersion)
          (Conversation.request_id b.jobId b.requestVersion) = s.conversations :=
        Table.update_eq_self _ fun c hc hopens => by rw [hclosed c hc] at hopens; cases hopens
      rw [Store.requestJob, Store.updateConversations, htable]
    rw [hsame] at hs₂
    have hadmitted : s.admitsJob b = false := by
      refine Bool.eq_false_iff.2 fun hany => ?_
      obtain ⟨c, hc, hsel⟩ := List.any_eq_true.1 hany
      simp only [Bool.and_eq_true] at hsel
      exact hunnamed c hc (Schedule.pending_of_requested hsel.1.1)
    rw [hadmitted, if_neg Bool.false_ne_true] at hs₂
    cases hs₂
    rw [hnone, if_neg Bool.false_ne_true] at hexec
    have htable : s.conversations.update
        (fun c => c.id = b.conversationId && c.pendingCompactionJobId = some b.jobId) Conversation.clear
        Conversation.clear_id = s.conversations := by
      refine Table.update_eq_self _ fun c hc hsel => ?_
      simp only [Bool.and_eq_true, decide_eq_true_eq] at hsel
      exact absurd hsel.2 (hunnamed c hc)
    rw [Store.updateConversations, htable] at hexec
    subst hexec
    exact .refl h

/-! ## Completing -/

/-- The versions are those of the job, and the time that of its last source. -/
def Completion.Reads (s : Store) (b : Completion) : Prop :=
  ∃ j ∈ s.jobs, j.id = b.id ∧ j.conversationId = b.conversationId ∧ j.priorSummaryVersion = b.priorSummaryVersion ∧
    j.outputSummaryVersion = b.outputSummaryVersion ∧
    ∃ m ∈ s.messages, m.id = j.sourceMessageIds.getLastD "" ∧ m.createdAt = b.coveredThroughCreatedAt

theorem insertPins_frame {ps : List PinnedEntry} (hexec : s.insertPins ps = some s') :
    ∃ pins, s' = { s with pins := pins } := by
  induction ps generalizing s with
  | nil =>
    obtain rfl := Option.some.inj hexec
    exact ⟨_, rfl⟩
  | cons entry ps ih =>
    obtain ⟨s₁, hs₁, hexec⟩ := Option.bind_eq_some_iff.1 hexec
    unfold Store.insertPin at hs₁
    split at hs₁
    · obtain ⟨pins, -, rfl⟩ := Option.map_eq_some_iff.1 hs₁
      obtain ⟨pins, rfl⟩ := ih hexec
      exact ⟨pins, rfl⟩
    · cases hs₁

theorem insertSummary_eq_some {x : Summary} (hexec : s.insertSummary x = some s') :
    (∃ summaries : Table Summary.id, s' = { s with summaries := summaries } ∧
        summaries.rows = s.summaries.rows ++ [x]) ∧
      ∃ j ∈ s.jobs, ∃ c ∈ s.conversations, j.id = x.sourceJobId ∧ j.conversationId = x.conversationId ∧
        c.id = j.conversationId ∧ j.priorSummaryVersion = c.summaryVersion ∧ c.pendingCompactionJobId = some j.id ∧
        x.version = c.summaryVersion + 1 := by
  unfold Store.insertSummary at hexec
  split at hexec
  · next hvalid =>
    obtain ⟨-, -, -, -, -, j, hj, c, hc, hid, hconversation, hsame, -, hprior, -, hpending, hversion⟩ := hvalid
    obtain ⟨summaries, hinsert, rfl⟩ := Option.map_eq_some_iff.1 hexec
    exact ⟨⟨summaries, rfl, Table.rows_insertAll hinsert⟩, j, hj, c, hc, hid, hconversation, hsame, hprior, hpending,
      hversion⟩
  · cases hexec

/-- The conversations that a completion advances. -/
def Completion.selects (b : Completion) (c : Conversation) : Bool :=
  c.id = b.conversationId && c.summaryVersion = b.priorSummaryVersion && c.pendingCompactionJobId = some b.id

theorem advance_eq_some {b : Completion} (hexec : s.advance b = some s') :
    (∀ c ∈ s.conversations, b.selects c = true → b.outputSummaryVersion = c.summaryVersion ∨
      ∃ x ∈ s.summaries, x.conversationId = c.id ∧ x.version = b.outputSummaryVersion) ∧
    s' = s.updateConversations b.selects (Conversation.summarize b.outputSummaryVersion)
      (Conversation.summarize_id b.outputSummaryVersion) := by
  unfold Store.advance at hexec
  dsimp only at hexec
  split at hexec
  · next hvalid =>
    refine ⟨fun c hc hsel => ?_, (Option.some.inj hexec).symm⟩
    rcases hvalid c hc hsel with hsame | ⟨-, x, hx, hconversation, hversion, -⟩
    · exact .inl hsame
    · exact .inr ⟨x, hx, hconversation, hversion⟩
  · cases hexec

theorem Completion.become_key (b : Completion) (j : Job) :
    (j.become (.completed b.modelVersion b.now) none none).key = j.key := rfl

/-- The job is completed, when the lease is the sender's. -/
def Store.endJob (s : Store) (b : Completion) : Store :=
  s.updateJobs (fun j => j.id = b.id && j.heldBy b.leaseToken b.now)
    (Job.become (.completed b.modelVersion b.now) none none) b.become_key

theorem completeJob_eq_some {b : Completion} (hexec : s.completeJob b = some s') :
    ∃ s₃, (match (s.endJob b).jobs.rows.find? b.done with
      | none => some (s.endJob b)
      | some j => ((s.endJob b).insertSummary (b.summary j)).bind fun s₂ => s₂.insertPins (b.entries j)) = some s₃ ∧
      s₃.advance b = some s' := by
  unfold Store.completeJob at hexec
  dsimp only at hexec
  cases hfind : (s.endJob b).jobs.rows.find? b.done with
  | none =>
    rw [Store.endJob] at hfind
    rw [hfind] at hexec
    exact ⟨_, rfl, hexec⟩
  | some j =>
    rw [Store.endJob] at hfind
    rw [hfind] at hexec
    exact Option.bind_eq_some_iff.1 hexec

/-- What a completion did. -/
structure Completed (s s' : Store) (b : Completion) (j : Job) (c : Conversation) : Prop where
  job : j ∈ s.jobs
  conversation : c ∈ s.conversations
  id : j.id = b.id
  held : j.heldBy b.leaseToken b.now = true
  conversationId : c.id = j.conversationId
  prior : j.priorSummaryVersion = c.summaryVersion
  pending : c.pendingCompactionJobId = some j.id
  messages : s'.messages = s.messages
  claims : s'.claims = s.claims
  jobs : s'.jobs = s.jobs.update (fun j => j.id = b.id && j.heldBy b.leaseToken b.now)
    (Job.become (.completed b.modelVersion b.now) none none) (Job.become_key (.completed b.modelVersion b.now) none none)
  summaries : s'.summaries.rows = s.summaries.rows ++ [b.summary j]
  conversations : s'.conversations = s.conversations.update b.selects (Conversation.summarize b.outputSummaryVersion)
    (Conversation.summarize_id b.outputSummaryVersion)

/-- A summary of the next version is not there yet. -/
theorem Sound.version_le (h : Sound limit s) {c : Conversation} (hc : c ∈ s.conversations) {x : Summary}
    (hx : x ∈ s.summaries) (hconversation : x.conversationId = c.id) : x.version ≤ c.summaryVersion := by
  obtain ⟨covered, rest, hcovers⟩ := h.covers c hc
  have hrange : x.version ∈ List.range' 1 c.summaryVersion := by
    rw [← hcovers.chain.versions]
    refine List.mem_map_of_mem (List.mem_filter.2 ⟨hx, ?_⟩)
    simpa using hconversation
  rw [List.mem_range'_1] at hrange
  omega

/-- Without its lease, a completion does nothing. -/
theorem complete_unheld (h : Sound limit s) {b : Completion} (hreads : b.Reads s)
    (hunheld : ∀ j ∈ s.jobs, j.id = b.id → j.heldBy b.leaseToken b.now = false) (hexec : s.completeJob b = some s') :
    s' = s := by
  have hsame : s.endJob b = s := by
    have htable : s.jobs.update (fun j => j.id = b.id && j.heldBy b.leaseToken b.now)
        (Job.become (.completed b.modelVersion b.now) none none)
        (Job.become_key (.completed b.modelVersion b.now) none none) = s.jobs := by
      refine Table.update_eq_self _ fun j hj hsel => ?_
      simp only [Bool.and_eq_true, decide_eq_true_eq] at hsel
      rw [hunheld j hj hsel.1] at hsel
      cases hsel.2
    rw [Store.endJob, Store.updateJobs, htable]
  obtain ⟨s₃, hs₃, hadvance⟩ := completeJob_eq_some hexec
  rw [hsame] at hs₃
  have hs : s₃ = s := by
    cases hfind : s.jobs.rows.find? b.done with
    | none =>
      rw [hfind] at hs₃
      exact (Option.some.inj hs₃).symm
    | some j =>
      rw [hfind] at hs₃
      obtain ⟨s₂, hs₂, -⟩ := Option.bind_eq_some_iff.1 hs₃
      obtain ⟨-, j', hj', c, hc, hid, -, -, -, hpending, -⟩ := insertSummary_eq_some hs₂
      -- the conversation would point to a job that is completed
      have hdone := List.find?_some hfind
      simp only [Completion.done, Bool.and_eq_true, decide_eq_true_eq] at hdone
      obtain rfl := Store.job_inj hj' (List.mem_of_find?_eq_some hfind) hid
      have hactive := (h.pointed hc hj' hpending).2
      rw [hdone.2] at hactive
      cases hactive
  subst hs
  obtain ⟨hvalid, rfl⟩ := advance_eq_some hadvance
  obtain ⟨j, hj, hid, -, hprior, houtput, -⟩ := hreads
  have htable : s₃.conversations.update b.selects (Conversation.summarize b.outputSummaryVersion)
      (Conversation.summarize_id b.outputSummaryVersion) = s₃.conversations := by
    refine Table.update_eq_self _ fun c hc hsel => ?_
    exfalso
    have hversion : c.summaryVersion = b.priorSummaryVersion := by
      simp only [Completion.selects, Bool.and_eq_true, decide_eq_true_eq] at hsel
      exact hsel.1.2
    have hnext := (h.frozen j hj).1
    rcases hvalid c hc hsel with hsame | ⟨x, hx, hconversation, hxversion⟩
    · omega
    · have hle := h.version_le hc hx hconversation
      omega
  rw [Store.updateConversations, htable]

/-- **A completion finds its job leased, or does nothing.** -/
theorem complete_cases (h : Sound limit s) {b : Completion} (hreads : b.Reads s) (hexec : s.completeJob b = some s') :
    (∀ j ∈ s.jobs, j.id = b.id → j.heldBy b.leaseToken b.now = false) ∧ s' = s ∨ ∃ j c, Completed s s' b j c := by
  by_cases hheld : ∃ j ∈ s.jobs, j.id = b.id ∧ j.heldBy b.leaseToken b.now = true
  · right
    obtain ⟨j, hj, hid, hheld⟩ := hheld
    obtain ⟨s₃, hs₃, hexec⟩ := completeJob_eq_some hexec
    have hj₁ : j.become (.completed b.modelVersion b.now) none none ∈ (s.endJob b).jobs :=
      (Table.mem_update (Job.become_key _ _ _)).2 ⟨j, hj, by simp [hid, hheld]⟩
    have hdone : b.done (j.become (.completed b.modelVersion b.now) none none) = true := by
      simp [Completion.done, Job.become, hid]
    cases hfind : (s.endJob b).jobs.rows.find? b.done with
    | none =>
      have hnone := List.find?_eq_none.1 hfind _ hj₁
      exact absurd hdone hnone
    | some j' =>
      have hdone' := List.find?_some hfind
      simp only [Completion.done, Bool.and_eq_true, decide_eq_true_eq] at hdone'
      obtain rfl : j' = j.become (.completed b.modelVersion b.now) none none :=
        Store.job_inj (List.mem_of_find?_eq_some hfind) hj₁ (hdone'.1.trans hid.symm)
      rw [hfind] at hs₃
      obtain ⟨s₂, hs₂, hs₃⟩ := Option.bind_eq_some_iff.1 hs₃
      obtain ⟨⟨summaries, rfl, hrows⟩, j'', hj'', c, hc, hid'', -, hsame, hprior, hpending, -⟩ := insertSummary_eq_some hs₂
      obtain ⟨pins, rfl⟩ := insertPins_frame hs₃
      obtain ⟨-, rfl⟩ := advance_eq_some hexec
      obtain rfl := Store.job_inj hj'' hj₁ hid''
      exact ⟨j, c, hj, hc, hid, hheld, hsame, hprior, hpending, rfl, rfl, rfl, hrows, rfl⟩
  · left
    have hunheld : ∀ j ∈ s.jobs, j.id = b.id → j.heldBy b.leaseToken b.now = false :=
      fun j hj hid => Bool.eq_false_iff.2 fun hj' => hheld ⟨j, hj, hid, hj'⟩
    exact ⟨hunheld, complete_unheld h hreads hunheld hexec⟩

theorem Completion.selects_iff {b : Completion} {c : Conversation} : b.selects c = true ↔
    c.id = b.conversationId ∧ c.summaryVersion = b.priorSummaryVersion ∧ c.pendingCompactionJobId = some b.id := by
  simp [Completion.selects, and_assoc]

section
variable {b : Completion} {j : Job} {c : Conversation}

theorem Completed.selects (hdone : Completed s s' b j c) (hreads : b.Reads s) : b.selects c = true := by
  obtain ⟨j', hj', hid, hconversation, hprior, -⟩ := hreads
  obtain rfl := Store.job_inj hdone.job hj' (hdone.id.trans hid.symm)
  refine Completion.selects_iff.2 ⟨hdone.conversationId.trans hconversation, ?_, ?_⟩
  · exact hdone.prior.symm.trans hprior
  · rw [hdone.pending, hdone.id]

theorem Completed.only (hdone : Completed s s' b j c) (hreads : b.Reads s) {c' : Conversation}
    (hc' : c' ∈ s.conversations) (hsel : b.selects c' = true) : c' = c :=
  Store.conversation_inj hc' hdone.conversation
    ((Completion.selects_iff.1 hsel).1.trans (Completion.selects_iff.1 (hdone.selects hreads)).1.symm)

/-- The rows of the conversations after a completion. -/
theorem Completed.mem_conversations (hdone : Completed s s' b j c) (hreads : b.Reads s) {c' : Conversation} :
    c' ∈ s'.conversations ↔ c' = c.summarize b.outputSummaryVersion ∨ c' ∈ s.conversations ∧ c' ≠ c := by
  rw [hdone.conversations, Table.mem_update]
  constructor
  · rintro ⟨c₀, hc₀, rfl⟩
    by_cases hsel : b.selects c₀
    · rw [if_pos hsel, hdone.only hreads hc₀ hsel]
      exact .inl rfl
    · rw [if_neg hsel]
      refine .inr ⟨hc₀, ?_⟩
      rintro rfl
      exact hsel (hdone.selects hreads)
  · rintro (rfl | ⟨hc', hne⟩)
    · exact ⟨c, hdone.conversation, (if_pos (hdone.selects hreads)).symm⟩
    · exact ⟨c', hc', (if_neg fun hsel => hne (hdone.only hreads hc' hsel)).symm⟩

/-- The rows of the jobs after a completion. -/
theorem Completed.mem_jobs (hdone : Completed s s' b j c) {j' : Job} :
    j' ∈ s'.jobs ↔ j' = j.become (.completed b.modelVersion b.now) none none ∨ j' ∈ s.jobs ∧ j' ≠ j := by
  have hsel : (decide (j.id = b.id) && j.heldBy b.leaseToken b.now) = true := by simp [hdone.id, hdone.held]
  have honly : ∀ j' ∈ s.jobs, (decide (j'.id = b.id) && j'.heldBy b.leaseToken b.now) = true → j' = j := by
    intro j' hj' hsel'
    simp only [Bool.and_eq_true, decide_eq_true_eq] at hsel'
    exact Store.job_inj hj' hdone.job (hsel'.1.trans hdone.id.symm)
  rw [hdone.jobs, Table.mem_update]
  constructor
  · rintro ⟨j₀, hj₀, rfl⟩
    by_cases hsel₀ : (decide (j₀.id = b.id) && j₀.heldBy b.leaseToken b.now) = true
    · rw [if_pos hsel₀, honly j₀ hj₀ hsel₀]
      exact .inl rfl
    · rw [if_neg hsel₀]
      refine .inr ⟨hj₀, ?_⟩
      rintro rfl
      exact hsel₀ hsel
  · rintro (rfl | ⟨hj', hne⟩)
    · exact ⟨j, hdone.job, (if_pos hsel).symm⟩
    · exact ⟨j', hj', (if_neg fun hsel' => hne (honly j' hj' hsel')).symm⟩

theorem Completed.said (hdone : Completed s s' b j c) (conversationId : String) :
    s'.said conversationId = s.said conversationId := by
  rw [Store.said, hdone.messages, ← Store.said]

theorem Completed.summariesOf (hdone : Completed s s' b j c) (conversationId : String) :
    s'.summariesOf conversationId =
      s.summariesOf conversationId ++ if j.conversationId = conversationId then [b.summary j] else [] := by
  rw [Store.summariesOf, hdone.summaries, List.filter_append, ← Store.summariesOf]
  by_cases hsame : j.conversationId = conversationId <;> simp [Completion.summary, hsame]

/-- The summary covers the sources of its job. -/
theorem Completed.segment (hdone : Completed s s' b j c) (hreads : b.Reads s) {selected rest : List Message}
    (hsources : Sources limit (s.said c.id) rest j.sourceMessageIds selected) (hsaid : ∀ m ∈ rest, m ∈ s.messages) :
    Segment (b.summary j) selected ∧ limit ≤ usersAfter (s.said c.id) (b.summary j).cover := by
  obtain ⟨last, hlast, hafter⟩ := hsources.last
  have hne : selected ≠ [] := by
    rintro rfl
    cases hlast
  have hplace : last.place = (b.summary j).cover := by
    obtain ⟨j', hj', hid, -, -, -, m, hm, hmid, hcreated⟩ := hreads
    obtain rfl := Store.job_inj hdone.job hj' (hdone.id.trans hid.symm)
    have hlastId : j.sourceMessageIds.getLastD "" = last.id := by
      rw [hsources.ids, List.getLastD_eq_getLast?, List.getLast?_map, hlast]
      rfl
    have hmem : last ∈ s.messages := hsaid last (hsources.first.subset (List.mem_of_getLast? hlast))
    obtain rfl := s.messages.eq_of_key_eq hm hmem (hmid.trans hlastId)
    rw [Message.place, hcreated, Summary.cover]
    exact congrArg toLex (Prod.ext rfl hlastId.symm)
  refine ⟨⟨?_, ⟨last, hlast, hplace⟩, ?_⟩, ?_⟩
  · obtain ⟨m, selected, rfl⟩ := List.exists_cons_of_ne_nil hne
    refine ⟨m, rfl, ?_⟩
    show m.id = j.sourceMessageIds.headD ""
    rw [hsources.ids]
    rfl
  · show selected.length = j.sourceMessageIds.length
    rw [hsources.ids, List.length_map]
  · rw [← hplace]
    exact hafter

/-- **The summary of a completion is the next one of the chain.** -/
theorem Completed.advances (hdone : Completed s s' b j c) (h : Sound limit s) (hreads : b.Reads s) :
    Advances limit s s' := by
  have hactive : j.phase.active = true := active_of_heldBy hdone.held
  have hfrozen : (j.become (.completed b.modelVersion b.now) none none).toFrozen = j.toFrozen := rfl
  have houtput : b.outputSummaryVersion = c.summaryVersion + 1 := by
    obtain ⟨j', hj', hid, -, -, houtput, -⟩ := hreads
    obtain rfl := Store.job_inj hdone.job hj' (hdone.id.trans hid.symm)
    rw [← houtput, (h.frozen j hdone.job).1, hdone.prior]
  have hmem := fun c' => @Completed.mem_conversations s s' b j c hdone hreads c'
  have hnamed : ∀ {id}, (∃ c ∈ s.conversations, c.id = id) → ∃ c ∈ s'.conversations, c.id = id := by
    rintro _ ⟨c', hc', rfl⟩
    by_cases hsame : c' = c
    · subst hsame
      exact ⟨_, (hmem _).2 (.inl rfl), rfl⟩
    · exact ⟨c', (hmem c').2 (.inr ⟨hc', hsame⟩), rfl⟩
  have hold : ∀ {j'}, j' ∈ s'.jobs → j'.phase.active = true → j' ∈ s.jobs ∧ j' ≠ j := by
    intro j' hj' hactive'
    rcases hdone.mem_jobs.1 hj' with rfl | hj'
    · cases hactive'
    · exact hj'
  have hjob : ∀ j₀ ∈ s.jobs, ∃ j' ∈ s'.jobs, JobLater j₀ j' ∧ j'.toFrozen = j₀.toFrozen := by
    intro j₀ hj₀
    by_cases hsame : j₀ = j
    · subst hsame
      refine ⟨_, hdone.mem_jobs.2 (.inl rfl), ⟨rfl, ?_, fun _ _ _ => .inr rfl⟩, rfl⟩
      exact fun _ => rfl
    · exact ⟨j₀, hdone.mem_jobs.2 (.inr ⟨hj₀, hsame⟩), .refl j₀, rfl⟩
  have hbefore : ∀ j' ∈ s'.jobs, ∃ j₀ ∈ s.jobs, j'.toFrozen = j₀.toFrozen := by
    intro j' hj'
    rcases hdone.mem_jobs.1 hj' with rfl | ⟨hj', -⟩
    · exact ⟨j, hdone.job, rfl⟩
    · exact ⟨j', hj', rfl⟩
  obtain ⟨covered, rest, hcovers⟩ := h.covers c hdone.conversation
  obtain ⟨selected, hsources⟩ := (hcovers.waits j hdone.job hdone.conversationId.symm hactive).sources
  have hrest : ∀ m ∈ rest, m ∈ s.messages := by
    intro m hm
    have hsaid : m ∈ s.said c.id := by
      rw [hcovers.said]
      exact List.mem_append_right _ hm
    exact (mem_said.1 hsaid).1
  obtain ⟨hsegment, hafter⟩ := hdone.segment hreads hsources hrest
  refine ⟨?_, ?_, ?_, fun j₀ hj₀ => ?_, ?_⟩
  · constructor
    · rw [hdone.messages]
      exact h.ordered
    · rw [hdone.messages]
      exact fun m hm => hnamed (h.messages m hm)
    · intro c' hc'
      rcases (hmem c').1 hc' with rfl | ⟨hc', hne⟩
      · obtain ⟨after, hafter⟩ := hsources.first
        refine ⟨covered ++ selected, after, ?_, ?_, ?_⟩
        · show s'.said c.id = _
          rw [hdone.said, hcovers.said, List.append_assoc, hafter]
        · show Chain b.outputSummaryVersion (s'.summariesOf c.id) (covered ++ selected)
          rw [hdone.summariesOf, if_pos hdone.conversationId.symm, houtput]
          refine .snoc hcovers.chain ?_ hsegment
          show j.outputSummaryVersion = c.summaryVersion + 1
          rw [(h.frozen j hdone.job).1, hdone.prior]
        · intro j' hj' hconversation hactive'
          obtain ⟨hj', hne⟩ := hold hj' hactive'
          exact absurd (h.active_unique hdone.conversation hj' hdone.job hconversation hdone.conversationId.symm hactive'
            hactive) hne
      · obtain ⟨covered', rest', hcovers'⟩ := h.covers c' hc'
        have hother : j.conversationId ≠ c'.id := fun hsame =>
          hne (Store.conversation_inj hc' hdone.conversation (hsame.symm.trans hdone.conversationId.symm))
        refine ⟨covered', rest', hcovers'.keep rfl rfl ?_ List.prefix_rfl ?_ fun j' hj' _ hactive' => ?_⟩
        · rw [hdone.said, hcovers'.said]
        · rw [hdone.summariesOf, if_neg hother, List.append_nil]
        · exact ⟨j', (hold hj' hactive').1, rfl, hactive'⟩
    · intro j' hj'
      obtain ⟨j₀, hj₀, hsame⟩ := hbefore j' hj'
      rw [congrArg Frozen.conversationId hsame]
      exact hnamed (h.jobs j₀ hj₀)
    · intro x hx
      rw [← Table.mem_rows, hdone.summaries, List.mem_append, List.mem_singleton] at hx
      rcases hx with hx | rfl
      · rw [hdone.said]
        exact ⟨hnamed (h.summaries x hx).1, (h.summaries x hx).2⟩
      · refine ⟨⟨_, (hmem _).2 (.inl rfl), hdone.conversationId⟩, ?_⟩
        show limit ≤ usersAfter (s'.said j.conversationId) _
        rw [hdone.said, ← hdone.conversationId]
        exact hafter
    · intro c' hc' id
      rcases (hmem c').1 hc' with rfl | ⟨hc', hne⟩
      · constructor
        · rintro ⟨⟩
        · rintro ⟨j', hj', -, hconversation, hactive'⟩
          obtain ⟨hj', hne⟩ := hold hj' hactive'
          exact absurd (h.active_unique hdone.conversation hj' hdone.job hconversation hdone.conversationId.symm hactive'
            hactive) hne
      · rw [h.pending c' hc' id]
        constructor
        · rintro ⟨j', hj', hid, hconversation, hactive'⟩
          refine ⟨j', hdone.mem_jobs.2 (.inr ⟨hj', ?_⟩), hid, hconversation, hactive'⟩
          rintro rfl
          exact hne (Store.conversation_inj hc' hdone.conversation (hconversation.symm.trans hdone.conversationId.symm))
        · rintro ⟨j', hj', hid, hconversation, hactive'⟩
          exact ⟨j', (hold hj' hactive').1, hid, hconversation, hactive'⟩
    · intro j' hj'
      obtain ⟨j₀, hj₀, hsame⟩ := hbefore j' hj'
      rw [hsame]
      exact h.frozen j₀ hj₀
    · intro j' hj'
      rcases hdone.mem_jobs.1 hj' with rfl | ⟨hj', -⟩
      · exact ⟨(h.attempts j hdone.job).1, fun hpending => by cases hpending⟩
      · exact h.attempts j' hj'
    · intro j' hj' l hl
      rw [hdone.claims]
      exact h.leases j' (hold hj' (active_of_processing hl)).1 l hl
    · intro t row hrow
      rw [hdone.claims] at hrow
      obtain ⟨j₀, hj₀, hsame⟩ := h.claims t row hrow
      obtain ⟨j', hj', -, hsame'⟩ := hjob j₀ hj₀
      exact ⟨j', hj', hsame'.trans hsame⟩
    · rw [hdone.claims]
      exact h.tokens
  · rw [hdone.messages]
  · rw [hdone.summaries]
    exact List.prefix_append _ _
  · obtain ⟨j', hj', hlater, -⟩ := hjob j₀ hj₀
    exact ⟨j', hj', hlater⟩
  · rw [hdone.claims]
    exact fun e he => he

end

theorem advances_complete (h : Sound limit s) {b : Completion} (hreads : b.Reads s)
    (hexec : s.completeJob b = some s') : Advances limit s s' := by
  rcases complete_cases h hreads hexec with ⟨-, rfl⟩ | ⟨j, c, hdone⟩
  · exact .refl h
  · exact hdone.advances h hreads

end Xauusd.Memory
