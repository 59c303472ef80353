/-
  What each batch on the memory of conversations does where it lands.

  * `Advances limit s s'`: the invariant holds after it, and the rows have grown;
  * `Covers.keep`: what the state of a conversation rests on;
  * `Together`, `advances_settle`: an update of jobs and conversations that ends a
    job where it takes the pointer away;
  * `advances_converse`, `advances_say`, `advances_pin`, `advances_claim`,
    `advances_release`: the batches but for two.
-/
import Xauusd.Memory.Invariant

namespace Xauusd.Memory

variable {limit : ℕ} {s s' s'' : Store}

/-- The invariant holds after a batch, and the rows have grown. -/
structure Advances (limit : ℕ) (s s' : Store) : Prop where
  sound : Sound limit s'
  grows : Grows s s'

theorem Advances.refl (h : Sound limit s) : Advances limit s s := ⟨h, .refl s⟩

theorem Advances.trans (h : Advances limit s s') (h' : Advances limit s' s'') : Advances limit s s'' :=
  ⟨h'.sound, h.grows.trans h'.grows⟩

theorem Job.heldBy_iff {leaseToken : String} {now : ℤ} {j : Job} :
    j.heldBy leaseToken now = true ↔ ∃ l, j.phase = .processing l ∧ l.token = leaseToken ∧ now < l.expiresAt := by
  cases hphase : j.phase <;> simp [Job.heldBy, hphase]

theorem Job.lapsed_iff {now : ℤ} {j : Job} :
    j.lapsed now = true ↔ ∃ l, j.phase = .processing l ∧ l.expiresAt ≤ now := by
  cases hphase : j.phase <;> simp [Job.lapsed, hphase]

theorem active_of_processing {j : Job} {l : Lease} (h : j.phase = .processing l) : j.phase.active = true := by
  rw [h]
  rfl

theorem active_of_heldBy {leaseToken : String} {now : ℤ} {j : Job} (h : j.heldBy leaseToken now = true) :
    j.phase.active = true := by
  obtain ⟨l, hl, -⟩ := Job.heldBy_iff.1 h
  exact active_of_processing hl

theorem active_of_lapsed {now : ℤ} {j : Job} (h : j.lapsed now = true) : j.phase.active = true := by
  obtain ⟨l, hl, -⟩ := Job.lapsed_iff.1 h
  exact active_of_processing hl

theorem Store.job_inj {j j' : Job} (hj : j ∈ s.jobs) (hj' : j' ∈ s.jobs) (h : j.id = j'.id) : j = j' :=
  s.jobs.eq_of_key_eq hj hj' h

theorem Store.conversation_inj {c c' : Conversation} (hc : c ∈ s.conversations) (hc' : c' ∈ s.conversations)
    (h : c.id = c'.id) : c = c' :=
  s.conversations.eq_of_key_eq hc hc' h

/-- The job that a conversation points to. -/
theorem Sound.pointed (h : Sound limit s) {c : Conversation} (hc : c ∈ s.conversations) {j : Job} (hj : j ∈ s.jobs)
    (hid : c.pendingCompactionJobId = some j.id) : j.conversationId = c.id ∧ j.phase.active = true := by
  obtain ⟨j', hj', hid', hconversation, hactive⟩ := (h.pending c hc j.id).1 hid
  obtain rfl := Store.job_inj hj' hj hid'
  exact ⟨hconversation, hactive⟩

/-! ## A conversation -/

/-- What the state of a conversation rests on. -/
theorem Covers.keep {c c' : Conversation} {covered rest rest' : List Message} (h : Covers limit s c covered rest)
    (hid : c'.id = c.id) (hversion : c'.summaryVersion = c.summaryVersion)
    (hsaid : s'.said c.id = covered ++ rest') (hrest : rest <+: rest')
    (hsummaries : s'.summariesOf c.id = s.summariesOf c.id)
    (hjobs : ∀ j' ∈ s'.jobs, j'.conversationId = c.id → j'.phase.active = true →
      ∃ j ∈ s.jobs, j.toFrozen = j'.toFrozen ∧ j.phase.active = true) : Covers limit s' c' covered rest' := by
  constructor
  · rw [hid, hsaid]
  · rw [hid, hversion, hsummaries]
    exact h.chain
  · intro j' hj' hconversation hactive
    rw [hid] at hconversation
    obtain ⟨j, hj, hfrozen, hactive⟩ := hjobs j' hj' hconversation hactive
    have hwaits := h.waits j hj ((congrArg Frozen.conversationId hfrozen).trans hconversation) hactive
    obtain ⟨selected, hselected⟩ := hwaits.sources
    refine ⟨?_, selected, ?_⟩
    · rw [hversion, ← hwaits.version]
      exact (congrArg Frozen.priorSummaryVersion hfrozen).symm
    · rw [hid, hsaid, ← congrArg Frozen.sourceMessageIds hfrozen]
      refine hselected.grow ?_ hrest
      rw [h.said]
      exact (List.prefix_append_right_inj covered).2 hrest

/-! ## Updates -/

/-- What an update does to a job and to the conversation that points to it. -/
structure Together (s : Store) (p : Job → Bool) (f : Job → Job) (q : Conversation → Bool)
    (g : Conversation → Conversation) : Prop where
  frozen : ∀ j, (f j).toFrozen = j.toFrozen
  version : ∀ c, (g c).summaryVersion = c.summaryVersion
  live : ∀ j ∈ s.jobs, p j = true → j.phase.active = true
  attempts : ∀ j ∈ s.jobs, p j = true → (f j).attemptCount ≤ j.maxAttempts ∧
    ((f j).phase = .pending → (f j).attemptCount < j.maxAttempts)
  leases : ∀ j ∈ s.jobs, p j = true → ∀ l, (f j).phase = .processing l → (l.token, f j) ∈ s.claims
  spent : ∀ j ∈ s.jobs, p j = true → ∀ l, j.phase = .processing l → j.spent = true → (f j).phase.active = false
  free : ∀ c, c.pendingCompactionJobId = none → (g c).pendingCompactionJobId = none
  /-- the pointer is kept and the job stays active, or both go -/
  pair : ∀ c ∈ s.conversations, ∀ j ∈ s.jobs, c.pendingCompactionJobId = some j.id →
    ((if q c then g c else c).pendingCompactionJobId = some j.id ∧ (if p j then f j else j).phase.active = true) ∨
      ((if q c then g c else c).pendingCompactionJobId = none ∧ (if p j then f j else j).phase.active = false)

section
variable {p : Job → Bool} {f : Job → Job} {q : Conversation → Bool} {g : Conversation → Conversation}

theorem frozen_ite (hfrozen : ∀ j, (f j).toFrozen = j.toFrozen) (j : Job) :
    (if p j then f j else j).toFrozen = j.toFrozen := by
  by_cases hp : p j
  · rw [if_pos hp]
    exact hfrozen j
  · rw [if_neg hp]

theorem id_ite (hg : ∀ c, (g c).id = c.id) (c : Conversation) : (if q c then g c else c).id = c.id := by
  by_cases hq : q c
  · rw [if_pos hq]
    exact hg c
  · rw [if_neg hq]

theorem Together.later (ht : Together s p f q g) {j : Job} (hj : j ∈ s.jobs) :
    JobLater j (if p j then f j else j) := by
  by_cases hp : p j
  · rw [if_pos hp]
    refine ⟨ht.frozen j, ?_, ?_⟩
    · intro hended
      rw [ht.live j hj hp] at hended
      cases hended
    · intro l hl hspent
      exact .inr (ht.spent j hj hp l hl hspent)
  · rw [if_neg hp]
    exact .refl j

theorem Together.active (ht : Together s p f q g) {j : Job} (hj : j ∈ s.jobs)
    (hactive : (if p j then f j else j).phase.active = true) : j.phase.active = true := by
  by_cases hp : p j
  · exact ht.live j hj hp
  · rwa [if_neg hp] at hactive

theorem Together.pointer (ht : Together s p f q g) (h : Sound limit s) {c : Conversation}
    (hc : c ∈ s.conversations) (id : String) : (if q c then g c else c).pendingCompactionJobId = some id ↔
      ∃ j ∈ s.jobs, j.id = id ∧ j.conversationId = c.id ∧ (if p j then f j else j).phase.active = true := by
  cases hpending : c.pendingCompactionJobId with
  | none =>
    have hnone : (if q c then g c else c).pendingCompactionJobId = none := by
      by_cases hq : q c
      · rw [if_pos hq]
        exact ht.free c hpending
      · rw [if_neg hq, hpending]
    rw [hnone]
    constructor
    · rintro ⟨⟩
    · rintro ⟨j, hj, -, hconversation, hactive⟩
      have hpointed := (h.pending c hc j.id).2 ⟨j, hj, rfl, hconversation, ht.active hj hactive⟩
      rw [hpending] at hpointed
      cases hpointed
  | some i =>
    obtain ⟨j, hj, rfl, hconversation, hactive⟩ := (h.pending c hc i).1 hpending
    rcases ht.pair c hc j hj hpending with ⟨hkept, hactive'⟩ | ⟨hnone, hended⟩
    · rw [hkept]
      constructor
      · rintro ⟨⟩
        exact ⟨j, hj, rfl, hconversation, hactive'⟩
      · rintro ⟨j', hj', rfl, hconversation', hactive''⟩
        rw [h.active_unique hc hj hj' hconversation hconversation' hactive (ht.active hj' hactive'')]
    · rw [hnone]
      constructor
      · rintro ⟨⟩
      · rintro ⟨j', hj', -, hconversation', hactive'⟩
        obtain rfl := h.active_unique hc hj hj' hconversation hconversation' hactive (ht.active hj' hactive')
        rw [hended] at hactive'
        cases hactive'

/-- **Such an update keeps the invariant.** -/
theorem advances_settle (h : Sound limit s) (ht : Together s p f q g) (hf : ∀ j, (f j).key = j.key)
    (hg : ∀ c, (g c).id = c.id) : Advances limit s ((s.updateConversations q g hg).updateJobs p f hf) := by
  have hjobs : ∀ {j'}, j' ∈ s.jobs.update p f hf → ∃ j ∈ s.jobs, j' = if p j then f j else j :=
    fun hj' => (Table.mem_update hf).1 hj'
  have hjob : ∀ {j}, j ∈ s.jobs → (if p j then f j else j) ∈ s.jobs.update p f hf :=
    fun hj => (Table.mem_update hf).2 ⟨_, hj, rfl⟩
  have hconversation : ∀ {c}, c ∈ s.conversations → (if q c then g c else c) ∈ s.conversations.update q g hg :=
    fun hc => (Table.mem_update hg).2 ⟨_, hc, rfl⟩
  have hnamed : ∀ id, (∃ c ∈ s.conversations, c.id = id) → ∃ c ∈ s.conversations.update q g hg, c.id = id := by
    rintro id ⟨c, hc, rfl⟩
    exact ⟨_, hconversation hc, id_ite hg c⟩
  refine ⟨?_, List.prefix_rfl, List.prefix_rfl, fun j hj => ⟨_, hjob hj, ht.later hj⟩, fun e he => he⟩
  constructor
  · exact h.ordered
  · intro m hm
    exact hnamed _ (h.messages m hm)
  · intro c' hc'
    obtain ⟨c, hc, rfl⟩ := (Table.mem_update hg).1 hc'
    obtain ⟨covered, rest, hcovers⟩ := h.covers c hc
    refine ⟨covered, rest, hcovers.keep (id_ite hg c) ?_ hcovers.said List.prefix_rfl rfl ?_⟩
    · by_cases hq : q c
      · rw [if_pos hq]
        exact ht.version c
      · rw [if_neg hq]
    · intro j' hj' _ hactive
      obtain ⟨j, hj, rfl⟩ := hjobs hj'
      exact ⟨j, hj, (frozen_ite ht.frozen j).symm, ht.active hj hactive⟩
  · intro j' hj'
    obtain ⟨j, hj, rfl⟩ := hjobs hj'
    rw [congrArg Frozen.conversationId (frozen_ite (p := p) ht.frozen j)]
    exact hnamed _ (h.jobs j hj)
  · intro x hx
    exact ⟨hnamed _ (h.summaries x hx).1, (h.summaries x hx).2⟩
  · intro c' hc' id
    obtain ⟨c, hc, rfl⟩ := (Table.mem_update hg).1 hc'
    rw [ht.pointer h hc id, id_ite hg c]
    constructor
    · rintro ⟨j, hj, hid, hconversation, hactive⟩
      refine ⟨_, hjob hj, ?_, ?_, hactive⟩
      · rw [congrArg Frozen.id (frozen_ite (p := p) ht.frozen j), hid]
      · rw [congrArg Frozen.conversationId (frozen_ite (p := p) ht.frozen j), hconversation]
    · rintro ⟨j', hj', hid, hconversation, hactive⟩
      obtain ⟨j, hj, rfl⟩ := hjobs hj'
      rw [congrArg Frozen.id (frozen_ite (p := p) ht.frozen j)] at hid
      rw [congrArg Frozen.conversationId (frozen_ite (p := p) ht.frozen j)] at hconversation
      exact ⟨j, hj, hid, hconversation, hactive⟩
  · intro j' hj'
    obtain ⟨j, hj, rfl⟩ := hjobs hj'
    rw [frozen_ite ht.frozen j]
    exact h.frozen j hj
  · intro j' hj'
    obtain ⟨j, hj, rfl⟩ := hjobs hj'
    rw [frozen_ite ht.frozen j]
    by_cases hp : p j
    · rw [if_pos hp]
      exact ht.attempts j hj hp
    · rw [if_neg hp]
      exact h.attempts j hj
  · intro j' hj' l hl
    obtain ⟨j, hj, rfl⟩ := hjobs hj'
    by_cases hp : p j
    · rw [if_pos hp] at hl ⊢
      exact ht.leases j hj hp l hl
    · rw [if_neg hp] at hl ⊢
      exact h.leases j hj l hl
  · intro t row hrow
    obtain ⟨j, hj, hfrozen⟩ := h.claims t row hrow
    exact ⟨_, hjob hj, (frozen_ite ht.frozen j).trans hfrozen⟩
  · exact h.tokens

end

/-! ## Claims -/

theorem advances_fail_lapsed (h : Sound limit s) (now : ℤ) : Advances limit s
    ((s.updateConversations
      (fun c => c.pendingCompactionJobId.any fun id => s.jobs.rows.any fun j => j.id = id && j.lapsed now && j.spent)
      Conversation.clear Conversation.clear_id).updateJobs (fun j => j.lapsed now && j.spent)
      (Job.become (.failed now) none (some "LEASE_EXPIRED"))
      (Job.become_key (.failed now) none (some "LEASE_EXPIRED"))) := by
  refine advances_settle h ?_ _ _
  constructor
  · intro j
    rfl
  · intro c
    rfl
  · intro j _ hp
    simp only [Bool.and_eq_true] at hp
    exact active_of_lapsed hp.1
  · intro j hj _
    exact ⟨(h.attempts j hj).1, fun hpending => by cases hpending⟩
  · rintro j _ _ l ⟨⟩
  · intro j _ _ l _ _
    rfl
  · intro c _
    rfl
  · intro c hc j hj hid
    have hactive := (h.pointed hc hj hid).2
    have hq : (c.pendingCompactionJobId.any fun id => s.jobs.rows.any fun j => j.id = id && j.lapsed now && j.spent) =
        (j.lapsed now && j.spent) := by
      rw [hid, Option.any_some, Bool.eq_iff_iff, List.any_eq_true]
      constructor
      · rintro ⟨j', hj', hsel⟩
        simp only [Bool.and_eq_true, decide_eq_true_eq] at hsel
        obtain rfl := Store.job_inj hj' hj hsel.1.1
        simp [hsel.1.2, hsel.2]
      · intro hsel
        exact ⟨j, hj, by simpa [and_assoc] using hsel⟩
    by_cases hp : (j.lapsed now && j.spent) = true
    · right
      rw [if_pos hp, if_pos (hq.trans hp)]
      exact ⟨rfl, rfl⟩
    · left
      rw [if_neg hp, if_neg (by rw [hq]; exact hp)]
      exact ⟨hid, hactive⟩

theorem advances_give_back (h : Sound limit s) (now : ℤ) : Advances limit s
    (s.updateJobs (fun j => j.lapsed now && !j.spent) (Job.become .pending (some now) (some "LEASE_EXPIRED"))
      (Job.become_key .pending (some now) (some "LEASE_EXPIRED"))) := by
  have ht : Together s (fun j => j.lapsed now && !j.spent) (Job.become .pending (some now) (some "LEASE_EXPIRED"))
      (fun _ => false) id := by
    constructor
    · intro j
      rfl
    · intro c
      rfl
    · intro j _ hp
      simp only [Bool.and_eq_true] at hp
      exact active_of_lapsed hp.1
    · intro j hj hp
      simp only [Bool.and_eq_true, Bool.not_eq_true', Job.spent, decide_eq_false_iff_not, not_le] at hp
      exact ⟨(h.attempts j hj).1, fun _ => hp.2⟩
    · rintro j _ _ l ⟨⟩
    · intro j _ hp l _ hspent
      simp [hspent] at hp
    · intro c hnone
      exact hnone
    · intro c hc j hj hid
      refine .inl ⟨hid, ?_⟩
      by_cases hp : (j.lapsed now && !j.spent) = true
      · rw [if_pos hp]
        rfl
      · rw [if_neg hp]
        exact (h.pointed hc hj hid).2
  have hsettle := advances_settle h ht (Job.become_key .pending (some now) (some "LEASE_EXPIRED")) fun _ => rfl
  have hsame : s.updateConversations (fun _ => false) id (fun _ => rfl) = s := by
    have htable : s.conversations.update (fun _ => false) id (fun _ => rfl) = s.conversations :=
      Table.update_eq_self _ fun _ _ _ => rfl
    rw [Store.updateConversations, htable]
  rwa [hsame] at hsettle

theorem advances_recover (h : Sound limit s) (now : ℤ) : Advances limit s (s.recoverJobs now) :=
  (advances_fail_lapsed h now).trans (advances_give_back (advances_fail_lapsed h now).sound now)

/-- A claim that is returned is of a job, and has a new token. -/
theorem advances_claims (h : Sound limit s) {t : String} {row : Job} (hfresh : t ∉ s.claims.map Prod.fst)
    (hrow : ∃ j ∈ s.jobs, j.toFrozen = row.toFrozen) : Advances limit s { s with claims := (t, row) :: s.claims } := by
  refine ⟨?_, List.prefix_rfl, List.prefix_rfl, fun j hj => ⟨j, hj, .refl j⟩, fun e he => List.mem_cons_of_mem _ he⟩
  constructor
  · exact h.ordered
  · exact h.messages
  · intro c hc
    obtain ⟨covered, rest, hcovers⟩ := h.covers c hc
    exact ⟨covered, rest, hcovers.keep rfl rfl hcovers.said List.prefix_rfl rfl fun j hj _ hactive => ⟨j, hj, rfl, hactive⟩⟩
  · exact h.jobs
  · exact h.summaries
  · exact h.pending
  · exact h.frozen
  · exact h.attempts
  · intro j hj l hl
    exact List.mem_cons_of_mem _ (h.leases j hj l hl)
  · intro t' row' hmem
    rcases List.mem_cons.1 hmem with heq | hmem
    · obtain ⟨-, rfl⟩ := Prod.mk.inj heq
      exact hrow
    · exact h.claims t' row' hmem
  · rw [List.map_cons, List.nodup_cons]
    exact ⟨hfresh, h.tokens⟩

theorem advances_claim (h : Sound limit s) {workerId leaseToken : String} (hfresh : leaseToken ∉ s.claims.map Prod.fst)
    (now : ℤ) : Advances limit s (s.claimJob workerId leaseToken now) := by
  have hrecovered := advances_recover h now
  unfold Store.claimJob
  dsimp only
  split
  · exact hrecovered
  · next j hnext =>
    have hmem := Table.mem_of_firstBy hnext
    simp only [List.mem_filter, Bool.and_eq_true, decide_eq_true_eq] at hmem
    obtain ⟨hj, hpending, -⟩ := hmem
    have hclaims : Advances limit s { s.recoverJobs now with
        claims := (leaseToken, j.claimed ⟨workerId, leaseToken, now + compactionLease⟩) :: (s.recoverJobs now).claims } :=
      hrecovered.trans (advances_claims hrecovered.sound hfresh ⟨j, hj, rfl⟩)
    have hsel : ∀ j' ∈ (s.recoverJobs now).jobs, decide (j'.id = j.id) = true → j' = j :=
      fun j' hj' hp => Store.job_inj hj' hj (of_decide_eq_true hp)
    refine hclaims.trans ?_
    have ht : Together { s.recoverJobs now with
        claims := (leaseToken, j.claimed ⟨workerId, leaseToken, now + compactionLease⟩) :: (s.recoverJobs now).claims }
        (fun j' => j'.id = j.id) (Job.claimed ⟨workerId, leaseToken, now + compactionLease⟩) (fun _ => false) id := by
      constructor
      · intro j'
        rfl
      · intro c
        rfl
      · intro j' hj' hp
        rw [hsel j' hj' hp, hpending]
        rfl
      · intro j' hj' hp
        refine ⟨?_, fun hphase => by cases hphase⟩
        rw [hsel j' hj' hp]
        exact (hrecovered.sound.attempts j hj).2 hpending
      · rintro j' hj' hp l ⟨⟩
        rw [hsel j' hj' hp]
        exact List.mem_cons_self
      · intro j' hj' hp l hl
        rw [hsel j' hj' hp, hpending] at hl
        cases hl
      · intro c hnone
        exact hnone
      · intro c hc j' hj' hid
        refine .inl ⟨hid, ?_⟩
        by_cases hp : decide (j'.id = j.id) = true
        · rw [if_pos hp]
          rfl
        · rw [if_neg hp]
          exact (hrecovered.sound.pointed hc hj' hid).2
    have hsettle := advances_settle hclaims.sound ht (Job.claimed_key _) fun _ => rfl
    have hsame : (s.recoverJobs now).conversations.update (fun _ => false) id (fun _ => rfl) =
        (s.recoverJobs now).conversations := Table.update_eq_self _ fun _ _ _ => rfl
    simpa only [Store.updateConversations, Store.updateJobs, hsame] using hsettle

/-! ## Releases -/

/-- What the sender of a release has read: the claim that it was answered, and
    whether this was the last attempt. -/
def Release.Reads (s : Store) (b : Release) : Prop :=
  ∃ row, (b.leaseToken, row) ∈ s.claims ∧ row.spent = b.terminal ∧ row.heldBy b.leaseToken b.now = true ∧
    ∀ j ∈ s.jobs, j.id = b.id → b.terminal = true → j = row ∨ j.phase.active = false

/-- A job is held by the claim that was returned. -/
theorem Sound.held (h : Sound limit s) {j row : Job} (hj : j ∈ s.jobs) {leaseToken : String} {now : ℤ}
    (hheld : j.heldBy leaseToken now = true) (hrow : (leaseToken, row) ∈ s.claims) : j = row := by
  obtain ⟨l, hl, rfl, -⟩ := Job.heldBy_iff.1 hheld
  exact h.attempts_of_token (h.leases j hj l hl) hrow

theorem advances_release (h : Sound limit s) {b : Release} (hreads : b.Reads s) : Advances limit s (s.releaseJob b) := by
  obtain ⟨row, hrow, hspent, hheld, hread⟩ := hreads
  have ht : Together s (fun j => j.id = b.id && j.heldBy b.leaseToken b.now)
      (Job.become (if b.terminal then .failed b.now else .pending) (some b.availableAt) (some b.failureCode))
      (fun c => c.pendingCompactionJobId = some b.id && b.terminal) Conversation.clear := by
    have hsel : ∀ j ∈ s.jobs, (decide (j.id = b.id) && j.heldBy b.leaseToken b.now) = true → j = row := by
      intro j hj hp
      simp only [Bool.and_eq_true] at hp
      exact h.held hj hp.2 hrow
    constructor
    · intro j
      rfl
    · intro c
      rfl
    · intro j _ hp
      simp only [Bool.and_eq_true] at hp
      exact active_of_heldBy hp.2
    · intro j hj hp
      refine ⟨(h.attempts j hj).1, fun hpending => ?_⟩
      cases hterminal : b.terminal with
      | false =>
        rw [hterminal, ← hsel j hj hp] at hspent
        show j.attemptCount < j.maxAttempts
        simpa [Job.spent] using hspent
      | true => simp [Job.become, hterminal] at hpending
    · intro j _ _ l hl
      cases hterminal : b.terminal <;> simp [Job.become, hterminal] at hl
    · intro j hj hp l _ hj'
      rw [hsel j hj hp, hspent] at hj'
      simp [Job.become, hj', Phase.active]
    · intro c _
      rfl
    · intro c hc j hj hid
      obtain ⟨-, hactive⟩ := h.pointed hc hj hid
      by_cases hjob : j.id = b.id
      · cases hterminal : b.terminal with
        | false =>
          left
          by_cases hp : j.heldBy b.leaseToken b.now
          · simp [hid, hjob, hp, Job.become, Phase.active]
          · simp [hid, hjob, hp, hactive]
        | true =>
          right
          rcases hread j hj hjob hterminal with rfl | hended
          · simp [hid, hjob, hheld, Job.become, Phase.active, Conversation.clear]
          · rw [hended] at hactive
            cases hactive
      · left
        simp [hid, hjob, hactive]
  exact advances_settle h ht (Job.become_key _ _ _) Conversation.clear_id

/-! ## What is said and pinned -/

theorem advances_converse (h : Sound limit s) {id ownerId : String} (hexec : exec (.converse id ownerId) s = some s') :
    Advances limit s s' := by
  simp only [exec, Option.map_eq_some_iff] at hexec
  obtain ⟨conversations, hinsert, rfl⟩ := hexec
  obtain ⟨-, hnew⟩ := Table.new_of_insertAll hinsert
  have hold : ∀ {c}, c ∈ s.conversations → c ∈ conversations := fun hc => (Table.mem_insertAll hinsert).2 (.inl hc)
  have hother : ∀ {conversationId}, (∃ c ∈ s.conversations, c.id = conversationId) → conversationId ≠ id := by
    rintro _ ⟨c, hc, rfl⟩
    exact hnew c hc _ (List.mem_singleton.2 rfl)
  have hnamed : ∀ {conversationId}, (∃ c ∈ s.conversations, c.id = conversationId) →
      ∃ c ∈ conversations, c.id = conversationId := by
    rintro _ ⟨c, hc, rfl⟩
    exact ⟨c, hold hc, rfl⟩
  refine ⟨?_, List.prefix_rfl, List.prefix_rfl, fun j hj => ⟨j, hj, .refl j⟩, fun e he => he⟩
  constructor
  · exact h.ordered
  · exact fun m hm => hnamed (h.messages m hm)
  · intro c hc
    rcases (Table.mem_insertAll hinsert).1 hc with hc | hc
    · obtain ⟨covered, rest, hcovers⟩ := h.covers c hc
      exact ⟨covered, rest, hcovers.keep rfl rfl hcovers.said List.prefix_rfl rfl fun j hj _ hactive => ⟨j, hj, rfl, hactive⟩⟩
    · obtain rfl := List.mem_singleton.1 hc
      refine ⟨[], [], ?_, ?_, ?_⟩
      · refine List.filter_eq_nil_iff.2 fun m hm => ?_
        simpa using hother (h.messages m hm)
      · have hnone : s.summaries.rows.filter (fun x => x.conversationId = id) = [] := by
          refine List.filter_eq_nil_iff.2 fun x hx => ?_
          simpa using hother (h.summaries x hx).1
        show Chain 0 (s.summaries.rows.filter fun x => x.conversationId = id) []
        rw [hnone]
        exact .nil
      · intro j hj hconversation
        exact absurd hconversation (hother (h.jobs j hj))
  · exact fun j hj => hnamed (h.jobs j hj)
  · exact fun x hx => ⟨hnamed (h.summaries x hx).1, (h.summaries x hx).2⟩
  · intro c hc
    rcases (Table.mem_insertAll hinsert).1 hc with hc | hc
    · exact h.pending c hc
    · obtain rfl := List.mem_singleton.1 hc
      intro jobId
      constructor
      · rintro ⟨⟩
      · rintro ⟨j, hj, -, hconversation, -⟩
        exact absurd hconversation (hother (h.jobs j hj))
  · exact h.frozen
  · exact h.attempts
  · exact h.leases
  · exact h.claims
  · exact h.tokens

theorem said_append {messages : Table Message.id} {m : Message} (hrows : messages.rows = s.messages.rows ++ [m])
    (conversationId : String) : Store.said { s with messages := messages } conversationId =
      s.said conversationId ++ if m.conversationId = conversationId then [m] else [] := by
  show messages.rows.filter _ = s.messages.rows.filter _ ++ _
  rw [hrows, List.filter_append]
  by_cases hm : m.conversationId = conversationId <;> simp [hm]

/-- A message comes after those that were said before. -/
theorem advances_say (h : Sound limit s) {m : Message} (hlater : ∀ m' ∈ s.said m.conversationId, m'.place < m.place)
    (hexec : exec (.say m) s = some s') : Advances limit s s' := by
  simp only [exec] at hexec
  split at hexec
  · next hconversation =>
    simp only [Option.map_eq_some_iff] at hexec
    obtain ⟨messages, hinsert, rfl⟩ := hexec
    have hrows := Table.rows_insertAll hinsert
    have hprefix : s.messages.rows <+: messages.rows := by
      rw [hrows]
      exact List.prefix_append _ _
    refine ⟨?_, hprefix, List.prefix_rfl, fun j hj => ⟨j, hj, .refl j⟩, fun e he => he⟩
    constructor
    · show Ordered messages.rows
      rw [hrows, Ordered, List.pairwise_append]
      refine ⟨h.ordered, List.pairwise_singleton _ _, ?_⟩
      intro m' hm' m'' hm'' hsame
      obtain rfl := List.mem_singleton.1 hm''
      exact hlater m' (mem_said.2 ⟨hm', hsame⟩)
    · intro m' hm'
      rcases (Table.mem_insertAll hinsert).1 hm' with hm' | hm'
      · exact h.messages m' hm'
      · obtain rfl := List.mem_singleton.1 hm'
        obtain ⟨c, hc, hid⟩ := List.any_eq_true.1 hconversation
        exact ⟨c, hc, of_decide_eq_true hid⟩
    · intro c hc
      obtain ⟨covered, rest, hcovers⟩ := h.covers c hc
      refine ⟨covered, rest ++ (if m.conversationId = c.id then [m] else []), hcovers.keep rfl rfl ?_
        (List.prefix_append _ _) rfl fun j hj _ hactive => ⟨j, hj, rfl, hactive⟩⟩
      rw [said_append hrows, hcovers.said, List.append_assoc]
    · exact h.jobs
    · intro x hx
      refine ⟨(h.summaries x hx).1, (h.summaries x hx).2.trans (usersAfter_mono ?_ _)⟩
      rw [said_append hrows]
      exact List.prefix_append _ _
    · exact h.pending
    · exact h.frozen
    · exact h.attempts
    · exact h.leases
    · exact h.claims
    · exact h.tokens
  · cases hexec

/-- The invariant says nothing of pins. -/
theorem advances_pins (h : Sound limit s) (pins : Table PinnedEntry.key) : Advances limit s { s with pins := pins } := by
  refine ⟨?_, List.prefix_rfl, List.prefix_rfl, fun j hj => ⟨j, hj, .refl j⟩, fun e he => he⟩
  constructor
  · exact h.ordered
  · exact h.messages
  · intro c hc
    obtain ⟨covered, rest, hcovers⟩ := h.covers c hc
    exact ⟨covered, rest, hcovers.keep rfl rfl hcovers.said List.prefix_rfl rfl fun j hj _ hactive => ⟨j, hj, rfl, hactive⟩⟩
  · exact h.jobs
  · exact h.summaries
  · exact h.pending
  · exact h.frozen
  · exact h.attempts
  · exact h.leases
  · exact h.claims
  · exact h.tokens

theorem advances_pin (h : Sound limit s) {entry : PinnedEntry} (hexec : exec (.pin entry) s = some s') :
    Advances limit s s' := by
  simp only [exec, Store.createPin] at hexec
  split at hexec
  · cases hexec
  · split at hexec
    · cases hexec
      exact .refl h
    · obtain ⟨pins, -, rfl⟩ := Option.map_eq_some_iff.1 hexec
      exact advances_pins h pins

end Xauusd.Memory
