/-
  What each batch on titles does where it lands.

  * `moves_rename`, `moves_claim`, `moves_complete`, `moves_release`: the
    batches that update;
  * `Opened s s' c job`: the conversation `c` has got the new job;
  * `regenerate_cases`, `automatic_cases`: the batches that request a job;
  * `Steady s b`: no key is requested again, and no lost lease completes;
  * `exec_moves`: **a steady batch keeps the names**.
-/
import Xauusd.Titles.Pointer

namespace Xauusd.Titles

variable {s s' : Store} {D : Set String}

theorem TitleJob.heldBy_iff {leaseToken : String} {now : ℤ} {j : TitleJob} :
    j.heldBy leaseToken now = true ↔ ∃ l, j.phase = .processing l ∧ l.token = leaseToken ∧ now < l.expiresAt := by
  cases hphase : j.phase <;> simp [TitleJob.heldBy, hphase]

theorem TitleJob.lapsed_iff {now : ℤ} {j : TitleJob} :
    j.lapsed now = true ↔ ∃ l, j.phase = .processing l ∧ l.expiresAt ≤ now := by
  cases hphase : j.phase <;> simp [TitleJob.lapsed, hphase]

theorem active_of_processing {j : TitleJob} {l : Lease} (h : j.phase = .processing l) : j.phase.active = true := by
  rw [h]
  rfl

theorem active_of_heldBy {leaseToken : String} {now : ℤ} {j : TitleJob} (h : j.heldBy leaseToken now = true) :
    j.phase.active = true := by
  obtain ⟨l, hl, -⟩ := TitleJob.heldBy_iff.1 h
  exact active_of_processing hl

theorem active_of_lapsed {now : ℤ} {j : TitleJob} (h : j.lapsed now = true) : j.phase.active = true := by
  obtain ⟨l, hl, -⟩ := TitleJob.lapsed_iff.1 h
  exact active_of_processing hl

/-! ## Updates -/

theorem moves_rename (h : Sound s) (ownerId conversationId title : String) (now : ℤ) :
    Moves D s (s.rename ownerId conversationId title now) := by
  have ht : Together s
      (fun j => j.phase.active && s.conversations.rows.any fun c =>
        c.ownerId = ownerId && c.id = conversationId && c.pendingTitleJobId = some j.id)
      (TitleJob.become (.cancelled now) none (some "USER_RENAMED"))
      (fun c => c.ownerId = ownerId && c.id = conversationId) (Conversation.retitle title .user) := by
    constructor
    · exact fun j => rfl
    · exact fun c => ⟨le_rfl, Nat.le_succ _⟩
    · intro c hc j hj hid
      obtain ⟨hconv, hactive, -⟩ := h.pair hc hj hid
      by_cases hq : c.ownerId = ownerId ∧ c.id = conversationId
      · right
        have hany : (s.conversations.rows.any fun c =>
            c.ownerId = ownerId && c.id = conversationId && c.pendingTitleJobId = some j.id) = true :=
          List.any_eq_true.2 ⟨c, hc, by simp [hq.1, hq.2, hid]⟩
        simp [hq.1, hq.2, hactive, hany, Conversation.retitle, TitleJob.become]
      · left
        have hany : (s.conversations.rows.any fun c =>
            c.ownerId = ownerId && c.id = conversationId && c.pendingTitleJobId = some j.id) = false := by
          refine Bool.eq_false_iff.2 fun hany => hq ?_
          obtain ⟨c', hc', hsel⟩ := List.any_eq_true.1 hany
          simp only [Bool.and_eq_true, decide_eq_true_eq] at hsel
          have hsame := Store.conversation_inj hc hc' (hconv.symm.trans (h.pair hc' hj hsel.2).1)
          rw [hsame]
          exact hsel.1
        have hqb : (decide (c.ownerId = ownerId) && decide (c.id = conversationId)) = false := by
          simpa using hq
        simp [hqb, hany, hactive, hid]
    · exact fun c _ => rfl
    · intro j hj hp
      simp only [Bool.and_eq_true] at hp
      exact hp.1
  exact moves_settle h _ (Conversation.retitle_id title .user) ht (fun _ => rfl) (fun j _ _ l hl => by cases hl)
    fun j _ _ l _ _ => rfl

theorem moves_failLapsed (h : Sound s) (now : ℤ) : Moves D s (s.failLapsed now) := by
  have ht : Together s (fun j => j.lapsed now && j.spent)
      (TitleJob.become (.failed now) none (some "LEASE_EXPIRED"))
      (fun c => c.pendingTitleJobId.any fun id => s.jobs.rows.any fun j => j.id = id && j.lapsed now && j.spent)
      Conversation.clear := by
    constructor
    · exact fun j => rfl
    · exact fun c => ⟨le_rfl, le_rfl⟩
    · intro c hc j hj hid
      obtain ⟨hconv, hactive, -⟩ := h.pair hc hj hid
      have hq : (c.pendingTitleJobId.any fun id => s.jobs.rows.any fun j => j.id = id && j.lapsed now && j.spent) =
          (j.lapsed now && j.spent) := by
        rw [hid, Option.any_some, Bool.eq_iff_iff, List.any_eq_true]
        constructor
        · rintro ⟨j', hj', hsel⟩
          simp only [Bool.and_eq_true, decide_eq_true_eq] at hsel
          obtain rfl := Store.job_inj hj' hj hsel.1.1
          simp [hsel.1.2, hsel.2]
        · intro hsel
          exact ⟨j, hj, by simpa [and_assoc] using hsel⟩
      by_cases hp : (j.lapsed now && j.spent) = true
      · right
        rw [if_pos hp, if_pos (hq.trans hp)]
        exact ⟨rfl, rfl⟩
      · left
        rw [if_neg hp, if_neg (by rw [hq]; exact hp)]
        exact ⟨hid, rfl, hactive⟩
    · exact fun c _ => rfl
    · intro j hj hp
      simp only [Bool.and_eq_true] at hp
      exact active_of_lapsed hp.1
  exact moves_settle h (TitleJob.become_key _ _ _) Conversation.clear_id ht (fun _ => rfl)
    (fun j _ _ l hl => by cases hl) fun j _ _ l _ _ => rfl

theorem moves_giveBack (h : Sound s) (now : ℤ) : Moves D s (s.giveBack now) := by
  refine moves_shift h (fun _ => rfl) (fun _ => rfl) (fun j _ hp => ?_) (fun j _ _ l hl => by cases hl) ?_
  · simp only [Bool.and_eq_true] at hp
    exact active_of_lapsed hp.1
  · intro j _ hp l _
    simp only [Bool.and_eq_true, Bool.not_eq_true'] at hp
    exact hp.2

/-- The row that a batch returns is of a job. -/
theorem Moves.returning (h : Moves D s s') {d : String} {row : TitleJob} (hd : d ∉ D)
    (hrow : ∃ j ∈ s'.jobs, j.toTitleRequest = row.toTitleRequest) :
    Moves D s { s' with returned := (d, row) :: s'.returned } := by
  refine ⟨⟨h.sound.named, h.sound.pointed, h.sound.versions, fun x hx => ?_⟩, { h.grows with returned := ?_ }⟩
  · rcases List.mem_cons.1 hx with rfl | hx
    · exact hrow
    · exact h.sound.returned x hx
  · intro d' hd'
    have hne : (d' == d) = false := by
      rw [beq_eq_false_iff_ne]
      rintro rfl
      exact hd hd'
    rw [List.lookup_cons, hne]
    exact h.grows.returned d' hd'

theorem moves_claim (h : Sound s) {workerId leaseToken : String} (hfresh : leaseToken ∉ D) (now : ℤ) :
    Moves D s (s.claim workerId leaseToken now) := by
  have hswept : Moves D s ((s.failLapsed now).giveBack now) :=
    (moves_failLapsed h now).trans (moves_giveBack (moves_failLapsed (D := D) h now).sound now)
  unfold Store.claim
  dsimp only
  split
  · exact hswept
  · next j hnext =>
    have hmem := Table.mem_of_firstBy hnext
    simp only [List.mem_filter, Bool.and_eq_true, decide_eq_true_eq] at hmem
    obtain ⟨hj, hpending, -⟩ := hmem
    have hsel : ∀ j' ∈ ((s.failLapsed now).giveBack now).jobs, decide (j'.id = j.id) = true → j' = j :=
      fun j' hj' hp => Store.job_inj hj' hj (of_decide_eq_true hp)
    have hclaimed : Moves D ((s.failLapsed now).giveBack now)
        (((s.failLapsed now).giveBack now).updateJobs (fun j' => j'.id = j.id)
          (TitleJob.claimed ⟨workerId, leaseToken, now + titleJobLease⟩) (TitleJob.claimed_key _)) := by
      refine moves_shift hswept.sound (fun _ => rfl) (fun _ => rfl) ?_ ?_ ?_
      · intro j' hj' hp
        rw [hsel j' hj' hp, hpending]
        rfl
      · intro j' _ _ l hl
        obtain rfl := Phase.processing.inj hl
        exact hfresh
      · intro j' hj' hp l hl
        rw [hsel j' hj' hp, hpending] at hl
        cases hl
    refine (hswept.trans hclaimed).returning hfresh ⟨_, (Table.mem_update (TitleJob.claimed_key _)).2 ⟨j, hj, rfl⟩, ?_⟩
    simp [TitleJob.claimed]

/-- The batch of a completion is of the job that it names, and finds it leased
    or ended. -/
theorem moves_complete (h : Sound s) {b : Completion}
    (hread : ∀ j ∈ s.jobs, j.id = b.id → j.conversationId = b.conversationId ∧
      j.expectedTitleRevision = b.expectedTitleRevision)
    (hheld : ∀ j ∈ s.jobs, j.id = b.id → j.phase.active = true → j.heldBy b.leaseToken b.now = true) :
    Moves D s (s.complete b) := by
  have ht : Together s (fun j => j.id = b.id && j.heldBy b.leaseToken b.now)
      (TitleJob.become (.completed b.title b.modelVersion b.now) none none)
      (fun c => c.id = b.conversationId && c.pendingTitleJobId = some b.id && c.titleRevision = b.expectedTitleRevision)
      (Conversation.retitle b.title .ai) := by
    constructor
    · exact fun j => rfl
    · exact fun c => ⟨le_rfl, Nat.le_succ _⟩
    · intro c hc j hj hid
      obtain ⟨hconv, hactive, hrevision⟩ := h.pair hc hj hid
      by_cases hjob : j.id = b.id
      · right
        have hheld := hheld j hj hjob hactive
        obtain ⟨hconv', hrevision'⟩ := hread j hj hjob
        have hq : c.id = b.conversationId ∧ c.pendingTitleJobId = some b.id ∧
            c.titleRevision = b.expectedTitleRevision :=
          ⟨hconv.symm.trans hconv', hid.trans (congrArg some hjob), hrevision.trans hrevision'⟩
        simp [hjob, hheld, hq, Conversation.retitle, TitleJob.become]
      · left
        simp [hjob, hid, hactive]
    · exact fun c _ => rfl
    · intro j hj hp
      simp only [Bool.and_eq_true, decide_eq_true_eq] at hp
      exact active_of_heldBy hp.2
  exact moves_settle h _ (Conversation.retitle_id b.title .ai) ht (fun _ => rfl) (fun j _ _ l hl => by cases hl)
    fun j _ _ l _ _ => rfl

/-- The batch of a release says whether its job is spent, and finds a spent one
    leased or ended. -/
theorem moves_release (h : Sound s) {b : Release}
    (hread : ∀ j ∈ s.jobs, j.id = b.id → j.heldBy b.leaseToken b.now = true → j.spent = b.terminal)
    (hheld : b.terminal = true → ∀ j ∈ s.jobs, j.id = b.id →
      j.heldBy b.leaseToken b.now = true ∨ j.phase.active = false) :
    Moves D s (s.release b) := by
  have ht : Together s (fun j => j.id = b.id && j.heldBy b.leaseToken b.now)
      (TitleJob.become (if b.terminal then .failed b.now else .pending) (some b.availableAt) (some b.failureCode))
      (fun c => c.pendingTitleJobId = some b.id && b.terminal) Conversation.clear := by
    constructor
    · exact fun j => rfl
    · exact fun c => ⟨le_rfl, le_rfl⟩
    · intro c hc j hj hid
      obtain ⟨hconv, hactive, -⟩ := h.pair hc hj hid
      by_cases hjob : j.id = b.id
      · cases hterminal : b.terminal with
        | false =>
          left
          by_cases hp : j.heldBy b.leaseToken b.now
          · simp [hid, hjob, hp, TitleJob.become]
          · simp [hid, hjob, hp, hactive]
        | true =>
          right
          rcases hheld hterminal j hj hjob with hp | hended
          · simp [hid, hjob, hp, TitleJob.become, Phase.active, Conversation.clear]
          · rw [hended] at hactive
            cases hactive
      · left
        simp [hid, hjob, hactive]
    · exact fun c _ => rfl
    · intro j hj hp
      simp only [Bool.and_eq_true, decide_eq_true_eq] at hp
      exact active_of_heldBy hp.2
  refine moves_settle h _ Conversation.clear_id ht (fun _ => rfl) ?_ ?_
  · intro j _ _ l hl
    cases hterminal : b.terminal <;> simp [TitleJob.become, hterminal] at hl
  · intro j hj hp l hl hspent
    simp only [Bool.and_eq_true, decide_eq_true_eq] at hp
    rw [hread j hj hp.1 hp.2] at hspent
    simp [TitleJob.become, hspent]

/-! ## Requests -/

/-- The conversation has got the new job. -/
structure Opened (s s' : Store) (c : Conversation) (job : TitleJob) : Prop where
  mem : c ∈ s.conversations
  free : c.pendingTitleJobId = none
  conversations : ∀ c', c' ∈ s'.conversations ↔
    c' = c.request job.id ∨ c' ∈ s.conversations ∧ c' ≠ c
  jobs : ∀ j, j ∈ s'.jobs ↔ j ∈ s.jobs ∨ j = job
  returned : s'.returned = (job.id, job) :: s.returned
  conversationId : job.conversationId = c.id
  inputVersion : job.inputVersion = c.titleRequestVersion + 1
  expectedTitleRevision : job.expectedTitleRevision = c.titleRevision
  phase : job.phase = .pending

theorem Opened.request_mem {c : Conversation} {job : TitleJob} (ho : Opened s s' c job) :
    c.request job.id ∈ s'.conversations := (ho.conversations _).2 (.inl rfl)

theorem moves_opened (h : Sound s) {c : Conversation} {job : TitleJob} (ho : Opened s s' c job)
    (hnew : ∀ j ∈ s.jobs, j.id ≠ job.id) (hd : job.id ∉ D) : Moves D s s' := by
  have hjob : job ∈ s'.jobs := (ho.jobs _).2 (.inr rfl)
  have hold : ∀ j ∈ s.jobs, j ∈ s'.jobs := fun j hj => (ho.jobs j).2 (.inl hj)
  have hsound : Sound s' := by
    constructor
    · intro c' hc' id hid
      rcases (ho.conversations c').1 hc' with rfl | ⟨hc', -⟩
      · refine ⟨job, hjob, Option.some.inj hid, ho.conversationId, ?_⟩
        rw [ho.phase]
        rfl
      · obtain ⟨j, hj, hj'⟩ := h.named c' hc' id hid
        exact ⟨j, hold j hj, hj'⟩
    · intro j hj hactive
      rcases (ho.jobs j).1 hj with hj | rfl
      · obtain ⟨c', hc', hconv, hid, hrevision⟩ := h.pointed j hj hactive
        refine ⟨c', (ho.conversations c').2 (.inr ⟨hc', ?_⟩), hconv, hid, hrevision⟩
        rintro rfl
        rw [ho.free] at hid
        cases hid
      · exact ⟨_, ho.request_mem, ho.conversationId.symm, rfl, ho.expectedTitleRevision.symm⟩
    · intro j hj
      rcases (ho.jobs j).1 hj with hj | rfl
      · obtain ⟨hpos, c', hc', hconv, hinput, hrevision⟩ := h.versions j hj
        refine ⟨hpos, ?_⟩
        by_cases hsame : c' = c
        · subst hsame
          exact ⟨_, ho.request_mem, hconv, hinput.trans (Nat.le_succ _), hrevision⟩
        · exact ⟨c', (ho.conversations c').2 (.inr ⟨hc', hsame⟩), hconv, hinput, hrevision⟩
      · refine ⟨?_, _, ho.request_mem, ho.conversationId.symm, ?_, ?_⟩
        · rw [ho.inputVersion]
          omega
        · exact ho.inputVersion.le
        · exact ho.expectedTitleRevision.le
    · intro x hx
      rw [ho.returned] at hx
      rcases List.mem_cons.1 hx with rfl | hx
      · exact ⟨job, hjob, rfl⟩
      · obtain ⟨j, hj, hrequest⟩ := h.returned x hx
        exact ⟨j, hold j hj, hrequest⟩
  refine ⟨hsound, ?_⟩
  constructor
  · intro c' hc'
    by_cases hsame : c' = c
    · subst hsame
      exact ⟨_, ho.request_mem, rfl, rfl⟩
    · exact ⟨c', (ho.conversations c').2 (.inr ⟨hc', hsame⟩), rfl, rfl⟩
  · exact fun j hj => ⟨j, hold j hj, rfl⟩
  · exact fun j hj _ => hold j hj
  · intro j hj l hl _
    rcases (ho.jobs j).1 hj with hj | rfl
    · exact hj
    · rw [ho.phase] at hl
      cases hl
  · exact fun j hj l _ _ => ⟨j, hold j hj, rfl, .inl rfl⟩
  · intro d hd'
    have hne : (d == job.id) = false := by
      rw [beq_eq_false_iff_ne]
      rintro rfl
      exact hd hd'
    rw [ho.returned, List.lookup_cons, hne]

/-- A free conversation is marked with the new job, and found by it. -/
theorem find?_request (h : Sound s) {jobId conversationId : String} (hnew : ∀ j ∈ s.jobs, j.id ≠ jobId)
    {p q : Conversation → Bool} (hp : ∀ c, p c = true → c.id = conversationId ∧ c.pendingTitleJobId = none)
    (hq : ∀ c, q c = true → c.pendingTitleJobId = some jobId) (hpq : ∀ c, p c = true → q (c.request jobId) = true) :
    let s₁ := s.updateConversations p (Conversation.request jobId) (Conversation.request_id jobId)
    ((∀ c ∈ s.conversations, p c = false) ∧ s₁ = s ∧ s₁.conversations.rows.find? q = none) ∨
      ∃ c ∈ s.conversations, p c = true ∧ s₁.conversations.rows.find? q = some (c.request jobId) ∧
        ∀ c', c' ∈ s₁.conversations ↔ c' = c.request jobId ∨ c' ∈ s.conversations ∧ c' ≠ c := by
  intro s₁
  have hunnamed : ∀ c ∈ s.conversations, q c = false := by
    intro c hc
    refine Bool.eq_false_iff.2 fun hqc => ?_
    obtain ⟨j, hj, hid, -⟩ := h.named c hc jobId (hq c hqc)
    exact hnew j hj hid
  by_cases hopen : ∃ c ∈ s.conversations, p c = true
  · obtain ⟨c, hc, hpc⟩ := hopen
    have honly : ∀ c' ∈ s.conversations, p c' = true → c' = c := fun c' hc' hpc' =>
      Store.conversation_inj hc' hc ((hp c' hpc').1.trans (hp c hpc).1.symm)
    have hmem : ∀ c', c' ∈ s₁.conversations ↔ c' = c.request jobId ∨ c' ∈ s.conversations ∧ c' ≠ c := by
      intro c'
      refine (Table.mem_update (Conversation.request_id jobId)).trans ⟨?_, ?_⟩
      · rintro ⟨c₀, hc₀, rfl⟩
        by_cases hpc₀ : p c₀
        · rw [if_pos hpc₀, honly c₀ hc₀ hpc₀]
          exact .inl rfl
        · rw [if_neg hpc₀]
          refine .inr ⟨hc₀, ?_⟩
          rintro rfl
          exact hpc₀ hpc
      · rintro (rfl | ⟨hc', hne⟩)
        · exact ⟨c, hc, (if_pos hpc).symm⟩
        · exact ⟨c', hc', (if_neg fun hpc' => hne (honly c' hc' hpc')).symm⟩
    refine .inr ⟨c, hc, hpc, ?_, hmem⟩
    cases hfind : s₁.conversations.rows.find? q with
    | none =>
      have hfound := List.find?_eq_none.1 hfind (c.request jobId) ((hmem _).2 (.inl rfl))
      exact absurd (hpq c hpc) hfound
    | some c' =>
      have hqc' := List.find?_some hfind
      rcases (hmem c').1 (List.mem_of_find?_eq_some hfind) with rfl | ⟨hc', -⟩
      · rfl
      · rw [hunnamed c' hc'] at hqc'
        cases hqc'
  · have hclosed : ∀ c ∈ s.conversations, p c = false := fun c hc => Bool.eq_false_iff.2 fun hpc => hopen ⟨c, hc, hpc⟩
    have hsame : s₁ = s := by
      have htable : s.conversations.update p (Conversation.request jobId) (Conversation.request_id jobId) =
          s.conversations := Table.update_eq_self _ fun c hc hpc => by rw [hclosed c hc] at hpc; cases hpc
      simp only [s₁, Store.updateConversations, htable]
    refine .inl ⟨hclosed, hsame, ?_⟩
    rw [hsame]
    exact List.find?_eq_none.2 fun c hc => Bool.eq_false_iff.1 (hunnamed c hc)

/-- A job that no other is in the way of is inserted. -/
theorem insertJob_new {j : TitleJob} (hnew : ∀ j' ∈ s.jobs, j'.id ≠ j.id ∧ Store.clash j j' = false)
    (hland : s.insertJob j = some s') : s'.conversations = s.conversations ∧
      (∀ j', j' ∈ s'.jobs ↔ j' ∈ s.jobs ∨ j' = j) ∧ s'.returned = (j.id, j) :: s.returned := by
  unfold Store.insertJob at hland
  split at hland
  · cases hland
    refine ⟨rfl, fun j' => ?_, ?_⟩
    · obtain ⟨-, r, hr, hclash⟩ | ⟨-, hrows⟩ := s.jobs.insertIgnore_cases j (Store.clash j)
      · rcases hclash with hkey | hclash
        · exact absurd hkey (hnew r hr).1
        · rw [(hnew r hr).2] at hclash
          cases hclash
      · rw [← Table.mem_rows, hrows, List.mem_append, List.mem_singleton, Table.mem_rows]
    · refine if_neg fun hany => ?_
      obtain ⟨j', hj', hclash⟩ := List.any_eq_true.1 hany
      simp only [Bool.or_eq_true, decide_eq_true_eq] at hclash
      rcases hclash with hkey | hclash
      · exact (hnew j' hj').1 hkey
      · rw [(hnew j' hj').2] at hclash
        cases hclash
  · cases hland

theorem opened_of_insertJob {s₁ : Store} {c : Conversation} {job : TitleJob} (hc : c ∈ s.conversations)
    (hfree : c.pendingTitleJobId = none)
    (hmem : ∀ c', c' ∈ s₁.conversations ↔ c' = c.request job.id ∨ c' ∈ s.conversations ∧ c' ≠ c)
    (hjobs : s₁.jobs = s.jobs) (hreturned : s₁.returned = s.returned)
    (hnew : ∀ j' ∈ s.jobs, j'.id ≠ job.id ∧ Store.clash job j' = false) (hland : s₁.insertJob job = some s')
    (hconv : job.conversationId = c.id) (hinput : job.inputVersion = c.titleRequestVersion + 1)
    (hrevision : job.expectedTitleRevision = c.titleRevision) (hphase : job.phase = .pending) :
    Opened s s' c job := by
  rw [← hjobs] at hnew
  obtain ⟨hconvs, hmem', hret⟩ := insertJob_new hnew hland
  rw [hjobs] at hmem'
  rw [hreturned] at hret
  exact ⟨hc, hfree, fun c' => by rw [hconvs]; exact hmem c', hmem', hret, hconv, hinput, hrevision, hphase⟩

/-- The versions of a conversation's jobs are behind the one of its next. -/
theorem Sound.version_ne (h : Sound s) {c : Conversation} (hc : c ∈ s.conversations) {j : TitleJob} (hj : j ∈ s.jobs)
    (hconv : j.conversationId = c.id) : j.inputVersion ≠ c.titleRequestVersion + 1 := by
  obtain ⟨-, c', hc', hconv', hinput, -⟩ := h.versions j hj
  obtain rfl := Store.conversation_inj hc' hc (hconv'.trans hconv)
  omega

/-- A regeneration finds no free conversation, or opens its job there. -/
theorem regenerate_cases (h : Sound s) {b : Regeneration} (hnew : ∀ j ∈ s.jobs, j.id ≠ b.jobId)
    (hkey : ∀ j ∈ s.jobs, j.conversationId = b.conversationId → j.idempotencyKey = b.idempotencyKey →
      ∃ c ∈ s.conversations, c.id = b.conversationId ∧ c.pendingTitleJobId ≠ none)
    (hland : s.regenerate b = some s') :
    (s' = s ∧ ∀ c ∈ s.conversations, c.ownerId = b.ownerId → c.id = b.conversationId → c.pendingTitleJobId ≠ none) ∨
      ∃ c, c.id = b.conversationId ∧ Opened s s' c (b.job (c.request b.jobId)) := by
  obtain ⟨hclosed, hsame, hfind⟩ | ⟨c, hc, hpc, hfind, hmem⟩ := find?_request h hnew
    (p := fun c => c.ownerId = b.ownerId && c.id = b.conversationId && c.pendingTitleJobId = none)
    (q := fun c => c.ownerId = b.ownerId && c.id = b.conversationId && c.pendingTitleJobId = some b.jobId)
    (fun c hpc => by
      simp only [Bool.and_eq_true, decide_eq_true_eq] at hpc
      exact ⟨hpc.1.2, hpc.2⟩)
    (fun c hqc => by
      simp only [Bool.and_eq_true, decide_eq_true_eq] at hqc
      exact hqc.2)
    (fun c hpc => by
      simp only [Bool.and_eq_true, decide_eq_true_eq] at hpc
      simp [Conversation.request, hpc.1])
  · simp only [Store.regenerate, hfind, Option.some.injEq] at hland
    refine .inl ⟨hland.symm.trans hsame, fun c hc howner hid hnone => ?_⟩
    have hpc := hclosed c hc
    simp [howner, hid, hnone] at hpc
  · simp only [Store.regenerate, hfind] at hland
    simp only [Bool.and_eq_true, decide_eq_true_eq] at hpc
    obtain ⟨⟨-, hid⟩, hfree⟩ := hpc
    refine .inr ⟨c, hid, opened_of_insertJob hc hfree hmem rfl rfl ?_ hland rfl rfl rfl rfl⟩
    intro j hj
    refine ⟨hnew j hj, Bool.eq_false_iff.2 fun hclash => ?_⟩
    simp only [Store.clash, Bool.and_eq_true, Bool.or_eq_true, decide_eq_true_eq] at hclash
    obtain ⟨hconv, hversion | hsamekey⟩ := hclash
    · exact h.version_ne hc hj hconv hversion
    · obtain ⟨c', hc', hid', hnamed⟩ := hkey j hj (hconv.trans hid) hsamekey
      obtain rfl := Store.conversation_inj hc' hc (hid'.trans hid.symm)
      exact hnamed hfree

/-- So does the schedule of a first title, which finds no other job. -/
theorem automatic_cases (h : Sound s) {b : Automatic} (hnew : ∀ j ∈ s.jobs, j.id ≠ b.jobId)
    (hland : s.automatic b = some s') :
    s' = s ∨ ∃ c firstUserMessageId, Opened s s' c (b.job (c.request b.jobId) firstUserMessageId) := by
  obtain ⟨hclosed, hsame, hfind⟩ | ⟨c, hc, hpc, hfind, hmem⟩ := find?_request h hnew
    (p := fun c => c.id = b.conversationId && c.titleSource = .provisional && c.titleRequestVersion = 0 &&
      c.pendingTitleJobId = none && s.messages.rows.any fun m =>
        m.id = b.assistantMessageId && m.conversationId = c.id && m.role = .assistant)
    (q := fun c => c.pendingTitleJobId = some b.jobId)
    (fun c hpc => by
      simp only [Bool.and_eq_true, decide_eq_true_eq] at hpc
      exact ⟨hpc.1.1.1.1, hpc.1.2⟩)
    (fun c hqc => of_decide_eq_true hqc)
    (fun c _ => by simp [Conversation.request])
  · simp only [Store.automatic, hfind, Option.some.injEq] at hland
    exact .inl (hland.symm.trans hsame)
  · simp only [Store.automatic, hfind] at hland
    simp only [Bool.and_eq_true, decide_eq_true_eq] at hpc
    obtain ⟨⟨⟨-, hversion⟩, hfree⟩, -⟩ := hpc
    split at hland
    · cases hland
    · next m _ =>
      refine .inr ⟨c, m.id, opened_of_insertJob hc hfree hmem rfl rfl ?_ hland rfl rfl rfl rfl⟩
      intro j hj
      refine ⟨hnew j hj, Bool.eq_false_iff.2 fun hclash => ?_⟩
      simp only [Store.clash, Bool.and_eq_true, decide_eq_true_eq] at hclash
      obtain ⟨hpos, c', hc', hconv', hinput, -⟩ := h.versions j hj
      obtain rfl := Store.conversation_inj hc' hc (hconv'.trans hclash.1)
      omega

/-! ## The batches -/

theorem moves_converse (h : Sound s) {id ownerId title : String} (hland : exec (.converse id ownerId title) s = some s') :
    Moves D s s' := by
  rw [exec, Option.map_eq_some_iff] at hland
  obtain ⟨conversations, hinsert, rfl⟩ := hland
  have hold : ∀ c ∈ s.conversations, c ∈ conversations := fun c hc => (Table.mem_insertAll hinsert).2 (.inl hc)
  refine ⟨⟨fun c hc id' hid => ?_, fun j hj hactive => ?_, fun j hj => ?_, h.returned⟩,
    { Grows.refl D s with conversations := fun c hc => ⟨c, hold c hc, rfl, rfl⟩ }⟩
  · rcases (Table.mem_insertAll hinsert).1 hc with hc | hc
    · exact h.named c hc id' hid
    · rw [List.mem_singleton.1 hc] at hid
      cases hid
  · obtain ⟨c, hc, hpointed⟩ := h.pointed j hj hactive
    exact ⟨c, hold c hc, hpointed⟩
  · obtain ⟨hpos, c, hc, hversions⟩ := h.versions j hj
    exact ⟨hpos, c, hold c hc, hversions⟩

theorem moves_say (h : Sound s) {m : Message} (hland : exec (.say m) s = some s') : Moves D s s' := by
  rw [exec] at hland
  split at hland
  · obtain ⟨messages, -, rfl⟩ := Option.map_eq_some_iff.1 hland
    exact ⟨⟨h.named, h.pointed, h.versions, h.returned⟩, { Grows.refl D s with }⟩
  · cases hland

/-- A regeneration lands while no job of its conversation has its key, or one is
    pending; a completion, while its lease is held or its job has ended. -/
def Batch.Steady (s : Store) : Batch → Prop
  | .regenerate b => ∀ j ∈ s.jobs, j.conversationId = b.conversationId → j.idempotencyKey = b.idempotencyKey →
      ∃ c ∈ s.conversations, c.id = b.conversationId ∧ c.pendingTitleJobId ≠ none
  | .complete b => ∀ j ∈ s.jobs, j.id = b.id → j.phase.active = true → j.heldBy b.leaseToken b.now = true
  | _ => True

instance decidableSteady (s : Store) : (b : Batch) → Decidable (b.Steady s)
  | .regenerate _ => by unfold Batch.Steady; infer_instance
  | .complete _ => by unfold Batch.Steady; infer_instance
  | .converse _ _ _ | .say _ | .rename _ _ _ _ | .automatic _ | .claim _ _ _ | .release _ => isTrue trivial

/-- What a request has read of the job that its batch names. -/
def Batch.Informed (s : Store) : Batch → Prop
  | .complete b => ∀ j ∈ s.jobs, j.id = b.id →
      j.conversationId = b.conversationId ∧ j.expectedTitleRevision = b.expectedTitleRevision
  | .release b => (∀ j ∈ s.jobs, j.id = b.id → j.heldBy b.leaseToken b.now = true → j.spent = b.terminal) ∧
      (b.terminal = true → ∀ j ∈ s.jobs, j.id = b.id → j.heldBy b.leaseToken b.now = true ∨ j.phase.active = false)
  | _ => True

/-- **A steady batch keeps the names.** -/
theorem exec_moves (h : Sound s) (hids : ∀ j ∈ s.jobs, j.id ∈ D) {b : Batch}
    (hfresh : ∀ d, b.drawn? = some d → d ∉ D) (hsteady : b.Steady s) (hinformed : b.Informed s)
    (hland : exec b s = some s') : Moves D s s' := by
  have hnew : ∀ jobId, b.drawn? = some jobId → ∀ j ∈ s.jobs, j.id ≠ jobId := by
    rintro jobId hdrawn j hj rfl
    exact hfresh _ hdrawn (hids j hj)
  cases b with
  | converse id ownerId title => exact moves_converse h hland
  | say m => exact moves_say h hland
  | rename ownerId conversationId title now =>
    cases hland
    exact moves_rename h ownerId conversationId title now
  | regenerate b =>
    obtain ⟨rfl, -⟩ | ⟨c, -, ho⟩ := regenerate_cases h (hnew _ rfl) hsteady hland
    · exact .refl h
    · exact moves_opened h ho (hnew _ rfl) (hfresh _ rfl)
  | automatic b =>
    obtain rfl | ⟨c, firstUserMessageId, ho⟩ := automatic_cases h (hnew _ rfl) hland
    · exact .refl h
    · exact moves_opened h ho (hnew _ rfl) (hfresh _ rfl)
  | claim workerId leaseToken now =>
    cases hland
    exact moves_claim h (hfresh _ rfl) now
  | complete b =>
    cases hland
    exact moves_complete h hinformed hsteady
  | release b =>
    cases hland
    exact moves_release h hinformed.1 hinformed.2

/-! ## Lost leases -/

/-- The batch carries a lease that its job does not have. -/
def Batch.Lost (s : Store) : Batch → Prop
  | .complete b => ∀ j ∈ s.jobs, j.id = b.id → j.heldBy b.leaseToken b.now = false
  | .release b => ∀ j ∈ s.jobs, j.id = b.id → j.heldBy b.leaseToken b.now = false
  | _ => False

instance decidableLost (s : Store) : (b : Batch) → Decidable (b.Lost s)
  | .complete _ => by unfold Batch.Lost; infer_instance
  | .release _ => by unfold Batch.Lost; infer_instance
  | .converse _ _ _ | .say _ | .rename _ _ _ _ | .regenerate _ | .automatic _ | .claim _ _ _ => isFalse id

/-- An update that hits nothing. -/
theorem settle_eq_self {p : TitleJob → Bool} {f : TitleJob → TitleJob} {hf : ∀ j, (f j).key = j.key}
    {q : Conversation → Bool} {g : Conversation → Conversation} {hg : ∀ c, (g c).id = c.id}
    (hp : ∀ j ∈ s.jobs, p j = false) (hq : ∀ c ∈ s.conversations, q c = false) : s.settle p f hf q g hg = s := by
  have hjobs : s.jobs.update p f hf = s.jobs := Table.update_eq_self hf fun j hj hpj => by rw [hp j hj] at hpj; cases hpj
  have hconversations : s.conversations.update q g hg = s.conversations :=
    Table.update_eq_self hg fun c hc hqc => by rw [hq c hc] at hqc; cases hqc
  simp only [Store.settle, Store.updateJobs, Store.updateConversations, hjobs, hconversations]

/-- **A lost lease changes nothing.** -/
theorem exec_lost (h : Sound s) {b : Batch} (hsteady : b.Steady s) (hinformed : b.Informed s) (hlost : b.Lost s) :
    exec b s = some s := by
  have hunheld : ∀ {id leaseToken : String} {now : ℤ},
      (∀ j ∈ s.jobs, j.id = id → j.heldBy leaseToken now = false) →
      ∀ j ∈ s.jobs, (decide (j.id = id) && j.heldBy leaseToken now) = false := by
    intro id leaseToken now hlost j hj
    by_cases hid : j.id = id
    · simp [hlost j hj hid]
    · simp [hid]
  cases b with
  | complete b =>
    refine congrArg some (settle_eq_self (hunheld hlost) fun c hc => Bool.eq_false_iff.2 fun hq => ?_)
    simp only [Bool.and_eq_true, decide_eq_true_eq] at hq
    obtain ⟨j, hj, hid, -, hactive⟩ := h.named c hc b.id hq.1.2
    have hheld := hsteady j hj hid hactive
    rw [hlost j hj hid] at hheld
    cases hheld
  | release b =>
    refine congrArg some (settle_eq_self (hunheld hlost) fun c hc => Bool.eq_false_iff.2 fun hq => ?_)
    simp only [Bool.and_eq_true, decide_eq_true_eq] at hq
    obtain ⟨j, hj, hid, -, hactive⟩ := h.named c hc b.id hq.1
    rcases hinformed.2 hq.2 j hj hid with hheld | hended
    · rw [hlost j hj hid] at hheld
      cases hheld
    · rw [hended] at hactive
      cases hactive
  | converse _ _ _ => exact hlost.elim
  | say _ => exact hlost.elim
  | rename _ _ _ _ => exact hlost.elim
  | regenerate _ => exact hlost.elim
  | automatic _ => exact hlost.elim
  | claim _ _ _ => exact hlost.elim

end Xauusd.Titles
