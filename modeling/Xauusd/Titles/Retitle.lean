/-
  Where titles and title jobs come from.

  * `exec_born`: a job of the store after a batch was there before, or the batch
    has requested it;
  * `Retitled b c c'`: what the batch does to the title of a conversation;
  * `exec_retitled`: **only a rename makes a title the owner's, and only a
    completion takes it from the owner**.
-/
import Xauusd.Titles.Landing

namespace Xauusd.Titles

variable {s s' : Store}

/-- The job that a batch requests. -/
def Batch.requests? : Batch → Option String
  | .regenerate b => some b.jobId
  | .automatic b => some b.jobId
  | _ => none

theorem Batch.drawn?_of_requests? {b : Batch} {jobId : String} (h : b.requests? = some jobId) :
    b.drawn? = some jobId := by
  cases b with
  | regenerate b => exact h
  | automatic b => exact h
  | converse _ _ _ => cases h
  | say _ => cases h
  | rename _ _ _ _ => cases h
  | claim _ _ _ => cases h
  | complete _ => cases h
  | release _ => cases h

/-! ## Jobs -/

/-- Every job after was there before, but for its progress. -/
def Store.Same (s s' : Store) : Prop := ∀ j' ∈ s'.jobs, ∃ j ∈ s.jobs, j.toTitleRequest = j'.toTitleRequest

theorem Store.Same.trans {s'' : Store} (h : s.Same s') (h' : s'.Same s'') : s.Same s'' := by
  intro j'' hj''
  obtain ⟨j', hj', hrequest'⟩ := h' j'' hj''
  obtain ⟨j, hj, hrequest⟩ := h j' hj'
  exact ⟨j, hj, hrequest.trans hrequest'⟩

theorem same_settle {p : TitleJob → Bool} {f : TitleJob → TitleJob} {hf : ∀ j, (f j).key = j.key}
    {q : Conversation → Bool} {g : Conversation → Conversation} {hg : ∀ c, (g c).id = c.id}
    (hrequest : ∀ j, (f j).toTitleRequest = j.toTitleRequest) : s.Same (s.settle p f hf q g hg) := by
  intro j' hj'
  obtain ⟨j, hj, rfl⟩ := mem_settle_jobs.1 hj'
  exact ⟨j, hj, (request_ite hrequest j).symm⟩

theorem same_updateJobs {p : TitleJob → Bool} {f : TitleJob → TitleJob} {hf : ∀ j, (f j).key = j.key}
    (hrequest : ∀ j, (f j).toTitleRequest = j.toTitleRequest) : s.Same (s.updateJobs p f hf) := by
  rw [updateJobs_eq_settle]
  exact same_settle hrequest

theorem same_failLapsed (s : Store) (now : ℤ) : s.Same (s.failLapsed now) := by
  intro j' hj'
  have hsame : s.Same (s.updateJobs (fun j => j.lapsed now && j.spent)
      (TitleJob.become (.failed now) none (some "LEASE_EXPIRED")) (TitleJob.become_key _ _ _)) :=
    same_updateJobs fun _ => rfl
  exact hsame j' hj'

theorem same_claim (s : Store) (workerId leaseToken : String) (now : ℤ) :
    s.Same (s.claim workerId leaseToken now) := by
  have hback : (s.failLapsed now).Same ((s.failLapsed now).giveBack now) := same_updateJobs fun _ => rfl
  have hswept := (same_failLapsed s now).trans hback
  unfold Store.claim
  dsimp only
  split
  · exact hswept
  · next j _ =>
    have hclaimed : ((s.failLapsed now).giveBack now).Same
        (((s.failLapsed now).giveBack now).updateJobs (fun j' => j'.id = j.id)
          (TitleJob.claimed ⟨workerId, leaseToken, now + titleJobLease⟩) (TitleJob.claimed_key _)) :=
      same_updateJobs fun _ => rfl
    exact hswept.trans hclaimed

/-- **A new job is one that the batch requests.** -/
theorem exec_born (h : Sound s) {b : Batch} (hnew : ∀ jobId, b.drawn? = some jobId → ∀ j ∈ s.jobs, j.id ≠ jobId)
    (hsteady : b.Steady s) (hland : exec b s = some s') {j' : TitleJob} (hj' : j' ∈ s'.jobs) :
    (∃ j ∈ s.jobs, j.toTitleRequest = j'.toTitleRequest) ∨ b.requests? = some j'.id := by
  have hopened : ∀ {c : Conversation} {job : TitleJob}, Opened s s' c job → b.requests? = some job.id →
      (∃ j ∈ s.jobs, j.toTitleRequest = j'.toTitleRequest) ∨ b.requests? = some j'.id := by
    intro c job ho hrequests
    rcases (ho.jobs j').1 hj' with hj | rfl
    · exact .inl ⟨j', hj, rfl⟩
    · exact .inr hrequests
  cases b with
  | converse id ownerId title =>
    obtain ⟨conversations, -, rfl⟩ := Option.map_eq_some_iff.1 hland
    exact .inl ⟨j', hj', rfl⟩
  | say m =>
    rw [exec] at hland
    split at hland
    · obtain ⟨messages, -, rfl⟩ := Option.map_eq_some_iff.1 hland
      exact .inl ⟨j', hj', rfl⟩
    · cases hland
  | rename ownerId conversationId title now =>
    cases hland
    have hsame : s.Same (s.rename ownerId conversationId title now) := same_settle fun _ => rfl
    exact .inl (hsame j' hj')
  | regenerate b =>
    obtain ⟨rfl, -⟩ | ⟨c, -, ho⟩ := regenerate_cases h (hnew _ rfl) hsteady hland
    · exact .inl ⟨j', hj', rfl⟩
    · exact hopened ho rfl
  | automatic b =>
    obtain rfl | ⟨c, firstUserMessageId, ho⟩ := automatic_cases h (hnew _ rfl) hland
    · exact .inl ⟨j', hj', rfl⟩
    · exact hopened ho rfl
  | claim workerId leaseToken now =>
    cases hland
    exact .inl (same_claim s workerId leaseToken now j' hj')
  | complete b =>
    cases hland
    have hsame : s.Same (s.complete b) := same_settle fun _ => rfl
    exact .inl (hsame j' hj')
  | release b =>
    cases hland
    have hsame : s.Same (s.release b) := same_settle fun _ => rfl
    exact .inl (hsame j' hj')

/-! ## Titles -/

/-- The batch renames the conversation. -/
def Batch.renames (c : Conversation) : Batch → Bool
  | .rename ownerId conversationId _ _ => ownerId = c.ownerId && conversationId = c.id
  | _ => false

/-- What the batch does to the title of a conversation. -/
structure Retitled (b : Batch) (c c' : Conversation) : Prop where
  id : c'.id = c.id
  ownerId : c'.ownerId = c.ownerId
  revision : c.titleRevision ≤ c'.titleRevision
  renamed : b.renames c = true → c.titleRevision < c'.titleRevision
  /-- the title is the owner's because of this rename, or was it before -/
  toUser : c'.titleSource = .user → (∃ now, b = .rename c.ownerId c.id c'.title now) ∨
    c.titleSource = .user ∧ c'.title = c.title
  /-- a title that is the owner's no more was replaced by a completion -/
  fromUser : c.titleSource = .user → c'.titleSource ≠ .user →
    ∃ x, b = .complete x ∧ c.pendingTitleJobId = some x.id

theorem Retitled.of_same {b : Batch} {c c' : Conversation} (hid : c'.id = c.id) (howner : c'.ownerId = c.ownerId)
    (htitle : c'.title = c.title) (hsource : c'.titleSource = c.titleSource)
    (hrevision : c'.titleRevision = c.titleRevision) (hb : b.renames c = false) : Retitled b c c' where
  id := hid
  ownerId := howner
  revision := hrevision.ge
  renamed h := by
    rw [hb] at h
    cases h
  toUser h := .inr ⟨hsource.symm.trans h, htitle⟩
  fromUser h h' := absurd (hsource.trans h) h'

/-- The batch leaves titles alone, and takes the name of a job away. -/
theorem retitled_clear {b : Batch} (hb : ∀ c, b.renames c = false) (p : Bool) (c : Conversation) :
    Retitled b c (if p then c.clear else c) := by
  cases p with
  | true => exact .of_same rfl rfl rfl rfl rfl (hb c)
  | false => exact .of_same rfl rfl rfl rfl rfl (hb c)

/-- Every conversation after a batch was there before it, or has just begun. -/
def Store.Retitles (b : Batch) (s s' : Store) : Prop :=
  ∀ c' ∈ s'.conversations, (∃ c ∈ s.conversations, Retitled b c c') ∨
    (∀ c ∈ s.conversations, c.id ≠ c'.id) ∧ c'.titleSource = .provisional

theorem retitles_refl {b : Batch} (hb : ∀ c, b.renames c = false) (s : Store) : Store.Retitles b s s :=
  fun c hc => .inl ⟨c, hc, .of_same rfl rfl rfl rfl rfl (hb c)⟩

theorem retitles_opened {b : Batch} (hb : ∀ c, b.renames c = false) {c : Conversation} {job : TitleJob}
    (ho : Opened s s' c job) : Store.Retitles b s s' := by
  intro c' hc'
  rcases (ho.conversations c').1 hc' with rfl | ⟨hc', -⟩
  · exact .inl ⟨c, ho.mem, .of_same rfl rfl rfl rfl rfl (hb c)⟩
  · exact .inl ⟨c', hc', .of_same rfl rfl rfl rfl rfl (hb c')⟩

/-- **What the batches do to titles.** -/
theorem exec_retitled (h : Sound s) {b : Batch} (hnew : ∀ jobId, b.drawn? = some jobId → ∀ j ∈ s.jobs, j.id ≠ jobId)
    (hsteady : b.Steady s) (hland : exec b s = some s') : Store.Retitles b s s' := by
  cases b with
  | converse id ownerId title =>
    obtain ⟨conversations, hinsert, rfl⟩ := Option.map_eq_some_iff.1 hland
    intro c' hc'
    rcases (Table.mem_insertAll hinsert).1 hc' with hc' | hc'
    · exact .inl ⟨c', hc', .of_same rfl rfl rfl rfl rfl rfl⟩
    · rw [List.mem_singleton.1 hc']
      exact .inr ⟨fun c hc => (Table.new_of_insertAll hinsert).2 c hc _ (List.mem_singleton.2 rfl), rfl⟩
  | say m =>
    rw [exec] at hland
    split at hland
    · obtain ⟨messages, -, rfl⟩ := Option.map_eq_some_iff.1 hland
      exact fun c hc => .inl ⟨c, hc, .of_same rfl rfl rfl rfl rfl rfl⟩
    · cases hland
  | rename ownerId conversationId title now =>
    cases hland
    intro c' hc'
    obtain ⟨c, hc, rfl⟩ := (Table.mem_update (Conversation.retitle_id title .user)).1 hc'
    refine .inl ⟨c, hc, ?_⟩
    by_cases hp : c.ownerId = ownerId ∧ c.id = conversationId
    · rw [if_pos (by simp [hp])]
      obtain ⟨rfl, rfl⟩ := hp
      exact ⟨rfl, rfl, Nat.le_succ _, fun _ => Nat.lt_succ_self _, fun _ => .inl ⟨now, rfl⟩,
        fun _ hne => absurd rfl hne⟩
    · rw [if_neg (by simpa using hp)]
      refine .of_same rfl rfl rfl rfl rfl (Bool.eq_false_iff.2 fun hb => hp ?_)
      simp only [Batch.renames, Bool.and_eq_true, decide_eq_true_eq] at hb
      exact ⟨hb.1.symm, hb.2.symm⟩
  | regenerate b =>
    obtain ⟨rfl, -⟩ | ⟨c, -, ho⟩ := regenerate_cases h (hnew _ rfl) hsteady hland
    · exact retitles_refl (fun _ => rfl) s'
    · exact retitles_opened (fun _ => rfl) ho
  | automatic b =>
    obtain rfl | ⟨c, firstUserMessageId, ho⟩ := automatic_cases h (hnew _ rfl) hland
    · exact retitles_refl (fun _ => rfl) s'
    · exact retitles_opened (fun _ => rfl) ho
  | claim workerId leaseToken now =>
    cases hland
    have hclear : (s.claim workerId leaseToken now).conversations = (s.failLapsed now).conversations := by
      unfold Store.claim
      dsimp only
      split <;> rfl
    intro c' hc'
    rw [hclear] at hc'
    obtain ⟨c, hc, rfl⟩ := (Table.mem_update Conversation.clear_id).1 hc'
    exact .inl ⟨c, hc, retitled_clear (fun _ => rfl) _ c⟩
  | complete b =>
    cases hland
    intro c' hc'
    obtain ⟨c, hc, rfl⟩ := (Table.mem_update (Conversation.retitle_id b.title .ai)).1 hc'
    refine .inl ⟨c, hc, ?_⟩
    split
    · next hp =>
      simp only [Bool.and_eq_true, decide_eq_true_eq] at hp
      refine ⟨rfl, rfl, Nat.le_succ _, ?_, ?_, fun _ _ => ⟨b, rfl, hp.1.2⟩⟩
      · rintro ⟨⟩
      · rintro ⟨⟩
    · exact .of_same rfl rfl rfl rfl rfl rfl
  | release b =>
    cases hland
    intro c' hc'
    obtain ⟨c, hc, rfl⟩ := (Table.mem_update Conversation.clear_id).1 hc'
    exact .inl ⟨c, hc, retitled_clear (fun _ => rfl) _ c⟩

end Xauusd.Titles
