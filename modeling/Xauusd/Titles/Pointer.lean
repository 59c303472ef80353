/-
  Every conversation names its active title job, and no other.

  * `Sound s`: a conversation names a job exactly while the job is active;
  * `Sound.settle`: an update of conversations and jobs keeps it that ends a job
    where it takes the name away;
  * `Grows D s s'`: what a batch leaves of the jobs, when the ids in `D` have
    been drawn before: an ended job stays as it is, a lease with a drawn token is
    as it was, and a spent job keeps its lease or ends;
  * `Moves D s s'`: both, for a batch.
-/
import Xauusd.Titles.Requests

namespace Xauusd.Titles

variable {s s' s'' : Store} {D : Set String}

/-- A conversation names its active job, whose versions are not ahead of it. -/
structure Sound (s : Store) : Prop where
  named : ∀ c ∈ s.conversations, ∀ id, c.pendingTitleJobId = some id →
    ∃ j ∈ s.jobs, j.id = id ∧ j.conversationId = c.id ∧ j.phase.active = true
  pointed : ∀ j ∈ s.jobs, j.phase.active = true → ∃ c ∈ s.conversations, c.id = j.conversationId ∧
    c.pendingTitleJobId = some j.id ∧ c.titleRevision = j.expectedTitleRevision
  versions : ∀ j ∈ s.jobs, 0 < j.inputVersion ∧ ∃ c ∈ s.conversations, c.id = j.conversationId ∧
    j.inputVersion ≤ c.titleRequestVersion ∧ j.expectedTitleRevision ≤ c.titleRevision
  returned : ∀ x ∈ s.returned, ∃ j ∈ s.jobs, j.toTitleRequest = x.2.toTitleRequest

theorem sound_empty : Sound Store.empty := by
  constructor <;> rintro _ ⟨⟩

theorem Store.job_inj {j j' : TitleJob} (hj : j ∈ s.jobs) (hj' : j' ∈ s.jobs) (h : j.id = j'.id) : j = j' :=
  s.jobs.eq_of_key_eq hj hj' h

theorem Store.conversation_inj {c c' : Conversation} (hc : c ∈ s.conversations) (hc' : c' ∈ s.conversations)
    (h : c.id = c'.id) : c = c' :=
  s.conversations.eq_of_key_eq hc hc' h

/-- The job that a conversation names. -/
theorem Sound.pair (h : Sound s) {c : Conversation} (hc : c ∈ s.conversations) {j : TitleJob} (hj : j ∈ s.jobs)
    (hid : c.pendingTitleJobId = some j.id) :
    j.conversationId = c.id ∧ j.phase.active = true ∧ c.titleRevision = j.expectedTitleRevision := by
  obtain ⟨j', hj', hid', hconv, hactive⟩ := h.named c hc j.id hid
  obtain rfl := Store.job_inj hj' hj hid'
  obtain ⟨c', hc', hconv', -, hrevision⟩ := h.pointed j' hj hactive
  obtain rfl := Store.conversation_inj hc' hc (hconv'.trans hconv)
  exact ⟨hconv, hactive, hrevision⟩

/-! ## Updates -/

/-- The conversations and the jobs after an update of both. -/
def Store.settle (s : Store) (p : TitleJob → Bool) (f : TitleJob → TitleJob) (hf : ∀ j, (f j).key = j.key)
    (q : Conversation → Bool) (g : Conversation → Conversation) (hg : ∀ c, (g c).id = c.id) : Store :=
  (s.updateJobs p f hf).updateConversations q g hg

section
variable {p : TitleJob → Bool} {f : TitleJob → TitleJob} {hf : ∀ j, (f j).key = j.key} {q : Conversation → Bool}
  {g : Conversation → Conversation} {hg : ∀ c, (g c).id = c.id}

theorem mem_settle_jobs {j : TitleJob} :
    j ∈ (s.settle p f hf q g hg).jobs ↔ ∃ j₀ ∈ s.jobs, j = if p j₀ then f j₀ else j₀ := Table.mem_update hf

theorem mem_settle_conversations {c : Conversation} :
    c ∈ (s.settle p f hf q g hg).conversations ↔ ∃ c₀ ∈ s.conversations, c = if q c₀ then g c₀ else c₀ :=
  Table.mem_update hg

/-- What an update does to a job and to the conversation that names it. -/
structure Together (s : Store) (p : TitleJob → Bool) (f : TitleJob → TitleJob) (q : Conversation → Bool)
    (g : Conversation → Conversation) : Prop where
  request : ∀ j, (f j).toTitleRequest = j.toTitleRequest
  versions : ∀ c, c.titleRequestVersion ≤ (g c).titleRequestVersion ∧ c.titleRevision ≤ (g c).titleRevision
  /-- the name is kept and the job stays active, or both go -/
  pair : ∀ c ∈ s.conversations, ∀ j ∈ s.jobs, c.pendingTitleJobId = some j.id →
    (((if q c then g c else c).pendingTitleJobId = some j.id ∧ (if q c then g c else c).titleRevision = c.titleRevision ∧
        (if p j then f j else j).phase.active = true) ∨
      ((if q c then g c else c).pendingTitleJobId = none ∧ (if p j then f j else j).phase.active = false))
  unnamed : ∀ c, c.pendingTitleJobId = none → (g c).pendingTitleJobId = none
  ended : ∀ j ∈ s.jobs, p j = true → j.phase.active = true

theorem request_ite (hrequest : ∀ j, (f j).toTitleRequest = j.toTitleRequest) (j : TitleJob) :
    (if p j then f j else j).toTitleRequest = j.toTitleRequest := by
  by_cases hp : p j
  · rw [if_pos hp]
    exact hrequest j
  · rw [if_neg hp]

theorem id_ite (hg : ∀ c, (g c).id = c.id) (c : Conversation) : (if q c then g c else c).id = c.id := by
  by_cases hq : q c
  · rw [if_pos hq]
    exact hg c
  · rw [if_neg hq]

theorem Sound.settle (h : Sound s) (ht : Together s p f q g) : Sound (s.settle p f hf q g hg) := by
  constructor
  · intro c' hc' id hid
    obtain ⟨c, hc, rfl⟩ := mem_settle_conversations.1 hc'
    cases hpending : c.pendingTitleJobId with
    | none =>
      have hnone : (if q c then g c else c).pendingTitleJobId = none := by
        by_cases hq : q c
        · rw [if_pos hq]
          exact ht.unnamed c hpending
        · rw [if_neg hq]
          exact hpending
      rw [hnone] at hid
      cases hid
    | some i =>
      obtain ⟨j, hj, rfl, hconv, -⟩ := h.named c hc i hpending
      refine ⟨_, mem_settle_jobs.2 ⟨j, hj, rfl⟩, ?_⟩
      have hrequest := request_ite (p := p) ht.request j
      rcases ht.pair c hc j hj hpending with ⟨hkept, -, hactive⟩ | ⟨hnone, -⟩
      · rw [hkept] at hid
        refine ⟨?_, ?_, hactive⟩
        · exact (congrArg TitleRequest.id hrequest).trans (Option.some.inj hid)
        · exact (congrArg TitleRequest.conversationId hrequest).trans (hconv.trans (id_ite hg c).symm)
      · rw [hnone] at hid
        cases hid
  · intro j' hj' hactive'
    obtain ⟨j, hj, rfl⟩ := mem_settle_jobs.1 hj'
    have hrequest := request_ite (p := p) ht.request j
    have hactive : j.phase.active = true := by
      by_cases hp : p j
      · exact ht.ended j hj hp
      · rwa [if_neg hp] at hactive'
    obtain ⟨c, hc, hconv, hpending, hrevision⟩ := h.pointed j hj hactive
    rcases ht.pair c hc j hj hpending with ⟨hkept, hsame, -⟩ | ⟨-, hended⟩
    · refine ⟨_, mem_settle_conversations.2 ⟨c, hc, rfl⟩, ?_, ?_, ?_⟩
      · exact (id_ite hg c).trans (hconv.trans (congrArg TitleRequest.conversationId hrequest).symm)
      · exact hkept.trans (congrArg (fun r => some r.id) hrequest).symm
      · exact hsame.trans (hrevision.trans (congrArg TitleRequest.expectedTitleRevision hrequest).symm)
    · rw [hended] at hactive'
      cases hactive'
  · intro j' hj'
    obtain ⟨j, hj, rfl⟩ := mem_settle_jobs.1 hj'
    have hrequest := request_ite (p := p) ht.request j
    obtain ⟨hpos, c, hc, hconv, hinput, hrevision⟩ := h.versions j hj
    refine ⟨?_, _, mem_settle_conversations.2 ⟨c, hc, rfl⟩, ?_, ?_⟩
    · rw [congrArg TitleRequest.inputVersion hrequest]
      exact hpos
    · exact (id_ite hg c).trans (hconv.trans (congrArg TitleRequest.conversationId hrequest).symm)
    · have hle : c.titleRequestVersion ≤ (if q c then g c else c).titleRequestVersion ∧
          c.titleRevision ≤ (if q c then g c else c).titleRevision := by
        by_cases hq : q c
        · rw [if_pos hq]
          exact ht.versions c
        · rw [if_neg hq]
          exact ⟨le_rfl, le_rfl⟩
      rw [congrArg TitleRequest.inputVersion hrequest, congrArg TitleRequest.expectedTitleRevision hrequest]
      exact ⟨hinput.trans hle.1, hrevision.trans hle.2⟩
  · intro x hx
    obtain ⟨j, hj, hrequest⟩ := h.returned x hx
    exact ⟨_, mem_settle_jobs.2 ⟨j, hj, rfl⟩, (request_ite ht.request j).trans hrequest⟩

end

/-! ## What a batch leaves -/

/-- What a batch leaves, when the ids in `D` have been drawn before. -/
structure Grows (D : Set String) (s s' : Store) : Prop where
  conversations : ∀ c ∈ s.conversations, ∃ c' ∈ s'.conversations, c'.id = c.id ∧ c'.ownerId = c.ownerId
  requests : ∀ j ∈ s.jobs, ∃ j' ∈ s'.jobs, j'.toTitleRequest = j.toTitleRequest
  ended : ∀ j ∈ s.jobs, j.phase.active = false → j ∈ s'.jobs
  leases : ∀ j' ∈ s'.jobs, ∀ l, j'.phase = .processing l → l.token ∈ D → j' ∈ s.jobs
  spent : ∀ j ∈ s.jobs, ∀ l, j.phase = .processing l → j.spent = true →
    ∃ j' ∈ s'.jobs, j'.id = j.id ∧ (j' = j ∨ j'.phase.active = false)
  returned : ∀ d ∈ D, s'.returned.lookup d = s.returned.lookup d

theorem Grows.refl (D : Set String) (s : Store) : Grows D s s where
  conversations c hc := ⟨c, hc, rfl, rfl⟩
  requests j hj := ⟨j, hj, rfl⟩
  ended _ hj _ := hj
  leases _ hj _ _ _ := hj
  spent j hj _ _ _ := ⟨j, hj, rfl, .inl rfl⟩
  returned _ _ := rfl

theorem Grows.trans (h : Grows D s s') (h' : Grows D s' s'') : Grows D s s'' where
  conversations c hc := by
    obtain ⟨c', hc', hid, howner⟩ := h.conversations c hc
    obtain ⟨c'', hc'', hid', howner'⟩ := h'.conversations c' hc'
    exact ⟨c'', hc'', hid'.trans hid, howner'.trans howner⟩
  requests j hj := by
    obtain ⟨j', hj', hrequest⟩ := h.requests j hj
    obtain ⟨j'', hj'', hrequest'⟩ := h'.requests j' hj'
    exact ⟨j'', hj'', hrequest'.trans hrequest⟩
  ended j hj hended := h'.ended j (h.ended j hj hended) hended
  leases j hj l hl hd := h.leases j (h'.leases j hj l hl hd) l hl hd
  spent j hj l hl hspent := by
    obtain ⟨j', hj', hid, rfl | hended⟩ := h.spent j hj l hl hspent
    · exact h'.spent j' hj' l hl hspent
    · exact ⟨j', h'.ended j' hj' hended, hid, .inr hended⟩
  returned d hd := (h'.returned d hd).trans (h.returned d hd)

theorem Grows.mono {D' : Set String} (h : Grows D' s s') (hD : D ⊆ D') : Grows D s s' :=
  { h with
    leases := fun j hj l hl hd => h.leases j hj l hl (hD hd)
    returned := fun d hd => h.returned d (hD hd) }

section
variable {p : TitleJob → Bool} {f : TitleJob → TitleJob} {hf : ∀ j, (f j).key = j.key} {q : Conversation → Bool}
  {g : Conversation → Conversation} {hg : ∀ c, (g c).id = c.id}

theorem Grows.settle (ht : Together s p f q g) (howner : ∀ c, (g c).ownerId = c.ownerId)
    (hlease : ∀ j ∈ s.jobs, p j = true → ∀ l, (f j).phase = .processing l → l.token ∉ D)
    (hspent : ∀ j ∈ s.jobs, p j = true → ∀ l, j.phase = .processing l → j.spent = true → (f j).phase.active = false) :
    Grows D s (s.settle p f hf q g hg) where
  conversations c hc := by
    refine ⟨_, mem_settle_conversations.2 ⟨c, hc, rfl⟩, id_ite hg c, ?_⟩
    by_cases hq : q c
    · rw [if_pos hq]
      exact howner c
    · rw [if_neg hq]
  requests j hj := ⟨_, mem_settle_jobs.2 ⟨j, hj, rfl⟩, request_ite ht.request j⟩
  ended j hj hended := by
    refine mem_settle_jobs.2 ⟨j, hj, (if_neg fun hp => ?_).symm⟩
    rw [ht.ended j hj hp] at hended
    cases hended
  leases j' hj' l hl hd := by
    obtain ⟨j, hj, rfl⟩ := mem_settle_jobs.1 hj'
    by_cases hp : p j
    · rw [if_pos hp] at hl
      exact absurd hd (hlease j hj hp l hl)
    · rw [if_neg hp]
      exact hj
  spent j hj l hl hs := by
    refine ⟨_, mem_settle_jobs.2 ⟨j, hj, rfl⟩, congrArg TitleRequest.id (request_ite ht.request j), ?_⟩
    by_cases hp : p j
    · rw [if_pos hp]
      exact .inr (hspent j hj hp l hl hs)
    · rw [if_neg hp]
      exact .inl rfl
  returned _ _ := rfl

end

/-- A batch keeps the names, and leaves what is to be left. -/
structure Moves (D : Set String) (s s' : Store) : Prop where
  sound : Sound s'
  grows : Grows D s s'

theorem Moves.refl (h : Sound s) : Moves D s s := ⟨h, .refl D s⟩

theorem Moves.trans (h : Moves D s s') (h' : Moves D s' s'') : Moves D s s'' := ⟨h'.sound, h.grows.trans h'.grows⟩

theorem moves_settle (h : Sound s) {p : TitleJob → Bool} {f : TitleJob → TitleJob} {q : Conversation → Bool}
    {g : Conversation → Conversation} (hf : ∀ j, (f j).key = j.key) (hg : ∀ c, (g c).id = c.id)
    (ht : Together s p f q g) (howner : ∀ c, (g c).ownerId = c.ownerId)
    (hlease : ∀ j ∈ s.jobs, p j = true → ∀ l, (f j).phase = .processing l → l.token ∉ D)
    (hspent : ∀ j ∈ s.jobs, p j = true → ∀ l, j.phase = .processing l → j.spent = true → (f j).phase.active = false) :
    Moves D s (s.settle p f hf q g hg) := ⟨h.settle ht, .settle ht howner hlease hspent⟩

/-- An update of jobs alone. -/
theorem updateJobs_eq_settle (s : Store) (p : TitleJob → Bool) (f : TitleJob → TitleJob)
    (hf : ∀ j, (f j).key = j.key) :
    s.updateJobs p f hf = s.settle p f hf (fun _ => false) id fun _ => rfl := by
  have hsame : s.conversations.update (fun _ => false) id (fun _ => rfl) = s.conversations :=
    Table.update_eq_self _ fun _ _ h => by cases h
  simp only [Store.settle, Store.updateConversations, Store.updateJobs, hsame]

/-- Active jobs that stay active. -/
theorem moves_shift (h : Sound s) {p : TitleJob → Bool} {f : TitleJob → TitleJob} {hf : ∀ j, (f j).key = j.key}
    (hrequest : ∀ j, (f j).toTitleRequest = j.toTitleRequest) (hactive : ∀ j, (f j).phase.active = true)
    (hp : ∀ j ∈ s.jobs, p j = true → j.phase.active = true)
    (hlease : ∀ j ∈ s.jobs, p j = true → ∀ l, (f j).phase = .processing l → l.token ∉ D)
    (hspent : ∀ j ∈ s.jobs, p j = true → ∀ l, j.phase = .processing l → j.spent = false) :
    Moves D s (s.updateJobs p f hf) := by
  rw [updateJobs_eq_settle]
  have ht : Together s p f (fun _ => false) id := by
    constructor
    · exact hrequest
    · exact fun c => ⟨le_rfl, le_rfl⟩
    · intro c hc j hj hid
      refine .inl ⟨hid, rfl, ?_⟩
      by_cases hpj : p j
      · rw [if_pos hpj]
        exact hactive j
      · rw [if_neg hpj]
        exact (h.pair hc hj hid).2.1
    · exact fun c hc => hc
    · exact hp
  refine moves_settle h _ _ ht (fun _ => rfl) hlease fun j hj hpj l hl hs => ?_
  rw [hspent j hj hpj l hl] at hs
  cases hs

end Xauusd.Titles
