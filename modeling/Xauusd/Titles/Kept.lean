/-
  What the requests on titles promise.

  * `Answered w`: a request for a title names a job that there is;
  * `Kept f`: a conversation names its active job, a lost lease changes nothing,
    and the owner's title is replaced only by a job requested after it;
  * `titles_kept`: **in every run whose batches land steadily, titles are kept**;
  * `titles_clobbered`: a key that two requests use leaves a conversation with
    the name of no job, and a lease that was given back completes.
-/
import Xauusd.Titles.Interleaved

namespace Xauusd.Titles

open Program

/-! ## Answers -/

/-- There is a job of the conversation, the one named where one is named. -/
def Answered (s : Store) (conversationId : String) : TitleRegenerationOutcome → Prop
  | .created job | .existing job =>
    job.conversationId = conversationId ∧ ∃ j ∈ s.jobs, j.toTitleRequest = job.toTitleRequest
  | .alreadyPending => ∃ j ∈ s.jobs, j.conversationId = conversationId
  | .notFound => True
  | .noAssistantMessage => True

def Reply.Answered (w : World) : Reply → Prop
  | .regenerated conversationId outcome => Titles.Answered w.state conversationId outcome
  | _ => True

theorem answered_later (w w' : World) (reply : Reply) (hw : Later w w') (h : reply.Answered w) :
    reply.Answered w' := by
  cases reply with
  | regenerated conversationId outcome =>
    have hjobs : ∀ {r : TitleRequest}, (∃ j ∈ w.state.jobs, j.toTitleRequest = r) →
        ∃ j ∈ w'.state.jobs, j.toTitleRequest = r := by
      rintro r ⟨j, hj, rfl⟩
      exact hw.grows.requests j hj
    cases outcome with
    | created job => exact ⟨h.1, hjobs h.2⟩
    | existing job => exact ⟨h.1, hjobs h.2⟩
    | alreadyPending =>
      obtain ⟨j, hj, hconv⟩ := h
      obtain ⟨j', hj', hrequest⟩ := hw.grows.requests j hj
      exact ⟨j', hj', (congrArg TitleRequest.conversationId hrequest).trans hconv⟩
    | notFound => trivial
    | noAssistantMessage => trivial
  | null => trivial
  | recorded => trivial
  | claimed item => trivial
  | refused => trivial
  | aborted => trivial

theorem mem_jobUnderKey {s : Store} {c : RegenerateCall} {job : TitleJob} (h : s.jobUnderKey c = some job) :
    job ∈ s.jobs ∧ job.conversationId = c.conversationId := by
  have hsel := List.find?_some h
  simp only [Bool.and_eq_true, decide_eq_true_eq] at hsel
  exact ⟨List.mem_of_find?_eq_some h, hsel.1.1⟩

theorem mem_owned {s : Store} {ownerId conversationId : String} {c : Conversation}
    (h : s.owned ownerId conversationId = some c) :
    c ∈ s.conversations ∧ c.ownerId = ownerId ∧ c.id = conversationId := by
  have hsel := List.find?_some h
  simp only [Bool.and_eq_true, decide_eq_true_eq] at hsel
  exact ⟨List.mem_of_find?_eq_some h, hsel⟩

/-- A conversation that names a job has one. -/
theorem answered_of_named {w w' : World} (hw : Later w w') {c : Conversation} (hc : c ∈ w.state.conversations)
    (hsound : Sound w.state) (hnamed : c.pendingTitleJobId ≠ none) : ∃ j ∈ w'.state.jobs, j.conversationId = c.id := by
  obtain ⟨id, hid⟩ := Option.ne_none_iff_exists'.1 hnamed
  obtain ⟨j, hj, -, hconv, -⟩ := hsound.named c hc id hid
  obtain ⟨j', hj', hrequest⟩ := hw.grows.requests j hj
  exact ⟨j', hj', (congrArg TitleRequest.conversationId hrequest).trans hconv⟩

/-- What the batch of a regeneration has done when it has landed: its row is
    returned, or the conversation names a job. -/
theorem regenerate_landed {w w' : World} (h : Invariant w) {b : Regeneration} (hlands : Lands w (.regenerate b))
    (hland : land exec (.regenerate b) w = some w') {c : Conversation} (hc : c ∈ w.state.conversations)
    (howner : c.ownerId = b.ownerId) (hid : c.id = b.conversationId) :
    (∃ job ∈ w'.state.jobs, job.conversationId = b.conversationId ∧ w'.state.returned.lookup b.jobId = some job) ∨
      w'.state.returned.lookup b.jobId = none ∧ ∃ j ∈ w'.state.jobs, j.conversationId = b.conversationId := by
  have hnew := new_of_fresh h.known hlands.1
  obtain ⟨hexec, -⟩ := land_eq_some hland
  obtain ⟨hsame, hnamed⟩ | ⟨c', hid', ho⟩ := regenerate_cases h.sound (hnew _ rfl) hlands.2 hexec
  · right
    rw [hsame]
    refine ⟨?_, ?_⟩
    · refine Option.not_isSome_iff_eq_none.1 fun hsome => ?_
      exact hlands.1 _ (Option.mem_toList.2 rfl) (h.known.returned _ hsome)
    · rw [← hid]
      exact answered_of_named (later_refl w h) hc h.sound (hnamed c hc howner hid)
  · left
    refine ⟨_, (ho.jobs _).2 (.inr rfl), ho.conversationId.trans hid', ?_⟩
    rw [ho.returned]
    exact List.lookup_cons_self

theorem answers_regenerate (c : RegenerateCall) (w : World) :
    (requestAssistantTitleRegeneration c).Answers exec Later Lands (fun w r => r.Answered w) w := by
  intro w₁ h₁
  dsimp only
  split
  · next job hjob =>
    obtain ⟨hmem, hconv⟩ := mem_jobUnderKey hjob
    exact ⟨hconv, job, hmem, rfl⟩
  · intro w₂ h₂
    dsimp only
    split
    · trivial
    · next conversation howned =>
      obtain ⟨hmem, howner, hid⟩ := mem_owned howned
      intro w₃ h₃
      dsimp only
      split
      · split
        · next hpending =>
          have hnamed : conversation.pendingTitleJobId ≠ none := Option.isSome_iff_ne_none.1 hpending
          obtain ⟨j, hj, hconv⟩ := answered_of_named h₃ hmem h₂.invariant.sound hnamed
          exact ⟨j, hj, hconv.trans hid⟩
        · intro w₄ h₄ hlands
          dsimp only
          split
          · next w₅ hland =>
            obtain ⟨c', hc', hid', howner'⟩ := (later_trans _ _ _ h₃ h₄).grows.conversations conversation hmem
            have hlater := (later_land h₄.invariant hlands trivial hland).2
            intro w₆ h₆
            have hdrawn : c.jobId ∈ draws w₅.log := by
              rw [(land_eq_some hland).2, draws_cons]
              exact .inl rfl
            have hlookup := h₆.grows.returned c.jobId hdrawn
            rcases regenerate_landed h₄.invariant hlands hland hc' (howner'.trans howner) (hid'.trans hid) with
              ⟨job, hjob, hconv, hreturned⟩ | ⟨hreturned, j, hj, hconv⟩
            · rw [hreturned] at hlookup
              dsimp only
              rw [hlookup]
              exact ⟨hconv, h₆.grows.requests job hjob⟩
            · rw [hreturned] at hlookup
              dsimp only
              rw [hlookup]
              intro w₇ h₇
              dsimp only
              split
              · next replay hreplay =>
                obtain ⟨hmem', hconv'⟩ := mem_jobUnderKey hreplay
                exact ⟨hconv', replay, hmem', rfl⟩
              · obtain ⟨j', hj', hrequest⟩ := (later_trans _ _ _ h₆ h₇).grows.requests j hj
                exact ⟨j', hj', (congrArg TitleRequest.conversationId hrequest).trans hconv⟩
          · trivial
      · trivial

/-! Other requests reply nothing about jobs. -/

theorem answers_release (id leaseToken failureCode : String) (delay : ℕ → ℤ) (now : ℤ) (w : World) :
    (releaseTitleJob id leaseToken failureCode delay now).Answers exec Later Lands (fun w r => r.Answered w) w := by
  intro w₁ h₁
  dsimp only
  split
  · trivial
  · intro w₂ h₂ _
    dsimp only
    split
    · trivial
    · trivial

theorem answers_fail (id leaseToken failureCode : String) (now : ℤ) (w : World) :
    (failAssistantTitleJob id leaseToken failureCode now).Answers exec Later Lands (fun w r => r.Answered w) w := by
  unfold failAssistantTitleJob
  split
  · trivial
  · exact answers_release _ _ _ _ _ w

theorem answers_claim (workerId leaseToken : String) (now : ℤ) (w : World) :
    (claimAssistantTitleJob workerId leaseToken now).Answers exec Later Lands (fun w r => r.Answered w) w := by
  intro w₁ h₁ _
  dsimp only
  split
  · intro w₂ h₂
    dsimp only
    split
    · trivial
    · intro w₃ h₃
      dsimp only
      split
      · trivial
      · exact answers_fail _ _ _ _ w₃
  · trivial

theorem answers_complete (c : CompleteCall) (w : World) :
    (completeAssistantTitleJob c).Answers exec Later Lands (fun w r => r.Answered w) w := by
  unfold completeAssistantTitleJob
  split
  · trivial
  · split
    · trivial
    · intro w₁ h₁
      dsimp only
      split
      · trivial
      · split
        · trivial
        · intro w₂ h₂ _
          dsimp only
          split
          · trivial
          · trivial

theorem answers_commit (b : Batch) (w : World) :
    (commit b fun _ => done .recorded : Handler).Answers exec Later Lands (fun w r => r.Answered w) w := by
  intro w' _ _
  dsimp only
  split
  · trivial
  · trivial

theorem answers_program (k : Request) (w : World) :
    k.program.Answers exec Later Lands (fun w r => r.Answered w) w := by
  cases k with
  | converse id ownerId title => exact answers_commit _ w
  | say m => exact answers_commit _ w
  | rename ownerId conversationId title now => exact answers_commit _ w
  | regenerate c => exact answers_regenerate c w
  | automatic b => exact answers_commit _ w
  | claim workerId leaseToken now => exact answers_claim workerId leaseToken now w
  | complete c => exact answers_complete c w
  | fail id leaseToken failureCode now => exact answers_fail id leaseToken failureCode now w
  | defer id leaseToken now =>
    exact answers_release id leaseToken "NO_MODEL_CAPACITY" (fun _ => 60 * IsoTime.second) now w

/-! ## The promise -/

/-- The job was requested after the renames of the conversation, of which there
    is one to its title. -/
def RequestedSince (log : List Batch) (c : Conversation) (jobId : String) : Prop :=
  ∃ later request earlier, log = later ++ request :: earlier ∧ request.requests? = some jobId ∧
    (∀ b ∈ later, b.renames c = false) ∧ ∃ now, .rename c.ownerId c.id c.title now ∈ earlier

/-- What is promised of titles. -/
structure Kept (f : TitleFlight) : Prop where
  /-- a conversation names its active job, and no other -/
  pointer : ∀ c ∈ f.world.state.conversations, ∀ id, c.pendingTitleJobId = some id ↔
    ∃ j ∈ f.world.state.jobs, j.id = id ∧ j.conversationId = c.id ∧ j.phase.active = true
  answers : ∀ conversationId outcome, done (.regenerated conversationId outcome) ∈ f.requests →
    Answered f.world.state conversationId outcome
  /-- a batch with a lost lease, where it lands -/
  lost : ∀ (i : ℕ) (b : Batch) next, f.requests[i]? = some (commit b next) → Lands f.world b → b.Lost f.world.state →
    exec b f.world.state = some f.world.state
  /-- a batch that takes a title from the owner -/
  owner : ∀ (i : ℕ) (b : Batch) next s', f.requests[i]? = some (commit b next) → Lands f.world b →
    exec b f.world.state = some s' →
    ∀ c ∈ f.world.state.conversations, c.titleSource = .user →
      ∀ c' ∈ s'.conversations, c'.id = c.id → c'.titleSource ≠ .user →
        ∃ x, b = .complete x ∧ RequestedSince f.world.log c x.id

theorem requestedSince_of_named {w : World} (h : Invariant w) {c : Conversation} (hc : c ∈ w.state.conversations)
    (huser : c.titleSource = .user) {id : String} (hid : c.pendingTitleJobId = some id) :
    RequestedSince w.log c id := by
  obtain ⟨j, hj, rfl, -⟩ := h.sound.named c hc id hid
  obtain ⟨hconv, -, hrevision⟩ := h.sound.pair hc hj hid
  obtain ⟨later, request, earlier, hsplit, hrequests, hlater⟩ := h.dated j hj
  have hnone := hlater c hc hconv.symm hrevision
  refine ⟨later, request, earlier, hsplit, hrequests, hnone, ?_⟩
  obtain ⟨now, hmem⟩ := h.owned c hc huser
  rw [hsplit, List.mem_append, List.mem_cons] at hmem
  rcases hmem with hmem | rfl | hmem
  · have hrenames := hnone _ hmem
    simp [Batch.renames] at hrenames
  · cases hrequests
  · exact ⟨now, hmem⟩

theorem kept_of_invariant {f : TitleFlight} (h : Invariant f.world)
    (hrelies : ∀ p ∈ f.requests, p.Relies Later Informed f.world)
    (hanswers : ∀ p ∈ f.requests, p.Answers exec Later Lands (fun w r => r.Answered w) f.world) : Kept f := by
  constructor
  · intro c hc id
    constructor
    · exact h.sound.named c hc id
    · rintro ⟨j, hj, rfl, hconv, hactive⟩
      obtain ⟨c', hc', hid', hnamed, -⟩ := h.sound.pointed j hj hactive
      rwa [Store.conversation_inj hc hc' (hconv.symm.trans hid'.symm)]
  · intro conversationId outcome hmem
    exact hanswers _ hmem
  · intro i b next hget hlands hlost
    have hinformed := (hrelies _ (List.mem_of_getElem? hget) _ (later_refl _ h)).1
    exact exec_lost h.sound hlands.2 hinformed hlost
  · intro i b next s' hget hlands hexec c hc huser c' hc' hid hsource
    rcases exec_retitled h.sound (new_of_fresh h.known hlands.1) hlands.2 hexec c' hc' with
      ⟨c₀, hc₀, hretitled⟩ | ⟨hbegun, -⟩
    · obtain rfl := Store.conversation_inj hc₀ hc (hretitled.id.symm.trans hid)
      obtain ⟨x, rfl, hnamed⟩ := hretitled.fromUser huser hsource
      exact ⟨x, rfl, requestedSince_of_named h hc₀ huser hnamed⟩
    · exact absurd hid.symm (hbegun c hc)

/-- **In every run whose batches land steadily, titles are kept**, whatever the
    clocks say. -/
theorem titles_kept {actions : List TitleAction}
    (h : Machine.Along step (FlightAction.Meets Lands) TitleFlight.initial actions) :
    Kept (Machine.run step TitleFlight.initial actions) := by
  have hsends : TitleFlight.initial.Sends fun _ => True := by rintro _ ⟨⟩
  have hnone {P : Handler → Prop} : ∀ p ∈ TitleFlight.initial.requests, P p := by rintro _ ⟨⟩
  have hland : ∀ b w w', True → Lands w b → Informed w b → Invariant w → land exec b w = some w' →
      Invariant w' ∧ Later w w' := fun b w w' _ hlands hinformed hw hland => later_land hw hlands hinformed hland
  obtain ⟨-, hrelies, hinvariant⟩ := flight_relies later_refl later_trans (fun k => sends_trivial _)
    (fun k w _ => relies_program k w) hland h hsends hnone invariant_initial
  exact kept_of_invariant hinvariant hrelies (flight_answers later_refl later_trans (fun k => sends_trivial _)
    (fun k w _ => relies_program k w) hland answered_later (fun k w _ => answers_program k w) h hsends hnone
    invariant_initial hnone)

/-! ## Two runs -/

/-- The clock of a request. -/
def Request.now? : Request → Option ℤ
  | .rename _ _ _ now | .claim _ _ now | .fail _ _ _ now | .defer _ _ now => some now
  | .regenerate c => some c.now
  | .automatic b => some b.now
  | .complete c => some c.now
  | .converse _ _ _ | .say _ => none

/-- The clocks of the requests, in the order of their starts. -/
def clocks (actions : List TitleAction) : List ℤ :=
  actions.filterMap fun
    | .start k => k.now?
    | .advance _ => none

/-- The batch that the request at a place sends next. -/
def batchAt (f : TitleFlight) (i : ℕ) : Option Batch :=
  match f.requests[i]? with
  | some (commit b _) => some b
  | _ => none

/-- A conversation with a question and an answer: the requests 0 to 2. -/
def opening : List TitleAction :=
  [.start (.converse "conversation" "owner" "Gold?"), .advance 0,
    .start (.say ⟨"question", "conversation", .user, "Gold?", 1⟩), .advance 1,
    .start (.say ⟨"answer", "conversation", .assistant, "Gold.", 2⟩), .advance 2]

def regeneration (jobId : String) (now : ℤ) : TitleAction :=
  .start (.regenerate ⟨"owner", "conversation", "title-key-000001", now, jobId⟩)

def completion (now : ℤ) : TitleAction :=
  .start (.complete ⟨"job-1", "token-1", some "Gold today", "model", ASSISTANT_TITLE_PROMPT_VERSION, true, now⟩)

/-- The owner renames, asks for a title, and a worker completes it. -/
def regenerated : List TitleAction :=
  opening ++ [.start (.rename "owner" "conversation" "Mine" 3), .advance 3,
    regeneration "job-1" 4, .advance 4, .advance 4, .advance 4, .advance 4, .advance 4,
    .start (.claim "worker" "token-1" 5), .advance 5, .advance 5, .advance 5, completion 6, .advance 6, .advance 6]

theorem titles_kept_regenerated :
    (∃ c ∈ (Machine.run step TitleFlight.initial regenerated).world.state.conversations, c.title = "Gold today") ∧
      Kept (Machine.run step TitleFlight.initial regenerated) :=
  ⟨by decide, titles_kept (by decide)⟩

/-- Two requests with one key read, the first one's job is cancelled by a rename,
    and the batch of the second lands. -/
def twice : List TitleAction :=
  opening ++ [regeneration "job-1" 3, regeneration "job-2" 4, .advance 3, .advance 3, .advance 3,
    .advance 4, .advance 4, .advance 4, .advance 3, .start (.rename "owner" "conversation" "Mine" 5), .advance 5,
    .advance 4]

/-- A worker reads for its completion, and gives its lease back before the batch
    lands. -/
def givenBack : List TitleAction :=
  opening ++ [regeneration "job-1" 3, .advance 3, .advance 3, .advance 3, .advance 3,
    .start (.claim "worker" "token-1" 4), .advance 4, completion 5, .advance 5,
    .start (.fail "job-1" "token-1" "MODEL_FAILED" 6), .advance 6, .advance 6]

/-- **Titles are clobbered**, although the ids drawn are new and the clocks run
    forward: a conversation names a job that there is not, and a batch without
    its lease retitles. -/
theorem titles_clobbered :
    (Machine.Along step (FlightAction.Meets Fresh) TitleFlight.initial twice ∧ (clocks twice).Pairwise (· ≤ ·) ∧
      ∃ c ∈ (Machine.run step TitleFlight.initial twice).world.state.conversations,
        c.pendingTitleJobId = some "job-2" ∧
          ∀ j ∈ (Machine.run step TitleFlight.initial twice).world.state.jobs, j.id ≠ "job-2") ∧
    (Machine.Along step (FlightAction.Meets Fresh) TitleFlight.initial givenBack ∧
      (clocks givenBack).Pairwise (· ≤ ·) ∧
      (∃ b, batchAt (Machine.run step TitleFlight.initial givenBack) 5 = some b ∧
        b.Lost (Machine.run step TitleFlight.initial givenBack).world.state) ∧
      (∃ c ∈ (Machine.run step TitleFlight.initial givenBack).world.state.conversations, c.title = "Gold?") ∧
      ∃ c ∈ (Machine.run step TitleFlight.initial (givenBack ++ [.advance 5])).world.state.conversations,
        c.title = "Gold today") := by
  refine ⟨⟨by decide, by decide, by decide⟩, by decide, by decide,
    ⟨.complete ⟨"job-1", "token-1", "Gold today", "model", "conversation", 0, 5⟩, by decide,
      by decide⟩, by decide, by decide⟩

end Xauusd.Titles
