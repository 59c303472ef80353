/-
  The requests on the index rely on each other (`assistant-memory-index.ts`).

  * `IndexBatch.Reads`: what the sender of a batch has read, as long as it is
    true where the batch lands;
  * `relies_indexRequest`: every request reads it before it sends the batch;
  * `index_sound`: **in every run the index holds what the messages say**;
  * `index_guards`: **only the holder of a job adds its entry, and nothing that
    is indexed changes**.
-/
import Xauusd.Memory.Indexed

namespace Xauusd.Memory

open Program

/-! ## Batches -/

/-- What the sender of a batch has read. -/
def IndexBatch.Reads (N : Normal) (s : IndexStore) : IndexBatch → Prop
  | .complete b => b.Reads N s
  | .fail b => b.Reads s
  | .memory _ | .claim _ _ _ => True

/-- A token is drawn once. -/
def IndexBatch.Orderly (s : IndexStore) : IndexBatch → Prop
  | .claim _ leaseToken _ => leaseToken ∉ s.claims.map Prod.fst
  | .memory _ | .complete _ | .fail _ => True

instance IndexBatch.decidableOrderly (s : IndexStore) (b : IndexBatch) : Decidable (b.Orderly s) := by
  cases b <;> unfold IndexBatch.Orderly <;> infer_instance

section
variable {N : Normal} {s s' : IndexStore}

theorem exec_steps (h : Indexed N s) {b : IndexBatch} (horderly : b.Orderly s) (hreads : b.Reads N s)
    (hexec : execIndex b s = some s') : Steps N s s' := by
  cases b with
  | memory b => exact steps_memory h hexec
  | claim workerId leaseToken now => exact steps_claim h horderly hexec
  | complete b => exact steps_complete h hreads hexec
  | fail b => exact steps_fail h hreads hexec

theorem IndexFailure.Reads.stays {b : IndexFailure} (h : b.Reads s) (hstays : Stays s s') : b.Reads s' := by
  obtain ⟨row, hrow, hterminal⟩ := h
  exact ⟨row, hstays.claims _ hrow, hterminal⟩

theorem mem_heldIndexJob {id leaseToken : String} {now : ℤ} {j : IndexJob} (h : s.heldJob id leaseToken now = some j) :
    j ∈ s.jobs ∧ j.id = id ∧ j.heldBy leaseToken now = true := by
  rw [IndexStore.heldJob, Option.filter_eq_some_iff] at h
  obtain ⟨hj, hid⟩ := Table.find?_eq_some_iff.1 h.1
  exact ⟨hj, hid, h.2⟩

/-- The job that a lease is held for was claimed with its token. -/
theorem Indexed.claimed (h : Indexed N s) {leaseToken : String} {now : ℤ} {j : IndexJob} (hj : j ∈ s.jobs)
    (hheld : j.heldBy leaseToken now = true) : (leaseToken, j) ∈ s.claims := by
  obtain ⟨l, hl, rfl, -⟩ := IndexJob.heldBy_iff.1 hheld
  exact h.leases j hj l hl

theorem mem_source {j : IndexJob} {m : Message} (h : s.source j = some m) :
    m ∈ s.memory.messages ∧ m.id = j.sourceMessageId := by
  have hsource := List.find?_some h
  simp only [Bool.and_eq_true, decide_eq_true_eq] at hsource
  exact ⟨List.mem_of_find?_eq_some h, hsource.1.1⟩

theorem normalized_ok {c : IndexCall} {content digest : String} {terms : List (List Char)}
    (h : c.normalized N content = .ok (terms, digest)) :
    terms = tokenizeAssistantMemory N content maxIndexTerms ∧ digest = sha256 content := by
  unfold IndexCall.normalized at h
  split at h
  · cases h
  · split at h
    · cases h
    · split at h
      · cases h
      · cases h
        exact ⟨rfl, rfl⟩

end

/-! ## Requests -/

/-- The invariant holds later on, and what was indexed stays. -/
def IndexLater (N : Normal) (w w' : IndexWorld) : Prop := Steps N w.state w'.state

def IndexInformed (N : Normal) (w : IndexWorld) (b : IndexBatch) : Prop := b.Reads N w.state

section
variable {N : Normal}

theorem relies_indexFail (id leaseToken failureCode : String) (now : ℤ) {next : IndexReply → IndexHandler}
    (hnext : ∀ reply w, (next reply).Relies (IndexLater N) (IndexInformed N) w) (w : IndexWorld) :
    (failAssistantMemoryIndexJob id leaseToken failureCode now next).Relies (IndexLater N) (IndexInformed N) w := by
  unfold failAssistantMemoryIndexJob
  split
  · exact hnext _ w
  · intro w₁ h₁
    dsimp only
    split
    · exact hnext _ w₁
    · next job hjob =>
      obtain ⟨hmem, -, hheld⟩ := mem_heldIndexJob hjob
      intro w₂ h₂
      refine ⟨⟨job, h₂.stays.claims _ (h₁.indexed.claimed hmem hheld), rfl⟩, fun ok => ?_⟩
      exact hnext _ w₂

theorem relies_indexClaim (workerId leaseToken : String) (now : ℤ) (w : IndexWorld) :
    (claimAssistantMemoryIndexJob workerId leaseToken now).Relies (IndexLater N) (IndexInformed N) w := by
  intro w₁ h₁
  refine ⟨trivial, fun ok => ?_⟩
  cases ok with
  | false => trivial
  | true =>
    intro w₂ h₂
    dsimp only
    split
    · trivial
    · intro w₃ h₃
      dsimp only
      split
      · refine relies_indexFail _ _ _ _ (fun reply w => ?_) w₃
        trivial
      · trivial

theorem relies_indexComplete (c : IndexCall) (w : IndexWorld) :
    (completeAssistantMemoryIndexJob N c).Relies (IndexLater N) (IndexInformed N) w := by
  intro w₁ h₁
  dsimp only
  split
  · trivial
  · next job hjob =>
    obtain ⟨hmem, hid, -⟩ := mem_heldIndexJob hjob
    split
    · trivial
    · intro w₂ h₂
      dsimp only
      split
      · trivial
      · next message hmessage =>
        obtain ⟨hmem_message, hsource⟩ := mem_source hmessage
        split
        · trivial
        · next terms digest hnormalized =>
          obtain ⟨rfl, rfl⟩ := normalized_ok hnormalized
          split
          · trivial
          · split
            · trivial
            · intro w₃ h₃
              refine ⟨?_, fun ok => ?_⟩
              · obtain ⟨j, hj, hinputs, -⟩ := (h₂.stays.trans h₃.stays).jobs job hmem
                have hentry : entryIdOf j = entryIdOf job := by
                  rw [entryIdOf, entryIdOf, congrArg IndexInputs.indexVersion hinputs,
                    congrArg IndexInputs.sourceMessageId hinputs]
                exact ⟨j, hj, message, h₃.stays.messages _ hmem_message, (congrArg IndexInputs.id hinputs).trans hid,
                  (congrArg IndexInputs.sourceMessageId hinputs).trans hsource.symm, hentry.symm, rfl, rfl,
                  (congrArg IndexInputs.indexVersion hinputs).symm, rfl, (congrArg IndexInputs.ownerId hinputs).symm, rfl⟩
              · cases ok with
                | false => trivial
                | true =>
                  intro w₄ h₄
                  dsimp only
                  split
                  · trivial
                  · trivial

theorem relies_indexRequest (k : IndexRequest) (w : IndexWorld) :
    (k.program N).Relies (IndexLater N) (IndexInformed N) w := by
  cases k with
  | memory b => exact fun w' _ => ⟨trivial, fun _ => trivial⟩
  | claim workerId leaseToken now => exact relies_indexClaim workerId leaseToken now w
  | complete c => exact relies_indexComplete c w
  | fail id leaseToken failureCode now =>
    refine relies_indexFail id leaseToken failureCode now (fun reply w => ?_) w
    trivial

end

/-! ## Runs -/

theorem index_run (N : Normal) {actions : List IndexAction}
    (hactions : Machine.Along (indexStep N) (FlightAction.Meets fun w b => b.Orderly w.state) IndexFlight.initial actions) :
    (∀ q ∈ (Machine.run (indexStep N) IndexFlight.initial actions).requests,
        q.Relies (IndexLater N) (IndexInformed N) (Machine.run (indexStep N) IndexFlight.initial actions).world) ∧
      Indexed N (Machine.run (indexStep N) IndexFlight.initial actions).world.state := by
  have hrun := flight_relies (S := IndexLater N) (R := IndexInformed N) (P := fun _ => True)
    (I := fun w => Indexed N w.state) (fun _ h => Steps.refl h) (fun _ _ _ h h' => Steps.trans h h')
    (fun _ => sends_trivial _) (fun k w _ => relies_indexRequest k w)
    (fun b w w' _ horderly hreads h hland => by
      have hsteps := exec_steps h horderly hreads (land_eq_some hland).1
      exact ⟨hsteps.indexed, hsteps⟩)
    hactions (by rintro _ ⟨⟩) (by rintro _ ⟨⟩) (indexed_empty N)
  exact hrun.2

/-- **The index holds what the messages say.** -/
theorem index_sound (N : Normal) {actions : List IndexAction}
    (hactions : Machine.Along (indexStep N) (FlightAction.Meets fun w b => b.Orderly w.state) IndexFlight.initial actions) :
    Indexed N (Machine.run (indexStep N) IndexFlight.initial actions).world.state :=
  (index_run N hactions).2

/-- Texts that are normal as they are. -/
def plainNormal : Normal := ⟨id⟩

/-- A message is said, its job is claimed, and its completion is under way. -/
def sampleIndexing : List IndexAction :=
  [.start (.memory (.converse "conversation" "owner")), .advance 0,
    .start (.memory (.say ⟨"first", "conversation", .user, "Gold?", 1, .obj []⟩)), .advance 1,
    .start (.claim "worker" "token" 5), .advance 2, .advance 2, .advance 2,
    .start (.complete ⟨"memory-index:assistant-memory-hybrid-v3:first", "token", "first", ASSISTANT_MEMORY_INDEX_VERSION,
      some ["gold".toList], sha256 "Gold?", true, "receipt", 6⟩), .advance 3, .advance 3]

theorem index_sound_completed :
    (∃ e ∈ (Machine.run (indexStep plainNormal) IndexFlight.initial (sampleIndexing ++ [.advance 3])).world.state.entries,
        e.sourceMessageId = "first" ∧ e.termCount = 1) ∧
      Indexed plainNormal
        (Machine.run (indexStep plainNormal) IndexFlight.initial (sampleIndexing ++ [.advance 3])).world.state :=
  ⟨by decide +kernel, index_sound plainNormal (by decide +kernel)⟩

/-! ## Leases -/

/-- The lease of a batch is not the sender's any more. -/
def IndexBatch.Lost (s : IndexStore) : IndexBatch → Prop
  | .complete b => ∀ j ∈ s.jobs, b.holds j = false
  | .fail b => ∀ j ∈ s.jobs, b.holds j = false
  | .memory _ | .claim _ _ _ => False

instance IndexBatch.decidableLost (s : IndexStore) (b : IndexBatch) : Decidable (b.Lost s) := by
  cases b <;> unfold IndexBatch.Lost <;> infer_instance

section
variable {N : Normal} {s s' : IndexStore}

theorem exec_index_lost (h : Indexed N s) {b : IndexBatch} (hlost : b.Lost s) : execIndex b s = none := by
  cases b with
  | complete b => exact complete_lost h hlost
  | fail b =>
    have hhits : s.jobs.hits b.holds = 0 := Table.hits_eq_zero_iff.2 hlost
    show s.failIndexJob b = none
    rw [IndexStore.failIndexJob, if_pos hhits]
  | memory b => cases hlost
  | claim workerId leaseToken now => cases hlost

/-- The batch is a completion whose sender holds the job. -/
def IndexBatch.Completes (s : IndexStore) : IndexBatch → Prop
  | .complete b => ∃ j ∈ s.jobs, b.holds j = true
  | .memory _ | .claim _ _ _ | .fail _ => False

theorem schedule_entries (s : IndexStore) (m : Message) : (s.schedule m).entries = s.entries := by
  unfold IndexStore.schedule
  split
  · rfl
  · rfl

theorem exec_entries (h : Indexed N s) {b : IndexBatch} (hexec : execIndex b s = some s') :
    s'.entries = s.entries ∨ b.Completes s := by
  cases b with
  | memory b =>
    left
    obtain ⟨memory, -, rfl⟩ := Option.map_eq_some_iff.1 hexec
    have hfold : ∀ (said : List Message) (s : IndexStore), (said.foldl IndexStore.schedule s).entries = s.entries := by
      intro said
      induction said with
      | nil => exact fun _ => rfl
      | cons m said ih => exact fun s => (ih (s.schedule m)).trans (schedule_entries s m)
    exact hfold _ _
  | claim workerId leaseToken now =>
    left
    change s.claimIndexJob workerId leaseToken now = some s' at hexec
    unfold IndexStore.claimIndexJob at hexec
    dsimp only at hexec
    split at hexec
    · cases hexec
      rfl
    · split at hexec
      · cases hexec
        rfl
      · cases hexec
  | complete b =>
    obtain ⟨j, hi⟩ := complete_eq_some h hexec
    exact .inr ⟨j, hi.job, hi.holds⟩
  | fail b =>
    left
    change s.failIndexJob b = some s' at hexec
    unfold IndexStore.failIndexJob at hexec
    split at hexec
    · cases hexec
    · cases hexec
      rfl

end

/-- **A batch without its lease changes nothing, only the holder of a job adds
    its entry, and nothing that is indexed changes.** -/
theorem index_guards (N : Normal) {actions : List IndexAction}
    (hactions : Machine.Along (indexStep N) (FlightAction.Meets fun w b => b.Orderly w.state) IndexFlight.initial actions) :
    let f := Machine.run (indexStep N) IndexFlight.initial actions
    (∀ i b next, f.requests[i]? = some (commit b next) → b.Lost f.world.state →
      (indexStep N f (.advance i)).2.world = f.world) ∧
    ∀ a, FlightAction.Meets (fun w b => b.Orderly w.state) f a →
      Stays f.world.state (indexStep N f a).2.world.state ∧
      ((indexStep N f a).2.world.state.entries = f.world.state.entries ∨
        ∃ i b next, a = .advance i ∧ f.requests[i]? = some (commit b next) ∧ b.Completes f.world.state) := by
  intro f
  obtain ⟨hrelies, h⟩ := index_run N hactions
  constructor
  · intro i b next hget hlost
    rcases Flight.step_world f (.advance i) with hsame | ⟨i', b', next', hi, hget', hland⟩
    · exact hsame
    · obtain rfl := FlightAction.advance.inj hi
      rw [hget] at hget'
      cases hget'
      have hexec := (land_eq_some hland).1
      rw [exec_index_lost h hlost] at hexec
      cases hexec
  · intro a hmeets
    rcases Flight.step_world f a with hsame | ⟨i, b, next, rfl, hget, hland⟩
    · have hstate : (indexStep N f a).2.world.state = f.world.state := congrArg Logged.state hsame
      rw [hstate]
      exact ⟨.refl _, .inl rfl⟩
    · have hexec := (land_eq_some hland).1
      have hreads : b.Reads N f.world.state := (hrelies _ (List.mem_of_getElem? hget) _ (Steps.refl h)).1
      refine ⟨(exec_steps h (hmeets b next hget) hreads hexec).stays, ?_⟩
      rcases exec_entries h hexec with hentries | hcompletes
      · exact .inl hentries
      · exact .inr ⟨i, b, next, rfl, hget, hcompletes⟩

/-- The worker gives up before its completion lands. -/
def sampleGivenUp : List IndexAction :=
  sampleIndexing ++ [.start (.fail "memory-index:assistant-memory-hybrid-v3:first" "token" "MEMORY_FAILED" 6),
    .advance 4, .advance 4]

theorem index_guards_givenUp :
    let f := Machine.run (indexStep plainNormal) IndexFlight.initial sampleGivenUp
    (∃ b, sending f 3 = some b ∧ b.Lost f.world.state) ∧ (indexStep plainNormal f (.advance 3)).2.world = f.world := by
  intro f
  have hlost : ∃ b, sending f 3 = some b ∧ b.Lost f.world.state := by decide +kernel
  obtain ⟨b, hsending, hb⟩ := hlost
  obtain ⟨next, hget⟩ := exists_of_sending hsending
  exact ⟨⟨b, hsending, hb⟩, (index_guards plainNormal (by decide +kernel)).1 3 b next hget hb⟩

end Xauusd.Memory
