/-
  The requests on titles, interleaved.

  * `Lands w b`: the id that the batch draws is new, and the batch is `Steady`;
  * `Known w`: jobs, leases and returned rows carry drawn ids;
  * `Dated w`: a job that may still title its conversation was requested after
    the last rename;
  * `Later w w'`: what a request may rely on while others land;
  * `later_land`: **so does every batch that lands**;
  * `relies_program`: what every request knows of the job its batch names.
-/
import Xauusd.Titles.Retitle

namespace Xauusd.Titles

open Program

/-! ## Landing -/

/-- The ids drawn so far. -/
def draws (log : List Batch) : List String := log.filterMap Batch.drawn?

/-- `crypto.randomUUID()` -/
def Fresh (w : World) (b : Batch) : Prop := ∀ d ∈ b.drawn?.toList, d ∉ draws w.log

def Lands (w : World) (b : Batch) : Prop := Fresh w b ∧ b.Steady w.state

instance decidableFresh (w : World) (b : Batch) : Decidable (Fresh w b) := by unfold Fresh; infer_instance

instance decidableLands (w : World) (b : Batch) : Decidable (Lands w b) := by unfold Lands; infer_instance

theorem draws_cons {b : Batch} {log : List Batch} {d : String} :
    d ∈ draws (b :: log) ↔ b.drawn? = some d ∨ d ∈ draws log := by
  simp only [draws, List.mem_filterMap, List.mem_cons]
  constructor
  · rintro ⟨b', rfl | hb', hd⟩
    · exact .inl hd
    · exact .inr ⟨b', hb', hd⟩
  · rintro (hd | ⟨b', hb', hd⟩)
    · exact ⟨b, .inl rfl, hd⟩
    · exact ⟨b', .inr hb', hd⟩

/-! ## The invariant -/

/-- What carries an id carries one that was drawn. -/
structure Known (w : World) : Prop where
  jobs : ∀ j ∈ w.state.jobs, j.id ∈ draws w.log
  leases : ∀ j ∈ w.state.jobs, ∀ l, j.phase = .processing l → l.token ∈ draws w.log
  returned : ∀ d, (w.state.returned.lookup d).isSome → d ∈ draws w.log

/-- A job that may still title its conversation was requested after the last
    rename. -/
def Dated (w : World) : Prop :=
  ∀ j ∈ w.state.jobs, ∃ later request earlier, w.log = later ++ request :: earlier ∧
    request.requests? = some j.id ∧ ∀ c ∈ w.state.conversations, c.id = j.conversationId →
      c.titleRevision = j.expectedTitleRevision → ∀ b ∈ later, b.renames c = false

/-- A title of the owner is from a rename. -/
def Owned (w : World) : Prop :=
  ∀ c ∈ w.state.conversations, c.titleSource = .user → ∃ now, .rename c.ownerId c.id c.title now ∈ w.log

structure Invariant (w : World) : Prop where
  sound : Sound w.state
  known : Known w
  dated : Dated w
  owned : Owned w

/-- What a request may rely on while other batches land. -/
structure Later (w w' : World) : Prop where
  invariant : Invariant w'
  draws : ∀ d ∈ draws w.log, d ∈ draws w'.log
  grows : Grows {d | d ∈ Titles.draws w.log} w.state w'.state

theorem later_refl (w : World) (h : Invariant w) : Later w w := ⟨h, fun _ hd => hd, .refl _ _⟩

theorem later_trans (w w' w'' : World) (h : Later w w') (h' : Later w' w'') : Later w w'' :=
  ⟨h'.invariant, fun d hd => h'.draws d (h.draws d hd), h.grows.trans (h'.grows.mono h.draws)⟩

theorem invariant_initial : Invariant TitleFlight.initial.world := by
  refine ⟨sound_empty, ⟨?_, ?_, ?_⟩, ?_, ?_⟩
  · rintro _ ⟨⟩
  · rintro _ ⟨⟩
  · rintro _ ⟨⟩
  · rintro _ ⟨⟩
  · rintro _ ⟨⟩

section
variable {w w' : World} {b : Batch}

theorem new_of_fresh (hknown : Known w) (hfresh : Fresh w b) :
    ∀ jobId, b.drawn? = some jobId → ∀ j ∈ w.state.jobs, j.id ≠ jobId := by
  rintro jobId hdrawn j hj rfl
  exact hfresh _ (Option.mem_toList.2 hdrawn) (hknown.jobs j hj)

/-- What a batch leaves of what carries any other id than the one it draws. -/
theorem moves_of_lands (h : Invariant w) (hlands : Lands w b) (hinformed : b.Informed w.state)
    (hland : land exec b w = some w') {D : Set String} (hD : ∀ d, b.drawn? = some d → d ∉ D)
    (hids : ∀ j ∈ w.state.jobs, j.id ∈ D) : Moves D w.state w'.state :=
  exec_moves h.sound hids hD hlands.2 hinformed (land_eq_some hland).1

theorem moves_drawn (h : Invariant w) (hlands : Lands w b) (hinformed : b.Informed w.state)
    (hland : land exec b w = some w') : Moves {d | d ∈ draws w.log} w.state w'.state :=
  moves_of_lands h hlands hinformed hland (fun d hd => hlands.1 d (Option.mem_toList.2 hd)) h.known.jobs

theorem known_land (h : Invariant w) (hlands : Lands w b) (hinformed : b.Informed w.state)
    (hland : land exec b w = some w') : Known w' := by
  have hnew := new_of_fresh h.known hlands.1
  have hother : Moves {d | b.drawn? ≠ some d} w.state w'.state :=
    moves_of_lands h hlands hinformed hland (fun d hd hne => hne hd) fun j hj hd => hnew _ hd j hj rfl
  obtain ⟨hexec, hlog⟩ := land_eq_some hland
  constructor
  · intro j' hj'
    rw [hlog, draws_cons]
    rcases exec_born h.sound hnew hlands.2 hexec hj' with ⟨j, hj, hrequest⟩ | hrequests
    · right
      rw [← congrArg TitleRequest.id hrequest]
      exact h.known.jobs j hj
    · exact .inl (Batch.drawn?_of_requests? hrequests)
  · intro j' hj' l hl
    rw [hlog, draws_cons]
    by_cases hd : b.drawn? = some l.token
    · exact .inl hd
    · exact .inr (h.known.leases j' (hother.grows.leases j' hj' l hl hd) l hl)
  · intro d hsome
    rw [hlog, draws_cons]
    by_cases hd : b.drawn? = some d
    · exact .inl hd
    · rw [hother.grows.returned d hd] at hsome
      exact .inr (h.known.returned d hsome)

theorem dated_land (h : Invariant w) (hlands : Lands w b) (hland : land exec b w = some w') : Dated w' := by
  have hnew := new_of_fresh h.known hlands.1
  obtain ⟨hexec, hlog⟩ := land_eq_some hland
  intro j' hj'
  rcases exec_born h.sound hnew hlands.2 hexec hj' with ⟨j, hj, hrequest⟩ | hrequests
  · obtain ⟨later, request, earlier, hsplit, hrequests, hlater⟩ := h.dated j hj
    refine ⟨b :: later, request, earlier, ?_, ?_, ?_⟩
    · rw [hlog, hsplit, List.cons_append]
    · rw [hrequests, congrArg TitleRequest.id hrequest]
    · intro c' hc' hid hrevision
      rw [← congrArg TitleRequest.conversationId hrequest] at hid
      rw [← congrArg TitleRequest.expectedTitleRevision hrequest] at hrevision
      obtain ⟨-, c₀, hc₀, hid₀, -, hle⟩ := h.sound.versions j hj
      rcases exec_retitled h.sound hnew hlands.2 hexec c' hc' with ⟨c, hc, hretitled⟩ | ⟨hbegun, -⟩
      · obtain rfl := Store.conversation_inj hc₀ hc (hid₀.trans (hid.symm.trans hretitled.id))
        -- the revision has not moved, so the batch is no rename
        have hsame : c₀.titleRevision = j.expectedTitleRevision :=
          le_antisymm (hretitled.revision.trans hrevision.le) hle
        have hrenames : ∀ b' : Batch, b'.renames c' = b'.renames c₀ := by
          intro b'
          cases b' <;> simp [Batch.renames, hretitled.id, hretitled.ownerId]
        intro b' hb'
        rw [hrenames]
        rcases List.mem_cons.1 hb' with rfl | hb'
        · refine Bool.eq_false_iff.2 fun hb => ?_
          have hlt := hretitled.renamed hb
          omega
        · exact hlater c₀ hc₀ hid₀ hsame b' hb'
      · exact absurd (hid₀.trans hid.symm) (hbegun c₀ hc₀)
  · exact ⟨[], b, w.log, hlog, hrequests, fun _ _ _ _ _ hb => by cases hb⟩

theorem owned_land (h : Invariant w) (hlands : Lands w b) (hland : land exec b w = some w') : Owned w' := by
  obtain ⟨hexec, hlog⟩ := land_eq_some hland
  intro c' hc' huser
  rw [hlog]
  rcases exec_retitled h.sound (new_of_fresh h.known hlands.1) hlands.2 hexec c' hc' with
    ⟨c, hc, hretitled⟩ | ⟨-, hsource⟩
  · rw [hretitled.id, hretitled.ownerId]
    rcases hretitled.toUser huser with ⟨now, hb⟩ | ⟨hbefore, htitle⟩
    · exact ⟨now, List.mem_cons.2 (.inl hb.symm)⟩
    · obtain ⟨now, hmem⟩ := h.owned c hc hbefore
      rw [htitle]
      exact ⟨now, List.mem_cons_of_mem _ hmem⟩
  · rw [huser] at hsource
    cases hsource

/-- **What a batch does where it lands.** -/
theorem later_land (h : Invariant w) (hlands : Lands w b) (hinformed : b.Informed w.state)
    (hland : land exec b w = some w') : Invariant w' ∧ Later w w' := by
  have hmoves := moves_drawn h hlands hinformed hland
  have hinvariant : Invariant w' :=
    ⟨hmoves.sound, known_land h hlands hinformed hland, dated_land h hlands hland, owned_land h hlands hland⟩
  refine ⟨hinvariant, hinvariant, fun d hd => ?_, hmoves.grows⟩
  rw [(land_eq_some hland).2, draws_cons]
  exact .inr hd

end

/-! ## What the requests rely on -/

/-- The batch knows the job that it names. -/
def Informed (w : World) (b : Batch) : Prop := b.Informed w.state

theorem mem_heldJob {s : Store} {id leaseToken : String} {now : ℤ} {job : TitleJob}
    (h : s.heldJob id leaseToken now = some job) :
    job ∈ s.jobs ∧ job.id = id ∧ job.heldBy leaseToken now = true := by
  rw [Store.heldJob, Option.filter_eq_some_iff, Table.find?_eq_some_iff] at h
  exact ⟨h.1.1, h.1.2, h.2⟩

/-- A job that was held when it was read, and the release that was made of it. -/
theorem informed_release {w w' : World} (hinvariant : Invariant w) (hlater : Later w w') {id leaseToken : String}
    {now : ℤ} {job : TitleJob} (hjob : w.state.heldJob id leaseToken now = some job) {b : Release} (hid : b.id = id)
    (htoken : b.leaseToken = leaseToken) (hnow : b.now = now) (hterminal : b.terminal = job.spent) :
    Informed w' (.release b) := by
  subst hid htoken hnow
  obtain ⟨hmem, hid, hheld⟩ := mem_heldJob hjob
  obtain ⟨l, hl, htoken, hexpires⟩ := TitleJob.heldBy_iff.1 hheld
  constructor
  · intro j hj hj' hheld'
    obtain ⟨l', hl', htoken', -⟩ := TitleJob.heldBy_iff.1 hheld'
    have hdrawn : l'.token ∈ draws w.log := by
      rw [htoken', ← htoken]
      exact hinvariant.known.leases job hmem l hl
    have hbefore := hlater.grows.leases j hj l' hl' hdrawn
    rw [hterminal, Store.job_inj hbefore hmem (hj'.trans hid.symm)]
  · intro hspent j hj hj'
    obtain ⟨j', hmem', hid', hcases⟩ := hlater.grows.spent job hmem l hl (hterminal.symm.trans hspent)
    obtain rfl := Store.job_inj hj hmem' (hj'.trans (hid.symm.trans hid'.symm))
    rcases hcases with rfl | hended
    · exact .inl hheld
    · exact .inr hended

theorem relies_release (id leaseToken failureCode : String) (delay : ℕ → ℤ) (now : ℤ) (w : World) :
    (releaseTitleJob id leaseToken failureCode delay now).Relies Later Informed w := by
  intro w₁ h₁
  dsimp only
  split
  · trivial
  · next job hjob =>
    intro w₂ h₂
    refine ⟨informed_release h₁.invariant h₂ hjob rfl rfl rfl rfl, fun ok => ?_⟩
    cases ok
    · trivial
    · trivial

theorem relies_fail (id leaseToken failureCode : String) (now : ℤ) (w : World) :
    (failAssistantTitleJob id leaseToken failureCode now).Relies Later Informed w := by
  unfold failAssistantTitleJob
  split
  · trivial
  · exact relies_release _ _ _ _ _ w

theorem relies_claim (workerId leaseToken : String) (now : ℤ) (w : World) :
    (claimAssistantTitleJob workerId leaseToken now).Relies Later Informed w := by
  refine fun w₁ h₁ => ⟨trivial, fun ok => ?_⟩
  cases ok with
  | false => trivial
  | true =>
    intro w₂ h₂
    dsimp only
    split
    · trivial
    · intro w₃ h₃
      dsimp only
      split
      · trivial
      · exact relies_fail _ _ _ _ w₃

theorem relies_complete (c : CompleteCall) (w : World) :
    (completeAssistantTitleJob c).Relies Later Informed w := by
  unfold completeAssistantTitleJob
  split
  · trivial
  · split
    · trivial
    · intro w₁ h₁
      dsimp only
      split
      · trivial
      · next job hjob =>
        split
        · trivial
        · intro w₂ h₂
          refine ⟨?_, fun ok => ?_⟩
          · intro j hj hj'
            obtain ⟨hmem, hid, -⟩ := mem_heldJob hjob
            obtain ⟨j', hmem', hrequest⟩ := h₂.grows.requests job hmem
            have hid' : j'.id = job.id := congrArg TitleRequest.id hrequest
            obtain rfl := Store.job_inj hj hmem' (hj'.trans (hid.symm.trans hid'.symm))
            exact ⟨congrArg TitleRequest.conversationId hrequest,
              congrArg TitleRequest.expectedTitleRevision hrequest⟩
          · cases ok
            · trivial
            · trivial

theorem relies_regenerate (c : RegenerateCall) (w : World) :
    (requestAssistantTitleRegeneration c).Relies Later Informed w := by
  intro w₁ h₁
  dsimp only
  split
  · trivial
  · intro w₂ h₂
    dsimp only
    split
    · trivial
    · intro w₃ h₃
      dsimp only
      split
      · split
        · trivial
        · refine fun w₄ h₄ => ⟨trivial, fun ok => ?_⟩
          cases ok with
          | false => trivial
          | true =>
            intro w₅ h₅
            dsimp only
            split
            · trivial
            · intro w₆ h₆
              dsimp only
              split
              · trivial
              · trivial
      · trivial

theorem relies_program (k : Request) (w : World) : k.program.Relies Later Informed w := by
  cases k with
  | converse id ownerId title => exact fun w' _ => ⟨trivial, fun _ => trivial⟩
  | say m => exact fun w' _ => ⟨trivial, fun _ => trivial⟩
  | rename ownerId conversationId title now => exact fun w' _ => ⟨trivial, fun _ => trivial⟩
  | regenerate c => exact relies_regenerate c w
  | automatic b => exact fun w' _ => ⟨trivial, fun _ => trivial⟩
  | claim workerId leaseToken now => exact relies_claim workerId leaseToken now w
  | complete c => exact relies_complete c w
  | fail id leaseToken failureCode now => exact relies_fail id leaseToken failureCode now w
  | defer id leaseToken now =>
    exact relies_release id leaseToken "NO_MODEL_CAPACITY" (fun _ => 60 * IsoTime.second) now w

end Xauusd.Titles
