/-
  The chain of summaries, whatever requests are under way.

  * `Batch.Orderly`, `Batch.Reads`: what is asked of a batch where it lands, and
    what its request has made sure of;
  * `exec_advances`: a batch keeps the invariant;
  * `relies_program`: no other request makes untrue what one has read;
  * `compaction_sound`: **in every run whose messages are said in their order and
    whose ids are new, the chain of summaries is sound**;
  * `Store.memory`: what a conversation remembers;
  * `lease_guards`: **only a completion that holds its lease adds a summary, and
    a batch without its lease changes nothing**.
-/
import Xauusd.Memory.Compaction

namespace Xauusd.Memory

open Program

variable {limit : ℕ} {s s' : Store} {w w' : World}

/-! ## Batches -/

/-- Messages are said in their order, and the ids and the tokens are new. -/
def Batch.Orderly (s : Store) : Batch → Prop
  | .say m => ∀ m' ∈ s.said m.conversationId, m'.place < m.place
  | .schedule b => ∀ j ∈ s.jobs, j.id ≠ b.jobId
  | .claim _ leaseToken _ => leaseToken ∉ s.claims.map Prod.fst
  | .converse _ _ | .pin _ | .complete _ | .release _ => True

instance (s : Store) (b : Batch) : Decidable (b.Orderly s) := by
  cases b <;> unfold Batch.Orderly <;> infer_instance

def Batch.Reads (limit : ℕ) (s : Store) : Batch → Prop
  | .schedule b => b.Reads limit s
  | .complete b => b.Reads s
  | .release b => b.Reads s
  | .converse _ _ | .say _ | .pin _ | .claim _ _ _ => True

/-- **A batch keeps the invariant.** -/
theorem exec_advances (h : Sound limit s) {b : Batch} (horderly : b.Orderly s) (hreads : b.Reads limit s)
    (hexec : exec b s = some s') : Advances limit s s' := by
  cases b with
  | converse id ownerId => exact advances_converse h hexec
  | say m => exact advances_say h horderly hexec
  | pin entry => exact advances_pin h hexec
  | schedule b => exact advances_schedule h horderly hreads hexec
  | claim workerId leaseToken now =>
    cases hexec
    exact advances_claim h horderly now
  | complete b => exact advances_complete h hreads hexec
  | release b =>
    cases hexec
    exact advances_release h hreads

/-! ## What the requests rely on -/

/-- What a request may rely on while other batches land. -/
def Later (limit : ℕ) (w w' : World) : Prop := Advances limit w.state w'.state

theorem later_refl (w : World) (h : Sound limit w.state) : Later limit w w := .refl h

theorem later_trans (w w' w'' : World) (h : Later limit w w') (h' : Later limit w' w'') : Later limit w w'' := h.trans h'

/-- A batch is sent by a request that has read for it. -/
def Informed (limit : ℕ) (w : World) (b : Batch) : Prop := b.Reads limit w.state

theorem mem_heldJob {id leaseToken : String} {now : ℤ} {job : Job} (h : s.heldJob id leaseToken now = some job) :
    job ∈ s.jobs ∧ job.id = id ∧ job.heldBy leaseToken now = true := by
  rw [Store.heldJob, Option.filter_eq_some_iff, Table.find?_eq_some_iff] at h
  exact ⟨h.1.1, h.1.2, h.2⟩

theorem relies_release (id leaseToken failureCode : String) (delay : ℕ → ℤ) (now : ℤ) {next : Handler}
    (hnext : ∀ w, next.Relies (Later limit) (Informed limit) w) (w : World) :
    (releaseJob id leaseToken failureCode delay now next).Relies (Later limit) (Informed limit) w := by
  intro w₁ h₁
  dsimp only
  split
  · trivial
  · next job hjob =>
    obtain ⟨hmem, hid, hheld⟩ := mem_heldJob hjob
    intro w₂ h₂
    refine ⟨?_, fun ok => ?_⟩
    · obtain ⟨l, hl, htoken, -⟩ := Job.heldBy_iff.1 hheld
      refine ⟨job, ?_, rfl, hheld, ?_⟩
      · rw [← htoken]
        exact h₂.grows.claims _ (h₁.sound.leases job hmem l hl)
      · intro j hj hid' hspent
        exact (h₂.grows.job hmem hj (hid'.trans hid.symm)).spent l hl hspent
    · cases ok
      · trivial
      · exact hnext w₂

theorem relies_fail (id leaseToken failureCode : String) (now : ℤ) {next : Handler}
    (hnext : ∀ w, next.Relies (Later limit) (Informed limit) w) (w : World) :
    (failAssistantCompactionJob id leaseToken failureCode now next).Relies (Later limit) (Informed limit) w := by
  unfold failAssistantCompactionJob
  split
  · trivial
  · exact relies_release _ _ _ _ _ hnext w

theorem relies_claim (workerId leaseToken : String) (now : ℤ) (w : World) :
    (claimAssistantCompactionJob workerId leaseToken now).Relies (Later limit) (Informed limit) w := by
  refine fun w₁ h₁ => ⟨trivial, fun ok => ?_⟩
  cases ok with
  | false => trivial
  | true =>
    intro w₂ h₂
    dsimp only
    split
    · trivial
    · intro w₃ h₃
      dsimp only
      split
      · refine relies_fail _ _ _ _ (fun w => ?_) w₃
        trivial
      · intro w₄ h₄
        dsimp only
        split
        · trivial
        · trivial

/-! ## Sources -/

theorem selectSources_first (budget sourceTokens : ℕ) (messages : List Message) :
    selectSources budget sourceTokens messages <+: messages := by
  induction messages generalizing sourceTokens with
  | nil => exact List.prefix_rfl
  | cons m messages ih =>
    rw [selectSources]
    split
    · exact List.nil_prefix
    · exact (List.prefix_cons_inj m).2 (ih _)

/-- As many users' messages as the limit says are not before the boundary. -/
theorem boundary_users {log : List Message} (hordered : log.Pairwise fun m m' => m.place < m'.place) (hlimit : 0 < limit)
    {boundary : Message} (hboundary : Store.recentBoundary limit log = some boundary) {place : ℤ ×ₗ String}
    (hbefore : place < boundary.place) : limit ≤ usersAfter log place := by
  set users := (log.filter fun m => m.role = .user).reverse with husers
  obtain ⟨hlt, hget⟩ : ∃ hlt : limit - 1 < users.length, users[limit - 1] = boundary :=
    List.getElem?_eq_some_iff.1 hboundary
  have hsorted : users.Pairwise fun m m' => m'.place < m.place := by
    rw [husers, List.pairwise_reverse]
    exact hordered.filter _
  have hafter : ∀ m ∈ users.take limit, place < m.place := by
    intro m hm
    obtain ⟨i, hi, rfl⟩ := List.mem_iff_getElem.1 hm
    rw [List.length_take] at hi
    rw [List.getElem_take]
    rcases Nat.lt_or_eq_of_le (Nat.le_sub_one_of_lt (lt_of_lt_of_le hi (min_le_left _ _))) with hlast | hlast
    · have hdown := List.pairwise_iff_getElem.1 hsorted i (limit - 1) (lt_of_lt_of_le hi (min_le_right _ _)) hlt hlast
      rw [hget] at hdown
      exact hbefore.trans hdown
    · simp only [hlast]
      rwa [hget]
  have hlength : (users.take limit).length = limit := by
    rw [List.length_take]
    omega
  calc limit = (users.take limit).countP fun m => decide (place < m.place) := by
        rw [List.countP_eq_length.2 (by simpa using hafter), hlength]
    _ ≤ users.countP fun m => decide (place < m.place) := (List.take_sublist _ _).countP_le
    _ = usersAfter log place := by
        rw [husers, List.countP_reverse, List.countP_filter, usersAfter]
        exact List.countP_congr fun m _ => by simp [and_comm]

theorem afterCover_grows (h : Grows s s') (summary : Option Summary) (conversationId : String) :
    Store.afterCover summary (s.said conversationId) <+: Store.afterCover summary (s'.said conversationId) :=
  (h.said conversationId).filter _

/-- The sources that a schedule selects, of the messages that it reads. -/
theorem sources_of_selected {s₁ s₂ s₃ : Store} (h₁ : Sound limit s₁) (h₂ : Advances limit s₁ s₂) (h₃ : Advances limit s₂ s₃)
    (hlimit : 0 < limit) {conversationId : String} {summary : Option Summary} {boundary : Message}
    (hboundary : Store.recentBoundary limit (s₁.log conversationId) = some boundary) {budget count : ℕ}
    {selected : List Message}
    (hselected : selectSources budget 0 (((Store.afterCover summary (s₂.log conversationId)).filter fun m =>
      decide (m.place < boundary.place)).take count) = selected) (hne : selected ≠ []) :
    Sources limit (s₃.said conversationId) (Store.afterCover summary (s₃.said conversationId))
      (selected.map (·.id)) selected := by
  rw [h₁.log] at hboundary
  rw [h₂.sound.log] at hselected
  have hfront : selected <+: (Store.afterCover summary (s₂.said conversationId)).filter fun m =>
      decide (m.place < boundary.place) := by
    rw [← hselected]
    exact (selectSources_first _ _ _).trans (List.take_prefix _ _)
  have hordered : (Store.afterCover summary (s₂.said conversationId)).Pairwise fun m m' => m.place < m'.place :=
    (h₂.sound.said_ordered conversationId).filter _
  refine ⟨rfl, ?_, ?_⟩
  · exact (hfront.trans ( filter_before_prefix hordered boundary.place)).trans (afterCover_grows h₃.grows _ _)
  · obtain ⟨m, hm⟩ := Option.ne_none_iff_exists'.1 (mt List.getLast?_eq_none_iff.1 hne)
    have hbefore : m.place < boundary.place := by
      have hmem := hfront.subset (List.mem_of_getLast? hm)
      simpa using (List.mem_filter.1 hmem).2
    refine ⟨m, hm, (boundary_users (h₁.said_ordered conversationId) hlimit hboundary hbefore).trans ?_⟩
    exact usersAfter_mono ((h₂.grows.trans h₃.grows).said conversationId) _

theorem length_of_listPinnedEntries {conversationId : String} {cutoff : Option Message} {pins : List PinnedEntry}
    (h : s.listPinnedEntries conversationId cutoff = .ok pins) : pins.length ≤ maxPinnedEntries := by
  unfold Store.listPinnedEntries at h
  dsimp only at h
  split at h
  · cases h
  · next hle =>
    cases h
    exact not_lt.1 hle

theorem recentTurnLimit_pos {p : Profile} (h : validateProfile p = true) : 0 < p.recentTurnLimit := by
  simp only [validateProfile, Bool.and_eq_true, List.all_eq_true, decide_eq_true_eq] at h
  exact (h.1.1.1.1.2 p.recentTurnLimit (by simp [Profile.integerFields])).1

theorem relies_scheduleFrom {p : Profile} (hlimit : 0 < p.recentTurnLimit) (c : ScheduleCall) (conversation : Conversation)
    {next : ScheduleOutcome → Handler}
    (hnext : ∀ outcome w, (next outcome).Relies (Later p.recentTurnLimit) (Informed p.recentTurnLimit) w) (w : World) :
    (scheduleFrom p c conversation next).Relies (Later p.recentTurnLimit) (Informed p.recentTurnLimit) w := by
  intro w₁ h₁
  dsimp only
  split
  · exact hnext _ w₁
  · next summary hsummary =>
    intro w₂ h₂
    dsimp only
    split
    · exact hnext _ w₂
    · next pins hpins =>
      split
      · exact hnext _ w₂
      · intro w₃ h₃ w₄ h₄
        dsimp only
        split
        · exact hnext _ w₄
        · next boundary hboundary =>
          intro w₅ h₅
          dsimp only
          split
          · exact hnext _ w₅
          · split
            · exact hnext _ w₅
            · next hne =>
              intro w₆ h₆
              have hsources := sources_of_selected h₄.sound h₅ h₆ hlimit hboundary rfl hne
              refine ⟨⟨?_, summary, _, ?_, hsources⟩, fun ok => ?_⟩
              · rw [List.length_map]
                exact length_of_listPinnedEntries hpins
              · exact ((((h₂.grows.trans h₃.grows).trans h₄.grows).trans h₅.grows).trans h₆.grows).currentSummary hsummary
              · cases ok with
                | false => exact hnext _ w₆
                | true =>
                  intro w₇ h₇
                  dsimp only
                  split
                  · exact hnext _ w₇
                  · intro w₈ h₈
                    dsimp only
                    split
                    · exact hnext _ w₈
                    · exact hnext _ w₈

theorem relies_schedule {p : Profile} (c : ScheduleCall) {next : ScheduleOutcome → Handler}
    (hnext : ∀ outcome w, (next outcome).Relies (Later p.recentTurnLimit) (Informed p.recentTurnLimit) w) (w : World) :
    (scheduleAssistantCompaction p c next).Relies (Later p.recentTurnLimit) (Informed p.recentTurnLimit) w := by
  unfold scheduleAssistantCompaction
  split
  · exact hnext _ w
  · next hvalid =>
    have hlimit := recentTurnLimit_pos (by simpa using hvalid)
    intro w₁ h₁
    dsimp only
    split
    · exact hnext _ w₁
    · next conversation _ =>
      split
      · exact relies_scheduleFrom hlimit c conversation hnext w₁
      · intro w₂ h₂
        dsimp only
        split
        · exact hnext _ w₂
        · exact relies_scheduleFrom hlimit c conversation hnext w₂

theorem relies_complete (L : Locale) (p : Profile) (c : CompleteCall) (w : World) :
    (completeAssistantCompactionJob L p c).Relies (Later p.recentTurnLimit) (Informed p.recentTurnLimit) w := by
  unfold completeAssistantCompactionJob
  split
  · trivial
  · intro w₁ h₁
    dsimp only
    split
    · trivial
    · next job hjob =>
      obtain ⟨hmem, hid, -⟩ := mem_heldJob hjob
      split
      · trivial
      · intro w₂ h₂
        dsimp only
        split
        · trivial
        · next last hlast =>
          split
          · trivial
          · next hids =>
            intro w₃ h₃
            dsimp only
            split
            · trivial
            · split
              · trivial
              · intro w₄ h₄
                have hgrows := (h₂.grows.trans h₃.grows).trans h₄.grows
                refine ⟨?_, fun ok => ?_⟩
                · obtain ⟨j, hj, hlater⟩ := hgrows.jobs job hmem
                  have hsaid : last ∈ w₂.state.said job.conversationId := by
                    rw [← h₂.sound.log]
                    exact List.mem_of_mem_filter (List.mem_of_getLast? hlast)
                  have hmessage := (h₃.grows.trans h₄.grows).messages.subset (mem_said.1 hsaid).1
                  refine ⟨j, hj, (congrArg Frozen.id hlater.frozen).trans hid, congrArg Frozen.conversationId hlater.frozen,
                    congrArg Frozen.priorSummaryVersion hlater.frozen, congrArg Frozen.outputSummaryVersion hlater.frozen,
                    last, hmessage, ?_, rfl⟩
                  rw [congrArg Frozen.sourceMessageIds hlater.frozen, ← not_not.1 hids, List.getLastD_eq_getLast?,
                    List.getLast?_map, hlast]
                  rfl
                · cases ok with
                  | false => trivial
                  | true =>
                    intro w₅ h₅
                    dsimp only
                    split
                    · refine relies_schedule _ (fun outcome w => ?_) w₅
                      trivial
                    · trivial

theorem relies_pin (L : Locale) (c : PinCall) (w : World) :
    (createAssistantPinnedEntry L c).Relies (Later limit) (Informed limit) w := by
  intro w₁ h₁
  dsimp only
  split
  · trivial
  · intro w₂ h₂
    dsimp only
    split
    · trivial
    · split
      · trivial
      · intro w₃ h₃
        dsimp only
        split
        · trivial
        · intro w₄ h₄
          dsimp only
          split
          · trivial
          · split
            · trivial
            · refine fun w₅ h₅ => ⟨trivial, fun ok => ?_⟩
              cases ok with
              | false => trivial
              | true =>
                intro w₆ h₆
                dsimp only
                split
                · trivial
                · trivial

theorem relies_program (L : Locale) (p : Profile) (k : Request) (w : World) :
    (k.program L p).Relies (Later p.recentTurnLimit) (Informed p.recentTurnLimit) w := by
  cases k with
  | converse id ownerId => exact fun w' _ => ⟨trivial, fun _ => trivial⟩
  | say m => exact fun w' _ => ⟨trivial, fun _ => trivial⟩
  | pin c => exact relies_pin L c w
  | schedule c =>
    show (scheduleAssistantCompaction p c fun outcome => done (.scheduled outcome)).Relies _ _ w
    refine relies_schedule c (fun outcome w => ?_) w
    trivial
  | claim workerId leaseToken now => exact relies_claim workerId leaseToken now w
  | complete c => exact relies_complete L p c w
  | fail id leaseToken failureCode now =>
    refine relies_fail id leaseToken failureCode now (fun w => ?_) w
    trivial
  | defer id leaseToken now =>
    show (releaseJob id leaseToken "NO_MODEL_CAPACITY" (fun _ => 60 * IsoTime.second) now (done (.released id))).Relies _ _ w
    refine relies_release id leaseToken "NO_MODEL_CAPACITY" _ now (fun w => ?_) w
    trivial

/-! ## Runs -/

/-- What holds of a run: the store is sound, and every request is informed. -/
theorem run_sound (L : Locale) (p : Profile) {actions : List MemoryAction}
    (hactions : Machine.Along (step L p) (FlightAction.Meets fun w b => b.Orderly w.state) MemoryFlight.initial actions) :
    (∀ q ∈ (Machine.run (step L p) MemoryFlight.initial actions).requests,
        q.Relies (Later p.recentTurnLimit) (Informed p.recentTurnLimit)
          (Machine.run (step L p) MemoryFlight.initial actions).world) ∧
      Sound p.recentTurnLimit (Machine.run (step L p) MemoryFlight.initial actions).world.state := by
  have hrun := flight_relies (S := Later p.recentTurnLimit) (R := Informed p.recentTurnLimit) (P := fun _ => True)
    (I := fun w => Sound p.recentTurnLimit w.state) later_refl later_trans (fun _ => sends_trivial _)
    (fun k w _ => relies_program L p k w)
    (fun b w w' _ horderly hreads h hland => by
      have hadvances := exec_advances h horderly hreads (land_eq_some hland).1
      exact ⟨hadvances.sound, hadvances⟩)
    hactions (by rintro _ ⟨⟩) (by rintro _ ⟨⟩) (sound_empty _)
  exact hrun.2

/-- **The chain of summaries is sound.** -/
theorem compaction_sound (L : Locale) (p : Profile) {actions : List MemoryAction}
    (hactions : Machine.Along (step L p) (FlightAction.Meets fun w b => b.Orderly w.state) MemoryFlight.initial actions) :
    Sound p.recentTurnLimit (Machine.run (step L p) MemoryFlight.initial actions).world.state :=
  (run_sound L p hactions).2

/-- Texts that are canonical as they are. -/
def plainLocale : Locale := ⟨id⟩

/-- Of the users' messages, the last one is not summarized. -/
def shortProfile : Profile := { Profile.default with recentTurnLimit := 1 }

/-- The requests 0 to 3: a question, an answer and another question. -/
def conversed : List MemoryAction :=
  [.start (.converse "conversation" "owner"), .advance 0,
    .start (.say ⟨"first", "conversation", .user, "Gold?", 1, .obj []⟩), .advance 1,
    .start (.say ⟨"second", "conversation", .assistant, "Up.", 2, .obj []⟩), .advance 2,
    .start (.say ⟨"third", "conversation", .user, "Why?", 3, .obj []⟩), .advance 3]

/-- A job is scheduled, claimed, and its completion is under way. -/
def claimed : List MemoryAction :=
  conversed ++ .start (.schedule ⟨"conversation", "job", 4⟩) :: List.replicate 9 (.advance 4) ++
    .start (.claim "worker" "token" 5) :: List.replicate 4 (.advance 5) ++
    .start (.complete ⟨"job", "token", ASSISTANT_COMPACTION_PROMPT_VERSION, Profile.default.id, "model", true,
      "Gold was up.", ["first", "second"], [], "summary", fun _ => "pin", 6, "next"⟩) :: List.replicate 3 (.advance 6)

theorem compaction_sound_claimed :
    (∃ x ∈ (Machine.run (step plainLocale shortProfile) MemoryFlight.initial (claimed ++ [.advance 6])).world.state.summaries,
        x.version = 1 ∧ x.sourceMessageCount = 2) ∧
      Sound 1 (Machine.run (step plainLocale shortProfile) MemoryFlight.initial (claimed ++ [.advance 6])).world.state :=
  ⟨by decide +kernel, compaction_sound plainLocale shortProfile (by decide +kernel)⟩

/-! ## Leases -/

/-- What conversations remember besides their messages. -/
def Store.memory (s : Store) : List Summary × List PinnedEntry × List (String × ℕ) :=
  (s.summaries.rows, s.pins.rows, s.conversations.rows.map fun c => (c.id, c.summaryVersion))

theorem memory_updateConversations {q : Conversation → Bool} {g : Conversation → Conversation}
    {hg : ∀ c, (g c).id = c.id} (hversion : ∀ c, (g c).summaryVersion = c.summaryVersion) :
    (s.updateConversations q g hg).memory = s.memory := by
  have hmap : ((s.updateConversations q g hg).conversations.rows.map fun c => (c.id, c.summaryVersion)) =
      s.conversations.rows.map fun c => (c.id, c.summaryVersion) := by
    refine Table.map_update _ _ _ hg fun c => ?_
    rw [hg, hversion]
  rw [Store.memory, hmap]
  rfl

theorem memory_recoverJobs (s : Store) (now : ℤ) : (s.recoverJobs now).memory = s.memory :=
  @memory_updateConversations s _ Conversation.clear Conversation.clear_id fun _ => rfl

theorem memory_schedule {b : Schedule} (hexec : s.scheduleCompaction b = some s') : s'.memory = s.memory := by
  obtain ⟨s₂, hs₂, hexec⟩ := scheduleCompaction_eq_some hexec
  have hrequest : (s.requestJob b).memory = s.memory := memory_updateConversations fun _ => rfl
  have hmemory : s₂.memory = s.memory := by
    split at hs₂
    · obtain ⟨jobs, rfl, -⟩ := insertJob_eq_some hs₂
      exact hrequest
    · cases hs₂
      exact hrequest
  subst hexec
  split
  · exact hmemory
  · have hclear : (s₂.updateConversations (fun c => c.id = b.conversationId && c.pendingCompactionJobId = some b.jobId)
        Conversation.clear Conversation.clear_id).memory = s₂.memory := memory_updateConversations fun _ => rfl
    exact hclear.trans hmemory

theorem memory_claim (s : Store) (workerId leaseToken : String) (now : ℤ) :
    (s.claimJob workerId leaseToken now).memory = s.memory := by
  unfold Store.claimJob
  dsimp only
  split
  · exact memory_recoverJobs s now
  · exact memory_recoverJobs s now

/-- The batches that may change what is remembered: a conversation begins, an
    entry is pinned, or the holder of a job completes it. -/
def Batch.Writes (s : Store) : Batch → Prop
  | .converse _ _ | .pin _ => True
  | .complete b => ∃ j ∈ s.jobs, j.id = b.id ∧ j.heldBy b.leaseToken b.now = true
  | .say _ | .schedule _ | .claim _ _ _ | .release _ => False

/-- The lease of a batch is not the sender's any more. -/
def Batch.Lost (s : Store) : Batch → Prop
  | .complete b => ∀ j ∈ s.jobs, j.id = b.id → j.heldBy b.leaseToken b.now = false
  | .release b => ∀ j ∈ s.jobs, j.id = b.id → j.heldBy b.leaseToken b.now = false
  | .converse _ _ | .say _ | .pin _ | .schedule _ | .claim _ _ _ => False

instance (s : Store) (b : Batch) : Decidable (b.Lost s) := by
  cases b <;> unfold Batch.Lost <;> infer_instance

theorem exec_memory (h : Sound limit s) {b : Batch} (hreads : b.Reads limit s) (hexec : exec b s = some s') :
    s'.memory = s.memory ∨ b.Writes s := by
  cases b with
  | converse id ownerId => exact .inr trivial
  | say m =>
    left
    simp only [exec] at hexec
    split at hexec
    · obtain ⟨messages, -, rfl⟩ := Option.map_eq_some_iff.1 hexec
      rfl
    · cases hexec
  | pin entry => exact .inr trivial
  | schedule b => exact .inl (memory_schedule hexec)
  | claim workerId leaseToken now =>
    cases hexec
    exact .inl (memory_claim s workerId leaseToken now)
  | complete b =>
    rcases complete_cases h hreads hexec with ⟨-, rfl⟩ | ⟨j, c, hdone⟩
    · exact .inl rfl
    · exact .inr ⟨j, hdone.job, hdone.id, hdone.held⟩
  | release b =>
    cases hexec
    exact .inl (memory_updateConversations fun _ => rfl)

/-- A release without its lease finds the conversation pointing elsewhere. -/
theorem release_lost (h : Sound limit s) {b : Release} (hreads : b.Reads s)
    (hlost : ∀ j ∈ s.jobs, j.id = b.id → j.heldBy b.leaseToken b.now = false) : s.releaseJob b = s := by
  obtain ⟨row, -, -, hheld, hread⟩ := hreads
  have hjobs : s.jobs.update (fun j => j.id = b.id && j.heldBy b.leaseToken b.now)
      (Job.become (if b.terminal then .failed b.now else .pending) (some b.availableAt) (some b.failureCode))
      (Job.become_key _ _ _) = s.jobs := by
    refine Table.update_eq_self _ fun j hj hsel => ?_
    simp only [Bool.and_eq_true, decide_eq_true_eq] at hsel
    rw [hlost j hj hsel.1] at hsel
    cases hsel.2
  have hconversations : s.conversations.update (fun c => c.pendingCompactionJobId = some b.id && b.terminal)
      Conversation.clear Conversation.clear_id = s.conversations := by
    refine Table.update_eq_self _ fun c hc hsel => ?_
    simp only [Bool.and_eq_true, decide_eq_true_eq] at hsel
    obtain ⟨j, hj, hid, -, hactive⟩ := (h.pending c hc b.id).1 hsel.1
    rcases hread j hj hid hsel.2 with rfl | hended
    · rw [hlost j hj hid] at hheld
      cases hheld
    · rw [hended] at hactive
      cases hactive
  rw [Store.releaseJob, Store.updateJobs, hjobs, Store.updateConversations, hconversations]

theorem exec_lost (h : Sound limit s) {b : Batch} (hreads : b.Reads limit s) (hlost : b.Lost s)
    (hexec : exec b s = some s') : s' = s := by
  cases b with
  | complete b =>
    rcases complete_cases h hreads hexec with ⟨-, rfl⟩ | ⟨j, c, hdone⟩
    · rfl
    · have hheld := hdone.held
      rw [hlost j hdone.job hdone.id] at hheld
      cases hheld
  | release b =>
    cases hexec
    exact release_lost h hreads hlost
  | converse id ownerId => cases hlost
  | say m => cases hlost
  | pin entry => cases hlost
  | schedule b => cases hlost
  | claim workerId leaseToken now => cases hlost

theorem step_world (L : Locale) (p : Profile) (f : MemoryFlight) (a : MemoryAction) :
    (step L p f a).2.world = f.world ∨ ∃ i b next, a = .advance i ∧ f.requests[i]? = some (commit b next) ∧
      land exec b f.world = some (step L p f a).2.world :=
  Flight.step_world f a

/-- **A batch without its lease changes nothing, and only a completion that holds
    its lease adds a summary.** -/
theorem lease_guards (L : Locale) (p : Profile) {actions : List MemoryAction}
    (hactions : Machine.Along (step L p) (FlightAction.Meets fun w b => b.Orderly w.state) MemoryFlight.initial actions) :
    let f := Machine.run (step L p) MemoryFlight.initial actions
    (∀ i b next, f.requests[i]? = some (commit b next) → b.Lost f.world.state →
      (step L p f (.advance i)).2.world.state = f.world.state) ∧
    ∀ a, (step L p f a).2.world.state.memory = f.world.state.memory ∨
      ∃ i b next, a = .advance i ∧ f.requests[i]? = some (commit b next) ∧ b.Writes f.world.state := by
  intro f
  obtain ⟨hrelies, h⟩ := run_sound L p hactions
  have hreads : ∀ {i : ℕ} {b : Batch} {next}, f.requests[i]? = some (commit b next) → b.Reads p.recentTurnLimit f.world.state :=
    fun hget => (hrelies _ (List.mem_of_getElem? hget) _ (later_refl _ h)).1
  constructor
  · intro i b next hget hlost
    rcases step_world L p f (.advance i) with hsame | ⟨i', b', next', hi, hget', hland⟩
    · exact congrArg Logged.state hsame
    · obtain rfl := FlightAction.advance.inj hi
      rw [hget] at hget'
      cases hget'
      exact exec_lost h (hreads hget) hlost (land_eq_some hland).1
  · intro a
    rcases step_world L p f a with hsame | ⟨i, b, next, rfl, hget, hland⟩
    · exact .inl (congrArg (fun w : World => w.state.memory) hsame)
    · rcases exec_memory h (hreads hget) (land_eq_some hland).1 with hmemory | hwrites
      · exact .inl hmemory
      · exact .inr ⟨i, b, next, rfl, hget, hwrites⟩

/-- The lease is given back before the completion lands. -/
def handedBack : List MemoryAction :=
  claimed ++ [.start (.fail "job" "token" "MODEL_FAILED" 6), .advance 7, .advance 7]

theorem lease_guards_handedBack :
    let f := Machine.run (step plainLocale shortProfile) MemoryFlight.initial handedBack
    (∃ b, sending f 6 = some b ∧ b.Lost f.world.state) ∧
      (step plainLocale shortProfile f (.advance 6)).2.world.state = f.world.state := by
  intro f
  have hlost : ∃ b, sending f 6 = some b ∧ b.Lost f.world.state := by decide +kernel
  obtain ⟨b, hsending, hb⟩ := hlost
  obtain ⟨next, hget⟩ := exists_of_sending hsending
  exact ⟨⟨b, hsending, hb⟩, (lease_guards plainLocale shortProfile (by decide +kernel)).1 6 b next hget hb⟩

end Xauusd.Memory
