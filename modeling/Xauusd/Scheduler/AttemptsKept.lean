/-
  The rows of executed attempts.

  A row is found under the job, the attempt number and the credential, and a
  second one is ignored.  The number of a claim is its own as long as it is not
  given back; a maintenance deferral gives it back, also after executions were
  recorded under it.

  * `Lanes.WF`: an attempt number is of one turn, unless it was given back
    unused;
  * `no_attempt_lost`: then every recorded execution has its row;
  * `deferred_attempt_lost`: a number given back after use.
-/
import Xauusd.Scheduler.Continuity

namespace Xauusd.Scheduler

variable {P : Platform} {db db' : Db} {j : Job} {s : Lanes} {t t' : Turn}

/-! ## Turns and numbers -/

/-- The attempt number of a turn. -/
def Turn.number (t : Turn) : ℤ := t.job.attemptCount

/-- Numbers are of one turn each, unless they were given back; whoever holds a
    lease has the job's number; and the rows are those of the executions. -/
structure Lanes.WF (P : Platform) (s : Lanes) : Prop where
  db : s.db.WF
  serials : ∀ t ∈ s.turns, t.serial < s.opened
  numbers : ∀ t ∈ s.turns, t.gaveBack = false →
    ∃ j ∈ s.db.jobs, j.jobId = t.job.jobId ∧ t.number ≤ j.attemptCount
  distinct : ∀ t ∈ s.turns, ∀ t' ∈ s.turns, t.gaveBack = false → t'.gaveBack = false →
    t.job.jobId = t'.job.jobId → t.number = t'.number → t = t'
  succession : ∀ t ∈ s.turns, ∀ t' ∈ s.turns, t.gaveBack = false → t'.gaveBack = false →
    t.job.jobId = t'.job.jobId → t.workerId = t'.workerId → t.number < t'.number → t.ended = true
  holder : ∀ j ∈ s.db.jobs, j.state = .leased → ∃ t ∈ s.turns, t.gaveBack = false ∧
    t.job.jobId = j.jobId ∧ t.number = j.attemptCount ∧ j.leaseOwner = some t.workerId
  ended : ∀ t ∈ s.turns, t.gaveBack = true → t.ended = true
  untried : ∀ t ∈ s.turns, (t.attempted ++ t.candidates).Nodup
  recorded : ∀ e ∈ s.executions, ∃ t ∈ s.turns, t.gaveBack = false ∧ t.job.jobId = e.jobId ∧
    t.number = e.attemptCount ∧ e.credential ∈ t.attempted
  rows : s.db.attempts.rows = s.executions.map (Execution.row P)

theorem Lanes.empty_wf : Lanes.empty.WF P where
  db := Db.empty_wf
  serials t ht := absurd ht (Table.not_mem_empty t)
  numbers t ht := absurd ht (Table.not_mem_empty t)
  distinct t ht := absurd ht (Table.not_mem_empty t)
  succession t ht := absurd ht (Table.not_mem_empty t)
  holder j hj := absurd hj (Table.not_mem_empty j)
  ended t ht := absurd ht (Table.not_mem_empty t)
  untried t ht := absurd ht (Table.not_mem_empty t)
  recorded _ he := nomatch he
  rows := rfl

/-- A call that keeps the numbers keeps the invariant. -/
theorem Lanes.WF.keeps (h : s.WF P) (hwf : db'.WF) (hk : s.db.Continues db') :
    ({ s with db := db' } : Lanes).WF P where
  db := hwf
  serials := h.serials
  numbers t ht hlive := by
    obtain ⟨j, hj, hid, hle⟩ := h.numbers t ht hlive
    obtain ⟨j', hj', hid', hcount⟩ := hk.counts j hj
    exact ⟨j', hj', hid'.trans hid, hcount ▸ hle⟩
  distinct := h.distinct
  succession := h.succession
  holder j' hj' hs := by
    obtain ⟨j, hj, hid, hleased, howner⟩ := hk.leases j' hj' hs
    obtain ⟨t, ht, hlive, hjob, hnumber, hworker⟩ := h.holder j hj hleased
    obtain ⟨j'', hj'', hid'', hcount⟩ := hk.counts j hj
    rw [db'.jobs.eq_of_key_eq hj'' hj' (hid''.trans hid)] at hcount
    exact ⟨t, ht, hlive, hjob.trans hid, hnumber.trans hcount.symm, howner ▸ hworker⟩
  ended := h.ended
  untried := h.untried
  recorded := h.recorded
  rows := hk.attempts ▸ h.rows

/-- A turn goes on: nothing that it recorded or gave back is undone. -/
structure Turn.GoesOn (t t' : Turn) : Prop where
  job : t'.job = t.job
  workerId : t'.workerId = t.workerId
  gaveBack : t'.gaveBack = t.gaveBack
  ended : t.ended = true → t'.ended = true
  attempted : ∀ c ∈ t.attempted, c ∈ t'.attempted
  untried : (t.attempted ++ t.candidates).Nodup → (t'.attempted ++ t'.candidates).Nodup

theorem Turn.GoesOn.refl (t : Turn) : t.GoesOn t := ⟨rfl, rfl, rfl, id, fun _ h => h, id⟩

theorem Turn.GoesOn.number (h : t.GoesOn t') : t'.number = t.number := by
  rw [Turn.number, h.job, Turn.number]

theorem Lanes.mem_setTurn {serial : ℕ} {f : Turn → Turn} {hf : ∀ t, (f t).serial = t.serial}
    (ht' : t' ∈ (s.setTurn serial f hf).turns) :
    ∃ t ∈ s.turns, t' = if t.serial = serial then f t else t := by
  obtain ⟨t, ht, rfl⟩ := (Table.mem_update hf).1 ht'
  exact ⟨t, ht, by simp⟩

theorem Lanes.setTurn_mem {serial : ℕ} {f : Turn → Turn} {hf : ∀ t, (f t).serial = t.serial}
    (ht : t ∈ s.turns) :
    (if t.serial = serial then f t else t) ∈ (s.setTurn serial f hf).turns :=
  (Table.mem_update hf).2 ⟨t, ht, by simp⟩

theorem Lanes.WF.setTurn {serial : ℕ} {f : Turn → Turn} {hf : ∀ t, (f t).serial = t.serial}
    (h : s.WF P) (hgo : ∀ t ∈ s.turns, t.serial = serial → t.GoesOn (f t)) :
    (s.setTurn serial f hf).WF P := by
  have hback : ∀ t' ∈ (s.setTurn serial f hf).turns, ∃ t ∈ s.turns, t'.serial = t.serial ∧
      t.GoesOn t' ∧ t' = if t.serial = serial then f t else t := by
    intro t' ht'
    obtain ⟨t, ht, rfl⟩ := mem_setTurn ht'
    refine ⟨t, ht, ?_, ?_, rfl⟩
    · split
      · exact hf t
      · rfl
    · split
      · next hserial => exact hgo t ht hserial
      · exact .refl t
  have hforth : ∀ t ∈ s.turns, ∃ t' ∈ (s.setTurn serial f hf).turns, t.GoesOn t' := by
    intro t ht
    refine ⟨_, setTurn_mem ht, ?_⟩
    split
    · next hserial => exact hgo t ht hserial
    · exact .refl t
  constructor
  case db => exact h.db
  case rows => exact h.rows
  case serials =>
    intro t' ht'
    obtain ⟨t, ht, hserial, -⟩ := hback t' ht'
    exact hserial ▸ h.serials t ht
  case numbers =>
    intro t' ht' hlive
    obtain ⟨t, ht, -, hg, -⟩ := hback t' ht'
    obtain ⟨j, hj, hid, hle⟩ := h.numbers t ht (hg.gaveBack ▸ hlive)
    exact ⟨j, hj, hid.trans (hg.job ▸ rfl), hg.number ▸ hle⟩
  case distinct =>
    intro t₁' h₁' t₂' h₂' hlive₁ hlive₂ hid hnumber
    obtain ⟨t₁, h₁, -, hg₁, rfl⟩ := hback t₁' h₁'
    obtain ⟨t₂, h₂, -, hg₂, rfl⟩ := hback t₂' h₂'
    rw [hg₁.job, hg₂.job] at hid
    rw [hg₁.number, hg₂.number] at hnumber
    rw [h.distinct t₁ h₁ t₂ h₂ (hg₁.gaveBack ▸ hlive₁) (hg₂.gaveBack ▸ hlive₂) hid hnumber]
  case succession =>
    intro t₁' h₁' t₂' h₂' hlive₁ hlive₂ hid hworker hlt
    obtain ⟨t₁, h₁, -, hg₁, -⟩ := hback t₁' h₁'
    obtain ⟨t₂, h₂, -, hg₂, -⟩ := hback t₂' h₂'
    rw [hg₁.job, hg₂.job] at hid
    rw [hg₁.workerId, hg₂.workerId] at hworker
    rw [hg₁.number, hg₂.number] at hlt
    exact hg₁.ended (h.succession t₁ h₁ t₂ h₂ (hg₁.gaveBack ▸ hlive₁) (hg₂.gaveBack ▸ hlive₂) hid
      hworker hlt)
  case holder =>
    intro j hj hs
    obtain ⟨t, ht, hlive, hid, hnumber, howner⟩ := h.holder j hj hs
    obtain ⟨t', ht', hg⟩ := hforth t ht
    exact ⟨t', ht', hg.gaveBack.trans hlive, (congrArg _ hg.job).trans hid,
      hg.number.trans hnumber, hg.workerId ▸ howner⟩
  case ended =>
    intro t' ht' hgave
    obtain ⟨t, ht, -, hg, -⟩ := hback t' ht'
    exact hg.ended (h.ended t ht (hg.gaveBack ▸ hgave))
  case untried =>
    intro t' ht'
    obtain ⟨t, ht, -, hg, -⟩ := hback t' ht'
    exact hg.untried (h.untried t ht)
  case recorded =>
    intro e he
    obtain ⟨t, ht, hlive, hid, hnumber, hc⟩ := h.recorded e he
    obtain ⟨t', ht', hg⟩ := hforth t ht
    exact ⟨t', ht', hg.gaveBack.trans hlive, (congrArg _ hg.job).trans hid,
      hg.number.trans hnumber, hg.attempted _ hc⟩

/-! ## The actions -/

/-- A turn just opened. -/
def Lanes.newTurn (s : Lanes) (r : ClaimRequest) (candidates : List ApiCredential)
    (job : ScheduledJob) : Turn where
  serial := s.opened
  workerId := r.workerId
  job := job
  candidates := candidates
  blockedAccounts := []
  attempted := []
  last := none
  executedAt := r.now
  ended := false
  gaveBack := false

/-- The state after a job was leased for a turn. -/
def Lanes.openTurn (s : Lanes) (r : ClaimRequest) (candidates : List ApiCredential) (row : Job) : Lanes :=
  { s with
    db := r.leaseJob row.jobId s.db
    turns := s.turns.insertIgnore (s.newTurn r candidates (jobFromRow (r.lease row)))
    opened := s.opened + 1 }

/-- The rows after a lease: the leased one has the next number. -/
theorem ClaimRequest.mem_leaseJob {r : ClaimRequest} {row j' : Job} (hrow : row ∈ db.jobs)
    (hj' : j' ∈ (r.leaseJob row.jobId db).jobs) :
    (j' ∈ db.jobs ∧ j'.jobId ≠ row.jobId) ∨ j'.jobId = row.jobId ∧ (j' = row ∨ j' = r.lease row) := by
  obtain ⟨j, hj, rfl⟩ := (Table.mem_update (f := r.lease) fun _ => rfl).1 hj'
  by_cases hid : j.jobId = row.jobId
  · obtain rfl := db.jobs.eq_of_key_eq hj hrow hid
    refine .inr ⟨by split <;> rfl, ?_⟩
    split
    · exact .inr rfl
    · exact .inl rfl
  · refine .inl ?_
    rw [if_neg (by simp [hid])]
    exact ⟨hj, hid⟩

theorem ClaimRequest.leaseJob_mem {r : ClaimRequest} {row : Job} (hrow : row ∈ db.jobs)
    (hwaiting : row.waiting = true) : r.lease row ∈ (r.leaseJob row.jobId db).jobs :=
  (Table.mem_update (f := r.lease) fun _ => rfl).2 ⟨row, hrow, by simp [hwaiting]⟩

theorem Lanes.mem_openTurn (h : s.WF P) {r : ClaimRequest} {candidates : List ApiCredential} {row : Job} :
    t ∈ (s.openTurn r candidates row).turns ↔
      t ∈ s.turns ∨ t = s.newTurn r candidates (jobFromRow (r.lease row)) := by
  obtain ⟨-, t', ht', hclash⟩ | ⟨-, e⟩ := s.turns.insertIgnore_cases
    (s.newTurn r candidates (jobFromRow (r.lease row))) fun _ => false
  · have hlt := h.serials t' ht'
    rcases hclash with hserial | hclash
    · rw [hserial] at hlt
      exact absurd hlt (lt_irrefl _)
    · simp at hclash
  · show t ∈ (s.turns.insertIgnore _ _).rows ↔ _
    rw [e, List.mem_append, List.mem_singleton, Table.mem_rows]

/-- **A claim opens a turn under a number of its own.** -/
theorem Lanes.WF.openTurn (h : s.WF P) {r : ClaimRequest} {candidates : List ApiCredential} {row : Job}
    (hwf : (r.leaseJob row.jobId s.db).WF) (hrow : row ∈ s.db.jobs) (hwaiting : row.waiting = true)
    (hnodup : candidates.Nodup) (hworker : ∀ t ∈ s.turns, t.workerId = r.workerId → t.ended = true) :
    (s.openTurn r candidates row).WF P := by
  have hleased := ClaimRequest.leaseJob_mem (r := r) hrow hwaiting
  -- the turns of this job have smaller numbers
  have hsmaller : ∀ t ∈ s.turns, t.gaveBack = false → t.job.jobId = row.jobId →
      t.number < row.attemptCount + 1 := by
    intro t ht hlive hid
    obtain ⟨j, hj, hid', hle⟩ := h.numbers t ht hlive
    rw [s.db.jobs.eq_of_key_eq hj hrow (hid'.trans hid)] at hle
    omega
  have hmem : ∀ t ∈ (s.openTurn r candidates row).turns, t ∈ s.turns ∨
      t = s.newTurn r candidates (jobFromRow (r.lease row)) := fun t => (mem_openTurn h).1
  constructor
  case db => exact hwf
  case rows => exact h.rows
  case serials =>
    intro t ht
    rcases hmem t ht with ht | rfl
    · exact (h.serials t ht).trans (Nat.lt_succ_self _)
    · exact Nat.lt_succ_self _
  case numbers =>
    intro t ht hlive
    rcases hmem t ht with ht | rfl
    · obtain ⟨j, hj, hid, hle⟩ := h.numbers t ht hlive
      by_cases heq : j.jobId = row.jobId
      · refine ⟨_, hleased, heq.symm.trans hid, ?_⟩
        rw [s.db.jobs.eq_of_key_eq hj hrow heq] at hle
        exact hle.trans (by simp [ClaimRequest.lease])
      · refine ⟨j, ?_, hid, hle⟩
        exact (Table.mem_update (f := r.lease) fun _ => rfl).2 ⟨j, hj, by simp [heq]⟩
    · exact ⟨_, hleased, rfl, le_refl _⟩
  case distinct =>
    intro t ht t' ht' hlive hlive' hid hnumber
    rcases hmem t ht with ht | rfl <;> rcases hmem t' ht' with ht' | rfl
    · exact h.distinct t ht t' ht' hlive hlive' hid hnumber
    · exact absurd hnumber (hsmaller t ht hlive hid).ne
    · exact absurd hnumber.symm (hsmaller t' ht' hlive' hid.symm).ne
    · rfl
  case succession =>
    intro t ht t' ht' hlive hlive' hid hsame hlt
    rcases hmem t ht with ht | rfl <;> rcases hmem t' ht' with ht' | rfl
    · exact h.succession t ht t' ht' hlive hlive' hid hsame hlt
    · exact hworker t ht hsame
    · exact absurd hlt (hsmaller t' ht' hlive' hid.symm).not_gt
    · exact absurd hlt (lt_irrefl _)
  case holder =>
    intro j hj hs
    rcases ClaimRequest.mem_leaseJob hrow hj with ⟨hj, -⟩ | ⟨-, rfl | rfl⟩
    · obtain ⟨t, ht, hholds⟩ := h.holder j hj hs
      exact ⟨t, (mem_openTurn h).2 (.inl ht), hholds⟩
    · simp [Job.waiting, hs] at hwaiting
    · exact ⟨_, (mem_openTurn h).2 (.inr rfl), rfl, rfl, rfl, rfl⟩
  case ended =>
    intro t ht hgave
    rcases hmem t ht with ht | rfl
    · exact h.ended t ht hgave
    · simp [newTurn] at hgave
  case untried =>
    intro t ht
    rcases hmem t ht with ht | rfl
    · exact h.untried t ht
    · simpa [newTurn] using hnodup
  case recorded =>
    intro e he
    obtain ⟨t, ht, hholds⟩ := h.recorded e he
    exact ⟨t, (mem_openTurn h).2 (.inl ht), hholds⟩

theorem Lanes.WF.claim (h : s.WF P) {r : ClaimRequest} {candidates : List ApiCredential}
    (hnodup : candidates.Nodup) (hworker : ∀ t ∈ s.turns, t.workerId = r.workerId → t.ended = true) :
    (s.claim r candidates).WF P := by
  have hrepaired : s.db.Continues (s.db.repairExpiredLeases r.now) :=
    Db.updateJobs_continues fun _ _ _ => ⟨rfl, rfl, .inl (by simp [Job.repaired])⟩
  have hrepairedWF : (s.db.repairExpiredLeases r.now).WF :=
    ((repairExpiredLeases_writes r s.db).lawful h.db).1
  obtain ⟨hdb, hreply⟩ | hclaim | ⟨tasks, lanes, row, hselect, hclaim⟩ := claimJob_cases r s.db
  · have heq : s.claim r candidates = s := by
      unfold Lanes.claim
      split
      · next job db hclaim => exact absurd (congrArg Prod.fst hclaim) (hreply job)
      · next reply db _ hclaim => rw [show db = s.db from (congrArg Prod.snd hclaim).symm.trans hdb]
    rwa [heq]
  · have heq : s.claim r candidates = { s with db := s.db.repairExpiredLeases r.now } := by
      simp only [Lanes.claim, hclaim]
    rw [heq]
    exact h.keeps hrepairedWF hrepaired
  · obtain ⟨hrow, hclaimable⟩ := ClaimRequest.select_mem hselect
    have hwaiting := ClaimRequest.claimable_waiting hclaimable
    have hfound : (r.leaseJob row.jobId (s.db.repairExpiredLeases r.now)).jobs.find? row.jobId =
        some (r.lease row) :=
      Table.find?_eq_some_iff.2 ⟨ClaimRequest.leaseJob_mem hrow hwaiting, rfl⟩
    have heq : s.claim r candidates =
        ({ s with db := s.db.repairExpiredLeases r.now } : Lanes).openTurn r candidates row := by
      simp only [Lanes.claim, hclaim, hfound, Option.map_some]
      rfl
    rw [heq]
    refine (h.keeps hrepairedWF hrepaired).openTurn ?_ hrow hwaiting hnodup hworker
    exact ((leaseJob_writes r row.jobId _).lawful hrepairedWF).1

/-- An execution takes a candidate out, into the recorded ones at most. -/
theorem Turn.executed_goesOn {c : ApiCredential} {rest : List ApiCredential} {status : ExecutionStatus}
    {attemptedAt : ℤ} (h : t.remaining = c :: rest) :
    t.GoesOn (t.executed c rest status attemptedAt) where
  job := rfl
  workerId := rfl
  gaveBack := rfl
  ended := id
  attempted c' hc' := by
    simp only [executed]
    split
    · exact hc'
    · exact List.mem_cons_of_mem _ hc'
  untried hnodup := by
    have hsub : (c :: rest).Sublist t.candidates := by
      rw [← h]
      exact (List.dropWhile_suffix _).sublist
    have hall : (c :: (t.attempted ++ rest)).Nodup :=
      List.perm_middle.nodup_iff.1 (hnodup.sublist (hsub.append_left t.attempted))
    refine hall.sublist ?_
    rw [← List.cons_append]
    refine List.Sublist.append ?_ ?_
    · simp only [executed]
      split
      · exact List.sublist_cons_self _ _
      · exact .refl _
    · simp only [executed]
      split
      · exact .refl _
      · exact List.nil_sublist _

/-- A new execution of a turn at work has a row of its own. -/
theorem Lanes.WF.record (h : s.WF P) {c : ApiCredential} {status : ExecutionStatus} {attemptedAt : ℤ}
    (ht : t ∈ s.turns) (hlive : t.gaveBack = false)
    (hc : status.maintenanceDeferred = false → c ∈ t.attempted)
    (hnew : status.maintenanceDeferred = false →
      ∀ e ∈ s.executions, e.attemptId P ≠ (t.execution c attemptedAt).attemptId P) :
    (s.record P t c status attemptedAt).WF P := by
  unfold Lanes.record
  split
  · exact h
  · next hstatus =>
    rw [Bool.not_eq_true] at hstatus
    refine { h with recorded := fun e he => ?_, rows := ?_ }
    · rcases List.mem_append.1 he with he | he
      · exact h.recorded e he
      · obtain rfl := List.mem_singleton.1 he
        exact ⟨t, ht, hlive, rfl, rfl, hc hstatus⟩
    · obtain ⟨-, row, hrow, hclash⟩ | ⟨-, e⟩ := s.db.attempts.insertIgnore_cases
        ((t.execution c attemptedAt).row P) fun _ => false
      · rw [← Table.mem_rows, h.rows] at hrow
        obtain ⟨e, he, rfl⟩ := List.mem_map.1 hrow
        rcases hclash with hclash | hclash
        · exact absurd hclash (hnew hstatus e he)
        · simp at hclash
      · rw [List.map_append, ← h.rows]
        exact e

theorem Lanes.WF.execute (h : s.WF P) {serial : ℕ} {status : ExecutionStatus} {attemptedAt : ℤ}
    (hid : ∀ t ∈ s.turns, t.serial = serial → ∀ c, t.remaining.head? = some c → ∀ e ∈ s.executions,
      e.attemptId P = (t.execution c attemptedAt).attemptId P →
        e.jobId = t.job.jobId ∧ e.attemptCount = t.number ∧ e.credential = c) :
    (s.execute P serial status attemptedAt).WF P := by
  unfold Lanes.execute
  split
  · next t hfind =>
    obtain ⟨ht, hserial⟩ := Table.find?_eq_some_iff.1 hfind
    split
    · next c rest hover hremaining =>
      generalize withSchedulerFailureCode status = st
      have hswap : (s.record P t c st attemptedAt).setTurn serial
          (·.executed c rest st attemptedAt) (fun _ => rfl) =
          (s.setTurn serial (·.executed c rest st attemptedAt) fun _ => rfl).record P
            (t.executed c rest st attemptedAt) c st attemptedAt := by
        unfold Lanes.record
        split <;> rfl
      have hlive : t.gaveBack = false := by
        by_contra hgave
        rw [Bool.not_eq_false] at hgave
        rw [h.ended t ht hgave] at hover
        cases hover
      have hgone : (s.setTurn serial (·.executed c rest st attemptedAt) fun _ => rfl).WF P :=
        h.setTurn fun t' ht' hserial' => by
          obtain rfl := s.turns.eq_of_key_eq ht' ht (hserial'.trans hserial.symm)
          exact Turn.executed_goesOn hremaining
      have hmem : (if t.serial = serial then t.executed c rest st attemptedAt else t) ∈
          (s.setTurn serial (·.executed c rest st attemptedAt) fun _ => rfl).turns :=
        Lanes.setTurn_mem ht
      rw [if_pos hserial] at hmem
      rw [hswap]
      refine hgone.record hmem hlive (fun hst => ?_) fun _ e he heq => ?_
      · simp [Turn.executed, hst]
      · obtain ⟨hjob, hnumber, hc⟩ := hid t ht hserial c (by rw [hremaining, List.head?_cons]) e he heq
        obtain ⟨t', ht', hlive', hjob', hnumber', hc'⟩ := h.recorded e he
        rw [h.distinct t' ht' t ht hlive' hlive (hjob'.trans hjob) (hnumber'.trans hnumber), hc] at hc'
        have hcandidate : c ∈ t.candidates :=
          (List.dropWhile_suffix _).sublist.subset (hremaining ▸ List.mem_cons_self)
        exact (List.nodup_append.1 (h.untried t ht)).2.2 c hc' c hcandidate rfl
    · exact h
  · exact h

/-- The holder of a lease is the turn that its worker has at work. -/
theorem Lanes.WF.holds (h : s.WF P) (ht : t ∈ s.turns) (hover : t.ended = false) (hj : j ∈ s.db.jobs)
    (hleased : j.leasedTo t.job.jobId t.workerId = true) : t.number = j.attemptCount := by
  simp only [Job.leasedTo, Bool.and_eq_true, decide_eq_true_eq] at hleased
  obtain ⟨⟨hid, hs⟩, howner⟩ := hleased
  obtain ⟨t', ht', hlive', hid', hnumber', howner'⟩ := h.holder j hj hs
  have hlive : t.gaveBack = false := by
    by_contra hgave
    rw [Bool.not_eq_false] at hgave
    rw [h.ended t ht hgave] at hover
    cases hover
  obtain ⟨j', hj', hidj', hle⟩ := h.numbers t ht hlive
  rw [s.db.jobs.eq_of_key_eq hj' hj (hidj'.trans hid.symm), ← hnumber'] at hle
  rcases hle.lt_or_eq with hlt | heq
  · have hsame : t.workerId = t'.workerId := Option.some.inj (howner.symm.trans howner')
    rw [h.succession t ht t' ht' hlive hlive' (hid.symm.trans hid'.symm) hsame hlt] at hover
    cases hover
  · exact heq.trans hnumber'

/-- The end of a turn, unless it defers the job, keeps the numbers. -/
theorem Turn.finish_keeps {now : ℤ} (hdb : db.WF) (h : t.defers now = false) :
    (t.finish P now db).2.WF ∧ db.Continues (t.finish P now db).2 := by
  unfold Turn.defers at h
  unfold Turn.finish
  cases hending : t.ending now with
  | complete =>
    exact ⟨(exec_lawful P (.job (.complete t.job.jobId t.workerId now now)) db hdb).1,
      transitionLeasedJob_continues _ _ (by simp) _ _ _ _ db⟩
  | backoff availableAt error =>
    exact ⟨(exec_lawful P (.job (.backoff t.job.jobId t.workerId availableAt error true now)) db
      hdb).1, transitionLeasedJob_continues _ _ (by simp) _ _ _ _ db⟩
  | release availableAt error =>
    exact ⟨(exec_lawful P (.job (.release t.job.jobId t.workerId availableAt (some error) now)) db
      hdb).1, transitionLeasedJob_continues _ _ (by simp) _ _ _ _ db⟩
  | defer availableAt reason accountId deferredAt => simp [hending] at h

/-- The turn `t` gives its number back. -/
def Turn.giveBack (t : Turn) : Turn :=
  { t with
    ended := true
    gaveBack := true }

/-- The job of a turn is deferred. -/
def Turn.deferred (t : Turn) (availableAt : ℤ) (reason : String) (clock : ℤ) (db : Db) : Db :=
  db.updateJobs (Job.deferrable t.job.jobId t.workerId) (·.deferred availableAt reason clock)
    (Job.deferred_jobId availableAt reason clock)

/-- **A number given back unused** may be given out again. -/
theorem Lanes.WF.giveBack (h : s.WF P) {availableAt clock : ℤ} {reason : String} {serial : ℕ}
    (hwf : (t.deferred availableAt reason clock s.db).WF) (ht : t ∈ s.turns)
    (hserial : t.serial = serial) (hover : t.ended = false) (hunused : t.attempted = [])
    (hhit : s.db.jobs.hits (Job.deferrable t.job.jobId t.workerId) = 1) :
    (({ s with db := t.deferred availableAt reason clock s.db } : Lanes).setTurn serial Turn.giveBack
      fun _ => rfl).WF P := by
  obtain ⟨j, hj, hdeferrable⟩ : ∃ j ∈ s.db.jobs, Job.deferrable t.job.jobId t.workerId j = true := by
    by_contra hnone
    push Not at hnone
    rw [Table.hits_eq_zero_iff.2 fun j hj => by simpa using hnone j hj] at hhit
    cases hhit
  have hleased : j.leasedTo t.job.jobId t.workerId = true := by
    simp only [Job.deferrable, Bool.and_eq_true] at hdeferrable
    exact hdeferrable.1
  have hid : j.jobId = t.job.jobId := by
    simp only [Job.leasedTo, Bool.and_eq_true, decide_eq_true_eq] at hleased
    exact hleased.1.1
  have hnumber := h.holds ht hover hj hleased
  have hlive : t.gaveBack = false := by
    by_contra hgave
    rw [Bool.not_eq_false] at hgave
    rw [h.ended t ht hgave] at hover
    cases hover
  -- the turns that keep their numbers are the others, as they were
  have hback : ∀ t' ∈ (s.setTurn serial Turn.giveBack fun _ => rfl).turns, t'.gaveBack = false →
      t' ∈ s.turns ∧ t' ≠ t := by
    intro t' ht' hlive'
    obtain ⟨t₀, h₀, rfl⟩ := Lanes.mem_setTurn ht'
    by_cases hs : t₀.serial = serial
    · simp [if_pos hs, Turn.giveBack] at hlive'
    · rw [if_neg hs]
      exact ⟨h₀, fun heq => hs (heq ▸ hserial)⟩
  have hforth : ∀ t' ∈ s.turns, t' ≠ t →
      t' ∈ (s.setTurn serial Turn.giveBack fun _ => rfl).turns := by
    intro t' ht' hne
    have hmem : (if t'.serial = serial then t'.giveBack else t') ∈
        (s.setTurn serial Turn.giveBack fun _ => rfl).turns := Lanes.setTurn_mem ht'
    rwa [if_neg fun hs => hne (s.turns.eq_of_key_eq ht' ht (hs.trans hserial.symm))] at hmem
  constructor
  case db => exact hwf
  case rows => exact h.rows
  case serials =>
    intro t' ht'
    obtain ⟨t₀, h₀, rfl⟩ := Lanes.mem_setTurn ht'
    split
    · exact h.serials t₀ h₀
    · exact h.serials t₀ h₀
  case numbers =>
    intro t' ht' hlive'
    obtain ⟨ht', hne⟩ := hback t' ht' hlive'
    obtain ⟨j', hj', hid', hle⟩ := h.numbers t' ht' hlive'
    refine ⟨_, (Table.mem_update (f := fun j : Job => j.deferred availableAt reason clock)
      fun _ => rfl).2 ⟨j', hj', rfl⟩, ?_⟩
    by_cases hp : Job.deferrable t.job.jobId t.workerId j' = true
    · rw [if_pos hp]
      refine ⟨hid', ?_⟩
      have hp : j'.jobId = t.job.jobId := by
        simp only [Job.deferrable, Job.leasedTo, Bool.and_eq_true, decide_eq_true_eq] at hp
        exact hp.1.1.1
      obtain rfl := s.db.jobs.eq_of_key_eq hj' hj (hp.trans hid.symm)
      have hdiffer : t'.number ≠ j'.attemptCount := fun heq =>
        hne (h.distinct t' ht' t ht hlive' hlive (hid'.symm.trans hid) (heq.trans hnumber.symm))
      show t'.number ≤ j'.attemptCount - 1
      omega
    · rw [if_neg hp]
      exact ⟨hid', hle⟩
  case distinct =>
    intro t₁ h₁ t₂ h₂ hlive₁ hlive₂ hjob hsame
    exact h.distinct t₁ (hback t₁ h₁ hlive₁).1 t₂ (hback t₂ h₂ hlive₂).1 hlive₁ hlive₂ hjob hsame
  case succession =>
    intro t₁ h₁ t₂ h₂ hlive₁ hlive₂ hjob hworker hlt
    exact h.succession t₁ (hback t₁ h₁ hlive₁).1 t₂ (hback t₂ h₂ hlive₂).1 hlive₁ hlive₂ hjob hworker
      hlt
  case holder =>
    intro j' hj' hs
    obtain ⟨j₀, h₀, rfl⟩ := (Table.mem_update
      (f := fun j : Job => j.deferred availableAt reason clock) fun _ => rfl).1 hj'
    by_cases hp : Job.deferrable t.job.jobId t.workerId j₀ = true
    · simp [if_pos hp, Job.deferred] at hs
    · rw [if_neg hp] at hs ⊢
      obtain ⟨t', ht', hlive', hjob', hnumber', howner'⟩ := h.holder j₀ h₀ hs
      refine ⟨t', hforth t' ht' ?_, hlive', hjob', hnumber', howner'⟩
      rintro rfl
      rw [s.db.jobs.eq_of_key_eq h₀ hj (hjob'.symm.trans hid.symm)] at hp
      exact hp hdeferrable
  case ended =>
    intro t' ht' hgave
    obtain ⟨t₀, h₀, rfl⟩ := Lanes.mem_setTurn ht'
    by_cases hs : t₀.serial = serial
    · simp [if_pos hs, Turn.giveBack]
    · rw [if_neg hs] at hgave ⊢
      exact h.ended t₀ h₀ hgave
  case untried =>
    intro t' ht'
    obtain ⟨t₀, h₀, rfl⟩ := Lanes.mem_setTurn ht'
    split
    · exact h.untried t₀ h₀
    · exact h.untried t₀ h₀
  case recorded =>
    intro e he
    obtain ⟨t', ht', hlive', hjob', hnumber', hc⟩ := h.recorded e he
    refine ⟨t', hforth t' ht' ?_, hlive', hjob', hnumber', hc⟩
    rintro rfl
    simp [hunused] at hc

theorem deferJobForMaintenance_cases (t : Turn) (availableAt : ℤ) (reason : String) (clock : ℤ)
    (db : Db) :
    (db.jobs.hits (Job.deferrable t.job.jobId t.workerId) = 1 ∧
      deferJobForMaintenance t.job.jobId t.workerId availableAt reason clock db =
        (.ok (), t.deferred availableAt reason clock db)) ∨
      deferJobForMaintenance t.job.jobId t.workerId availableAt reason clock db =
        (.error leaseNotOwned, db) := by
  unfold deferJobForMaintenance
  split
  · next hhit => exact .inl ⟨hhit, rfl⟩
  · exact .inr rfl

/-- A turn that defers does so after a write to the capacity tables. -/
theorem Turn.finish_defers {now : ℤ} (h : t.defers now = true) (db : Db) :
    ∃ db₁ availableAt reason, db₁.jobs = db.jobs ∧ db₁.attempts = db.attempts ∧
      db₁.contractBackfills = db.contractBackfills ∧ t.finish P now db =
        deferJobForMaintenance t.job.jobId t.workerId availableAt reason now db₁ := by
  cases hending : t.ending now with
  | complete | backoff | release => simp [Turn.defers, hending] at h
  | defer availableAt reason accountId deferredAt =>
    refine ⟨{ db with capacity :=
      (recordSchedulerDeferral P t.job.jobId accountId reason deferredAt db.capacity).2 },
      availableAt, reason, rfl, rfl, rfl, ?_⟩
    rw [Turn.finish, hending]

theorem Lanes.WF.finish (h : s.WF P) {serial : ℕ} {now : ℤ}
    (hunused : ∀ t ∈ s.turns, t.serial = serial → t.ended = false → t.remaining = [] →
      t.defers now = true → t.attempted = []) : (s.finish P serial now).WF P := by
  unfold Lanes.finish
  split
  · next t hfind =>
    obtain ⟨ht, hserial⟩ := Table.find?_eq_some_iff.1 hfind
    split
    · next hover hremaining =>
      have hlive : t.gaveBack = false := by
        by_contra hgave
        rw [Bool.not_eq_false] at hgave
        rw [h.ended t ht hgave] at hover
        cases hover
      -- a turn that ends without giving its number back
      have hends (b : Bool) (hb : b = false) (db : Db) (hwf : db.WF) (hk : s.db.Continues db) :
          (({ s with db := db } : Lanes).setTurn serial
            (fun t' => { t' with ended := true, gaveBack := b }) fun _ => rfl).WF P := by
        refine (h.keeps hwf hk).setTurn fun t' ht' hserial' => ?_
        obtain rfl := s.turns.eq_of_key_eq ht' ht (hserial'.trans hserial.symm)
        exact ⟨rfl, rfl, hb.trans hlive.symm, fun _ => rfl, fun _ hc => hc, id⟩
      by_cases hdefers : t.defers now = true
      · have hempty := hunused t ht hserial hover hremaining hdefers
        obtain ⟨db, availableAt, reason, hjobs, hattempts, hbackfills, hfinish⟩ :=
          Turn.finish_defers (P := P) hdefers s.db
        have hk : s.db.Continues db := Db.continues_of_eq hjobs hattempts hbackfills
        have hdb : db.WF := by
          rw [Db.WF, hjobs]
          exact h.db
        dsimp only
        rw [hfinish, hdefers]
        rcases deferJobForMaintenance_cases t availableAt reason now db with ⟨hhit, hok⟩ | herror
        · have hwf := ((deferJobForMaintenance_writes t.job.jobId t.workerId availableAt reason now
            db).lawful hdb).1
          rw [hok] at hwf ⊢
          exact (h.keeps hdb hk).giveBack hwf ht hserial hover hempty hhit
        · rw [herror]
          exact hends _ rfl _ hdb hk
      · rw [Bool.not_eq_true] at hdefers
        obtain ⟨hwf, hk⟩ := Turn.finish_keeps (P := P) h.db hdefers
        exact hends _ (by simp [hdefers]) _ hwf hk
    · exact h
  · exact h

/-! ## Runs -/

/-- The action keeps account of its attempts: the candidates of a claim are
    distinct and no other turn at work has its worker id, the ids of different
    attempts differ, and a turn that ends in a maintenance deferral has recorded
    nothing. -/
def LaneAction.Accounted (P : Platform) (s : Lanes) : LaneAction → Prop
  | .claim r candidates => candidates.Nodup ∧ ∀ t ∈ s.turns, t.workerId = r.workerId → t.ended = true
  | .execute serial _ attemptedAt => ∀ t ∈ s.turns, t.serial = serial →
      ∀ c, t.remaining.head? = some c → ∀ e ∈ s.executions,
        e.attemptId P = (t.execution c attemptedAt).attemptId P →
          e.jobId = t.job.jobId ∧ e.attemptCount = t.number ∧ e.credential = c
  | .finish serial now => ∀ t ∈ s.turns, t.serial = serial → t.ended = false → t.remaining = [] →
      t.defers now = true → t.attempted = []
  | _ => True

theorem LaneAction.exec_wf {a : LaneAction} (ha : a.Accounted P s) (h : s.WF P) :
    (a.exec P s).2.WF P := by
  cases a with
  | claim r candidates => exact h.claim ha.1 ha.2
  | execute serial status attemptedAt => exact h.execute ha
  | finish serial now => exact h.finish ha
  | stop serial =>
    exact h.setTurn fun t _ _ => ⟨rfl, rfl, rfl, fun _ => rfl, fun _ hc => hc, id⟩
  | other c => exact h.keeps ((exec_lawful P c.1 s.db h.db).1) (exec_continues P c.2 s.db)

/-- Every recorded execution has a row of its own, so a job has as many rows as
    executions. -/
structure Lanes.NoneLost (P : Platform) (s : Lanes) : Prop where
  own : ∀ e ∈ s.executions, e.row P ∈ s.db.attempts
  count : ∀ jobId, s.db.attempts.rows.countP (fun a => a.jobId = jobId) =
    s.executions.countP fun e => e.jobId = jobId

/-- **No executed attempt is lost** along actions that keep account of them. -/
theorem no_attempt_lost (P : Platform) (actions : List LaneAction)
    (hactions : Machine.Along (fun s a => LaneAction.exec P s a)
      (fun s a => LaneAction.Accounted P s a) Lanes.empty actions) :
    Lanes.NoneLost P (Machine.run (fun s a => LaneAction.exec P s a) Lanes.empty actions) := by
  have hwf := Machine.run_invariant (I := fun s => s.WF P) (fun _ _ ha h => LaneAction.exec_wf ha h)
    hactions Lanes.empty_wf
  generalize Machine.run (fun s a => LaneAction.exec P s a) Lanes.empty actions = s at hwf
  refine ⟨fun e he => ?_, fun jobId => ?_⟩
  · rw [← Table.mem_rows, hwf.rows]
    exact List.mem_map_of_mem he
  · rw [hwf.rows, List.countP_map]
    rfl

/-! ## A number given back after use -/

/-- One job, and a turn that claims it. -/
def claimedOnce (workerId : String) (now : ℤ) : LaneAction :=
  .claim { workerId := workerId, pool := "ROUTINE", now := now }
    [⟨"account-a", "a"⟩, ⟨"account-b", "b"⟩]

def oneJob : LaneAction :=
  .other ⟨.job (.enqueue
    { taskType := "ACTIVE_ANNOTATION", source := "reuters", sourceItemId := "item",
      revisionNumber := 1, promptVersion := "v1", priority := "NORMAL", now := 0 }),
    by simp [Call.ofLane]⟩

/-- The job is executed once. -/
def executedOnce : List LaneAction :=
  [oneJob, claimedOnce "lane-0" IsoTime.hour, .execute 0 { status := "OK" } IsoTime.hour,
    .finish 0 IsoTime.hour]

theorem no_attempt_lost_executedOnce : Lanes.NoneLost Platform.winter
    (Machine.run (fun s a => LaneAction.exec Platform.winter s a) Lanes.empty executedOnce) := by
  refine no_attempt_lost Platform.winter executedOnce ⟨trivial, ⟨by decide, ?_⟩, ?_, ?_, trivial⟩
  · intro t ht
    exact absurd ht (Table.not_mem_empty t)
  · have hnone : (Machine.run (fun s a => LaneAction.exec Platform.winter s a) Lanes.empty
        [oneJob, claimedOnce "lane-0" IsoTime.hour]).executions = [] := by decide
    intro t _ _ c _ e he
    rw [show e ∈ _ ↔ e ∈ [] from by rw [← hnone]; rfl] at he
    cases he
  · have hok : (Machine.run (fun s a => LaneAction.exec Platform.winter s a) Lanes.empty
        [oneJob, claimedOnce "lane-0" IsoTime.hour,
          .execute 0 { status := "OK" } IsoTime.hour]).turns.rows.all
            (fun t => !t.defers IsoTime.hour) = true := by decide
    intro t ht _ _ _ hdefers
    have := List.all_eq_true.1 hok t ht
    simp [hdefers] at this

/-- The first account is throttled, the second waits for its dispatch slot, and
    the first executes the next claim. -/
def deferredAfterUse : List LaneAction :=
  [oneJob, claimedOnce "lane-0" IsoTime.hour,
    .execute 0 { status := "ERROR", providerHttpStatus := some 429 } IsoTime.hour,
    .execute 0 { status := "DEFERRED", failureCode := some "PROVIDER_DISPATCH_DEFERRED" } IsoTime.hour,
    .finish 0 IsoTime.hour, claimedOnce "lane-1" (2 * IsoTime.hour),
    .execute 1 { status := "OK" } (2 * IsoTime.hour), .finish 1 (2 * IsoTime.hour)]

theorem deferred_attempt_lost : ¬ Lanes.NoneLost Platform.winter
    (Machine.run (fun s a => LaneAction.exec Platform.winter s a) Lanes.empty deferredAfterUse) := by
  intro h
  have hcount := h.count "ACTIVE_ANNOTATION|reuters|item|1||v1"
  have hrows : (Machine.run (fun s a => LaneAction.exec Platform.winter s a) Lanes.empty
      deferredAfterUse).db.attempts.rows.countP
        (fun a => a.jobId = "ACTIVE_ANNOTATION|reuters|item|1||v1") = 1 := by decide
  have hexecutions : (Machine.run (fun s a => LaneAction.exec Platform.winter s a) Lanes.empty
      deferredAfterUse).executions.countP
        (fun e => e.jobId = "ACTIVE_ANNOTATION|reuters|item|1||v1") = 2 := by decide
  rw [hrows, hexecutions] at hcount
  cases hcount

end Xauusd.Scheduler
