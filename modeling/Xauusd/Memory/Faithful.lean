/-
  What a context says of the conversation it is built from.

  * `trim_spec`: whole turns are dropped from the front, as few as the code
    finds;
  * `recentRows_ok`: without an error, the recent messages are all that no
    summary covers;
  * `Chain.before`: the summaries of what comes before a message are a chain;
  * `Faithful p s r a`: the summary, what is dropped and the recent messages make
    up the conversation before the current message, in its order, and the tokens
    are within their budgets;
  * `context_faithful`: **in every run, every context that is built is faithful**.
-/
import Xauusd.Memory.Chain
import Xauusd.Memory.Context

namespace Xauusd.Memory

open JsonText

variable {limit : ℕ} {s : Store}

/-! ## Whole turns -/

theorem dropTurns_spec (maximum : ℕ) (messages : List Message) :
    dropTurns maximum messages <:+ messages ∧
      (dropTurns maximum messages = [] ∨ fits maximum (dropTurns maximum messages) = true ∧
        ∃ m, (dropTurns maximum messages).head? = some m ∧ m.role = .user) := by
  induction messages with
  | nil => exact ⟨List.suffix_rfl, .inl rfl⟩
  | cons m messages ih =>
    rw [dropTurns]
    split
    · next huser => exact ⟨List.suffix_rfl, .inr ⟨huser.2, m, rfl, huser.1⟩⟩
    · exact ⟨ih.1.trans (List.suffix_cons m messages), ih.2⟩

theorem trim_spec (maximum : ℕ) (messages : List Message) :
    trimRecentWholeTurns maximum messages <:+ messages ∧
      (trimRecentWholeTurns maximum messages = [] ∨ fits maximum (trimRecentWholeTurns maximum messages) = true) ∧
      (trimRecentWholeTurns maximum messages = messages ∨ trimRecentWholeTurns maximum messages = [] ∨
        ∃ m, (trimRecentWholeTurns maximum messages).head? = some m ∧ m.role = .user) := by
  cases messages with
  | nil => exact ⟨List.suffix_rfl, .inl rfl, .inl rfl⟩
  | cons m messages =>
    rw [trimRecentWholeTurns]
    split
    · next hfits => exact ⟨List.suffix_rfl, .inr hfits, .inl rfl⟩
    · obtain ⟨hsuffix, hdropped⟩ := dropTurns_spec maximum messages
      refine ⟨hsuffix.trans (List.suffix_cons m messages), ?_, .inr ?_⟩
      · exact hdropped.imp_right fun h => h.1
      · exact hdropped.imp_right fun h => h.2

/-! ## Recent messages -/

/-- No message is before the boundary, or there is an error. -/
theorem recentRows_ok {p : Profile} {uncovered rows : List Message} (h : recentRows p uncovered = .ok rows) :
    rows = uncovered ∧ uncovered.length ≤ p.recentMessageLimit := by
  unfold recentRows at h
  dsimp only at h
  split at h
  · cases h
  · next hgap =>
    have hnone : uncovered.filter (fun m =>
        (Store.recentBoundary p.recentTurnLimit uncovered).any fun b => decide (m.place < b.place)) = [] :=
      List.length_eq_zero_iff.1 (Nat.eq_zero_of_not_pos hgap)
    have hall : uncovered.filter (fun m =>
        (Store.recentBoundary p.recentTurnLimit uncovered).all fun b => decide (b.place ≤ m.place)) = uncovered := by
      refine List.filter_eq_self.2 fun m hm => ?_
      have hm' := List.filter_eq_nil_iff.1 hnone m hm
      cases hboundary : Store.recentBoundary p.recentTurnLimit uncovered with
      | none => rfl
      | some b => simpa [hboundary] using hm'
    rw [hall] at h
    split at h
    · cases h
    · next hlength =>
      rw [List.length_take] at hlength
      have hle : uncovered.length ≤ p.recentMessageLimit := by omega
      rw [List.take_of_length_le (hle.trans (Nat.le_succ _))] at h
      cases h
      exact ⟨rfl, hle⟩

/-! ## Chains of what comes before -/

/-- A summary covers a message. -/
theorem Chain.covers {n : ℕ} {xs : List Summary} {covered : List Message} (h : Chain n xs covered) {x : Summary}
    (hx : x ∈ xs) : ∃ m ∈ covered, m.place = x.cover := by
  induction h with
  | nil => cases hx
  | snoc _ _ hsegment ih =>
    rcases List.mem_append.1 hx with hx | hx
    · obtain ⟨m, hm, hplace⟩ := ih hx
      exact ⟨m, List.mem_append_left _ hm, hplace⟩
    · obtain rfl := List.mem_singleton.1 hx
      obtain ⟨m, hm, hplace⟩ := hsegment.last
      exact ⟨m, List.mem_append_right _ (List.mem_of_getLast? hm), hplace⟩

theorem Chain.length_eq {n : ℕ} {xs : List Summary} {covered : List Message} (h : Chain n xs covered) : xs.length = n := by
  have hlength := congrArg List.length h.versions
  simpa using hlength

/-- The summaries of what comes before a place are a chain of their own, and the
    last one is of the highest version. -/
theorem Chain.before {n : ℕ} {xs : List Summary} {covered : List Message} (h : Chain n xs covered)
    (hordered : covered.Pairwise fun m m' => m.place < m'.place) (place : ℤ ×ₗ String) :
    ∃ ys zs first second, xs = ys ++ zs ∧ covered = first ++ second ∧ Chain ys.length ys first ∧
      (∀ x ∈ ys, x.cover < place) ∧ ∀ x ∈ zs, ¬ x.cover < place := by
  induction h with
  | nil => exact ⟨[], [], [], [], rfl, rfl, .nil, by simp, by simp⟩
  | @snoc n xs covered x segment hchain hversion hsegment ih =>
    rw [List.pairwise_append] at hordered
    by_cases hbefore : x.cover < place
    · refine ⟨xs ++ [x], [], covered ++ segment, [], by simp, by simp, ?_, ?_, by simp⟩
      · have hnext := hchain.snoc hversion hsegment
        rwa [← hnext.length_eq] at hnext
      · intro y hy
        rcases List.mem_append.1 hy with hy | hy
        · obtain ⟨m, hm, hplace⟩ := hchain.covers hy
          obtain ⟨last, hlast, hcover⟩ := hsegment.last
          have hlt := hordered.2.2 m hm last (List.mem_of_getLast? hlast)
          rw [hplace, hcover] at hlt
          exact hlt.trans hbefore
        · rwa [List.mem_singleton.1 hy]
    · obtain ⟨ys, zs, first, second, rfl, rfl, hys, hlt, hnot⟩ := ih hordered.1
      refine ⟨ys, zs ++ [x], first, second ++ segment, by simp, by simp, hys, hlt, ?_⟩
      intro y hy
      rcases List.mem_append.1 hy with hy | hy
      · exact hnot y hy
      · rwa [List.mem_singleton.1 hy]

/-- The newest of the summaries is the last one of the chain. -/
theorem newest_of_chain {n : ℕ} {ys : List Summary} {covered : List Message} (h : Chain n ys covered) :
    Table.firstBy (fun x y => decide (y.version ≤ x.version)) ys = ys.getLast? := by
  have htotal : ∀ x y : Summary, decide (y.version ≤ x.version) = true ∨ decide (x.version ≤ y.version) = true := by
    intro x y
    simpa using le_total y.version x.version
  cases h with
  | nil => rfl
  | @snoc n xs covered x segment hchain hversion hsegment =>
    have hnext := hchain.snoc hversion hsegment
    cases hfirst : Table.firstBy (fun x y : Summary => decide (y.version ≤ x.version)) (xs ++ [x]) with
    | none =>
      have hnil := Table.firstBy_eq_none_iff.1 hfirst
      simp at hnil
    | some y =>
      have hy := Table.mem_of_firstBy hfirst
      have hle : x.version ≤ y.version := by
        have hbest := Table.firstBy_le htotal (by
          intro a b c hab hbc
          simp only [decide_eq_true_eq] at hab hbc ⊢
          exact hbc.trans hab) hfirst x (by simp)
        simpa using hbest
      have hmem := List.mem_map_of_mem (f := fun z : Summary => z.version) hy
      rw [hnext.versions, List.mem_range'_1] at hmem
      have hsame : y.version = x.version := by omega
      have hnodup : ((xs ++ [x]).map (·.version)).Nodup := by
        rw [hnext.versions]
        exact List.nodup_range'
      rw [List.inj_on_of_nodup_map hnodup hy (by simp) hsame, List.getLast?_concat]

/-! ## What is built -/

def requiredTokens (p : Profile) (l : Layers) (summary : Option Summary) (currentUser : Message) : ℕ :=
  p.reservedTokens + l.pinnedTokens + summaryTokens summary + l.historicalTokens + currentUserTokens currentUser + l.evidenceTokens

theorem bind_eq_ok {α β ε : Type} {x : Except ε α} {f : α → Except ε β} {b : β} (h : (x >>= f) = .ok b) :
    ∃ a, x = .ok a ∧ f a = .ok b := by
  cases x with
  | error e => cases h
  | ok a => exact ⟨a, rfl, h⟩

/-- What there is when a context is built. -/
theorem buildAssistantContext_ok {L : Locale} {p : Profile} {r : ContextRequest} {a : AssistantContext}
    (h : buildAssistantContext L p s r = .ok (some a)) :
    (∃ c ∈ s.conversations, c.ownerId = r.ownerId ∧ c.id = r.conversationId) ∧
      ∃ currentUser l rows, s.currentUser r = some currentUser ∧ layers L s r currentUser = .ok l ∧
        recentRows p (s.uncovered r.conversationId (s.summaryBefore r.conversationId currentUser) currentUser) = .ok rows ∧
        layerChecks p l (s.summaryBefore r.conversationId currentUser) currentUser = .ok () ∧
        requiredTokens p l (s.summaryBefore r.conversationId currentUser) currentUser ≤ p.contextLimitTokens ∧
        a.pinned = l.pinned ∧ a.summary = s.summaryBefore r.conversationId currentUser ∧ a.currentUser = currentUser ∧
        a.toolEvidence = l.toolEvidence ∧
        a.recent = trimRecentWholeTurns (min p.recentTurnsTokenBudget
          (p.contextLimitTokens - requiredTokens p l (s.summaryBefore r.conversationId currentUser) currentUser))
          (rows.filter fun m => m.id ≠ currentUser.id) ∧
        a.estimatedTokens = requiredTokens p l (s.summaryBefore r.conversationId currentUser) currentUser +
          if a.recent = [] then 0 else tokenEstimate (array (a.recent.map Message.json)) := by
  unfold buildAssistantContext at h
  dsimp only at h
  split at h
  · cases h
  · split at h
    · cases h
    · next howner =>
      split at h
      · cases h
      · next currentUser huser =>
        obtain ⟨l, hl, h⟩ := bind_eq_ok h
        obtain ⟨rows, hrows, h⟩ := bind_eq_ok h
        obtain ⟨_, hchecks, h⟩ := bind_eq_ok h
        split at h
        · cases h
        · next hfits =>
          cases h
          simp only [Bool.not_eq_true', Bool.not_eq_false, List.any_eq_true, Bool.and_eq_true, decide_eq_true_eq] at howner
          exact ⟨howner, currentUser, l, rows, huser, hl, hrows, hchecks, not_lt.1 hfits, rfl, rfl, rfl, rfl, rfl, rfl⟩

theorem layers_ok {L : Locale} {r : ContextRequest} {currentUser : Message} {l : Layers}
    (h : layers L s r currentUser = .ok l) :
    r.historicalMemory = .ok l.historicalTokens ∧
      l.pinned = (s.pinsUpTo r.conversationId (some currentUser)).map PinnedEntry.snapshot := by
  obtain ⟨pins, hpins, h⟩ := bind_eq_ok h
  dsimp only at h
  split at h
  · cases h
  · obtain ⟨historicalTokens, hhistorical, h⟩ := bind_eq_ok h
    obtain ⟨toolEvidence, -, h⟩ := bind_eq_ok h
    cases h
    refine ⟨hhistorical, ?_⟩
    unfold Store.listPinnedEntries at hpins
    dsimp only at hpins
    split at hpins
    · cases hpins
    · next hlength =>
      cases hpins
      rw [List.length_take] at hlength
      rw [List.take_of_length_le (by omega)]

theorem layerChecks_ok {p : Profile} {l : Layers} {summary : Option Summary} {currentUser : Message}
    (h : layerChecks p l summary currentUser = .ok ()) :
    l.pinnedTokens ≤ p.pinnedTokenBudget ∧ summaryTokens summary ≤ p.summaryTokenBudget ∧
      l.historicalTokens ≤ p.historicalMemoryTokenBudget ∧ currentUserTokens currentUser ≤ p.currentUserTokenBudget ∧
      l.evidenceTokens ≤ p.toolEvidenceTokenBudget := by
  unfold layerChecks at h
  split_ifs at h
  simp only [not_lt] at *
  exact ⟨by assumption, by assumption, by assumption, by assumption, by assumption⟩

/-! ## Faithful contexts -/

def recentTokens (recent : List Message) : ℕ :=
  if recent = [] then 0 else tokenEstimate (array (recent.map Message.json))

/-- What the layers of a context come to, against their budgets. -/
structure Within (p : Profile) (r : ContextRequest) (a : AssistantContext) (l : Layers) : Prop where
  pinned : l.pinned = a.pinned ∧ l.pinnedTokens ≤ p.pinnedTokenBudget
  toolEvidence : l.toolEvidence = a.toolEvidence ∧ l.evidenceTokens ≤ p.toolEvidenceTokenBudget
  historical : r.historicalMemory = .ok l.historicalTokens ∧ l.historicalTokens ≤ p.historicalMemoryTokenBudget
  summary : summaryTokens a.summary ≤ p.summaryTokenBudget
  currentUser : currentUserTokens a.currentUser ≤ p.currentUserTokenBudget
  recent : recentTokens a.recent ≤ p.recentTurnsTokenBudget
  estimated : a.estimatedTokens = requiredTokens p l a.summary a.currentUser + recentTokens a.recent
  limit : a.estimatedTokens ≤ p.contextLimitTokens

structure Faithful (p : Profile) (s : Store) (r : ContextRequest) (a : AssistantContext) : Prop where
  owner : ∃ c ∈ s.conversations, c.ownerId = r.ownerId ∧ c.id = r.conversationId
  currentUser : a.currentUser ∈ s.said r.conversationId ∧ a.currentUser.id = r.currentUserMessageId ∧
    a.currentUser.role = .user
  /-- before the current message: what the chain up to the summary covers, what is
      dropped, and the recent messages -/
  history : ∃ xs ys covered dropped, s.summariesOf r.conversationId = xs ++ ys ∧ Chain xs.length xs covered ∧
    a.summary = xs.getLast? ∧ (∀ x ∈ ys, ¬ x.cover < a.currentUser.place) ∧
    (s.said r.conversationId).filter (fun m => decide (m.place < a.currentUser.place)) = covered ++ dropped ++ a.recent ∧
    (dropped = [] ∨ a.recent = [] ∨ ∃ m, a.recent.head? = some m ∧ m.role = .user)
  pinned : a.pinned = (s.pinsUpTo r.conversationId (some a.currentUser)).map PinnedEntry.snapshot
  within : ∃ l, Within p r a l

theorem mem_currentUser {r : ContextRequest} {currentUser : Message} (h : s.currentUser r = some currentUser) :
    currentUser ∈ s.said r.conversationId ∧ currentUser.id = r.currentUserMessageId ∧ currentUser.role = .user := by
  have hsel := List.find?_some h
  simp only [Bool.and_eq_true, decide_eq_true_eq] at hsel
  exact ⟨mem_said.2 ⟨List.mem_of_find?_eq_some h, hsel.1.2⟩, hsel.1.1, hsel.2⟩

/-- The summary is the last one of those of what comes before the message. -/
theorem summaryBefore_eq {conversationId : String} {currentUser : Message} {ys zs : List Summary} {first : List Message}
    (hsummaries : s.summariesOf conversationId = ys ++ zs) (hchain : Chain ys.length ys first)
    (hbefore : ∀ x ∈ ys, x.cover < currentUser.place) (hafter : ∀ x ∈ zs, ¬ x.cover < currentUser.place) :
    s.summaryBefore conversationId currentUser = ys.getLast? := by
  have hrows : s.summaries.rows.filter (fun x => x.conversationId = conversationId && decide (x.cover < currentUser.place)) =
      ys := by
    have hfilter : (s.summariesOf conversationId).filter (fun x => decide (x.cover < currentUser.place)) = ys := by
      rw [hsummaries, List.filter_append, List.filter_eq_self.2 (by simpa using hbefore),
        List.filter_eq_nil_iff.2 (by simpa using hafter), List.append_nil]
    rw [← hfilter, Store.summariesOf, List.filter_filter]
    exact List.filter_congr fun x _ => Bool.and_comm _ _
  rw [Store.summaryBefore, hrows]
  exact newest_of_chain hchain

/-- The recent rows without the current message are those before it. -/
theorem uncovered_before {messages : List Message} {currentUser : Message} (hmessages : ∀ m ∈ messages, m ∈ s.messages)
    (huser : currentUser ∈ s.messages) :
    (messages.filter fun m => m.notAfter currentUser).filter (fun m => m.id ≠ currentUser.id) =
      messages.filter fun m => decide (m.place < currentUser.place) := by
  rw [List.filter_filter]
  refine List.filter_congr fun m hm => ?_
  rw [Bool.eq_iff_iff]
  simp only [Bool.and_eq_true, Message.notAfter, decide_eq_true_eq]
  constructor
  · rintro ⟨hne, hle⟩
    refine lt_of_le_of_ne hle fun hplace => hne ?_
    exact congrArg (fun place : ℤ ×ₗ String => (ofLex place).2) hplace
  · intro hlt
    refine ⟨fun hid => ?_, hlt.le⟩
    rw [s.messages.eq_of_key_eq (hmessages m hm) huser hid] at hlt
    exact lt_irrefl _ hlt

/-- The messages that a chain before a place covers are before it. -/
theorem Chain.covered_before {n : ℕ} {ys : List Summary} {first : List Message} (h : Chain n ys first)
    (hordered : first.Pairwise fun m m' => m.place < m'.place) {place : ℤ ×ₗ String}
    (hbefore : ∀ x ∈ ys, x.cover < place) : ∀ m ∈ first, m.place < place := by
  intro m hm
  rcases h.last with ⟨-, rfl⟩ | ⟨x, last, hx, -, hlast, hplace⟩
  · cases hm
  · have hlt := hbefore x (List.mem_of_getLast? hx)
    rw [← hplace] at hlt
    obtain ⟨before, rfl⟩ := List.getLast?_eq_some_iff.1 hlast
    rcases List.mem_append.1 hm with hm | hm
    · exact ((List.pairwise_append.1 hordered).2.2 m hm last List.mem_cons_self).trans hlt
    · rwa [List.mem_singleton.1 hm]

theorem afterCover_of_chain {n : ℕ} {ys : List Summary} {first rest : List Message} (h : Chain n ys first)
    (hordered : (first ++ rest).Pairwise fun m m' => m.place < m'.place) :
    Store.afterCover ys.getLast? (first ++ rest) = rest := by
  rcases h.last with ⟨hzero, rfl⟩ | ⟨x, m, hx, -, hm, hplace⟩
  · subst hzero
    obtain rfl := List.length_eq_zero_iff.1 h.length_eq
    exact List.filter_eq_self.2 fun _ _ => rfl
  · rw [hx]
    exact afterCover_append hordered hm hplace

/-- **A context of a sound store is faithful.** -/
theorem Sound.faithful (h : Sound limit s) {L : Locale} {p : Profile} {r : ContextRequest} {a : AssistantContext}
    (hbuild : buildAssistantContext L p s r = .ok (some a)) : Faithful p s r a := by
  obtain ⟨howner, currentUser, l, rows, huser, hl, hrows, hchecks, hrequired, hpinned, hsummary, rfl, hevidence, hrecent,
    hestimated⟩ := buildAssistantContext_ok hbuild
  obtain ⟨hsaid, hid, hrole⟩ := mem_currentUser huser
  obtain ⟨hhistorical, hpins⟩ := layers_ok hl
  obtain ⟨hpinnedTokens, hsummaryTokens, hhistoricalTokens, huserTokens, hevidenceTokens⟩ := layerChecks_ok hchecks
  obtain ⟨hsuffix, hfits, hwhole⟩ := trim_spec (min p.recentTurnsTokenBudget
    (p.contextLimitTokens - requiredTokens p l (s.summaryBefore r.conversationId a.currentUser) a.currentUser))
    (rows.filter fun m => m.id ≠ a.currentUser.id)
  rw [← hrecent] at hsuffix hfits hwhole
  have hle : recentTokens a.recent ≤ min p.recentTurnsTokenBudget
      (p.contextLimitTokens - requiredTokens p l (s.summaryBefore r.conversationId a.currentUser) a.currentUser) := by
    rw [recentTokens]
    split
    · exact Nat.zero_le _
    · next hne => simpa [fits, hne] using hfits
  rw [← hsummary] at hrequired hle hestimated hsummaryTokens
  refine ⟨howner, ⟨hsaid, hid, hrole⟩, ?_, hpinned.trans hpins, l, ?_⟩
  · obtain ⟨c, hc, -, hconversation⟩ := howner
    obtain ⟨covered, rest, hcovers⟩ := h.covers c hc
    rw [← hconversation] at hsaid hsummary hrows ⊢
    have hordered := h.said_ordered c.id
    rw [hcovers.said] at hordered
    obtain ⟨ys, zs, first, second, hsummaries, rfl, hchain, hbefore, hafter⟩ :=
      hcovers.chain.before (List.pairwise_append.1 hordered).1 a.currentUser.place
    rw [List.append_assoc] at hordered
    have hlast : a.summary = ys.getLast? := hsummary.trans (summaryBefore_eq hsummaries hchain hbefore hafter)
    have hsplit : s.said c.id = first ++ (second ++ rest) := by rw [hcovers.said, List.append_assoc]
    have hmem : ∀ m ∈ second ++ rest, m ∈ s.messages := by
      intro m hm
      refine (mem_said.1 (?_ : m ∈ s.said c.id)).1
      rw [hsplit]
      exact List.mem_append_right _ hm
    have huncovered : s.uncovered c.id (s.summaryBefore c.id a.currentUser) a.currentUser =
        (second ++ rest).filter fun m => m.notAfter a.currentUser := by
      rw [Store.uncovered, h.log, ← hsummary, hlast, hsplit, afterCover_of_chain hchain hordered]
    rw [huncovered] at hrows
    obtain ⟨rfl, -⟩ := recentRows_ok hrows
    rw [uncovered_before hmem (mem_said.1 hsaid).1] at hsuffix hwhole
    obtain ⟨dropped, hdropped⟩ := hsuffix
    refine ⟨ys, zs, first, dropped, hsummaries, hchain, hlast, hafter, ?_, ?_⟩
    · have hfirst := hchain.covered_before (List.pairwise_append.1 hordered).1 hbefore
      rw [hsplit, List.filter_append, List.filter_eq_self.2 (by simpa using hfirst), List.append_assoc, hdropped]
    · rcases hwhole with hall | hnone | huser
      · left
        rw [hall] at hdropped
        simpa using hdropped
      · exact .inr (.inl hnone)
      · exact .inr (.inr huser)
  · have hestimated' : a.estimatedTokens = requiredTokens p l a.summary a.currentUser + recentTokens a.recent := hestimated
    refine ⟨⟨hpinned.symm, hpinnedTokens⟩, ⟨hevidence.symm, hevidenceTokens⟩, ⟨hhistorical, hhistoricalTokens⟩,
      hsummaryTokens, huserTokens, hle.trans (min_le_left _ _), hestimated', ?_⟩
    have hroom := hle.trans (min_le_right _ _)
    omega

/-- **Every context that is built in a run is faithful.** -/
theorem context_faithful (L : Locale) (p : Profile) {actions : List MemoryAction}
    (hactions : Machine.Along (step L p) (Program.FlightAction.Meets fun w b => b.Orderly w.state) MemoryFlight.initial
      actions) {r : ContextRequest} {a : AssistantContext}
    (hbuild : buildAssistantContext L p (Machine.run (step L p) MemoryFlight.initial actions).world.state r = .ok (some a)) :
    Faithful p (Machine.run (step L p) MemoryFlight.initial actions).world.state r a :=
  (run_sound L p hactions).2.faithful hbuild

/-- The third message asks for a context when the first two are summarized. -/
def thirdRequest : ContextRequest := ⟨"owner", "conversation", "third", [], .ok 0⟩

def isBuilt : Except MemoryError (Option AssistantContext) → Bool
  | .ok (some _) => true
  | _ => false

theorem exists_of_isBuilt {x : Except MemoryError (Option AssistantContext)} (h : isBuilt x = true) :
    ∃ a, x = .ok (some a) := by
  cases x with
  | error e => cases h
  | ok a =>
    cases a with
    | none => cases h
    | some a => exact ⟨a, rfl⟩

theorem context_faithful_claimed :
    ∃ a, buildAssistantContext plainLocale shortProfile
        (Machine.run (step plainLocale shortProfile) MemoryFlight.initial (claimed ++ [.advance 6])).world.state thirdRequest =
          .ok (some a) ∧
      Faithful shortProfile
        (Machine.run (step plainLocale shortProfile) MemoryFlight.initial (claimed ++ [.advance 6])).world.state
          thirdRequest a := by
  obtain ⟨a, ha⟩ := exists_of_isBuilt (by decide +kernel : isBuilt (buildAssistantContext plainLocale shortProfile
    (Machine.run (step plainLocale shortProfile) MemoryFlight.initial (claimed ++ [.advance 6])).world.state thirdRequest) = true)
  exact ⟨a, ha, context_faithful plainLocale shortProfile (by decide +kernel) ha⟩

end Xauusd.Memory
