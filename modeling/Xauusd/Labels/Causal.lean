/-
  When an executable label describes one causal trade.

  The label takes the entry, the exit and the checkpoints first in the order
  of receipt, and the returns last of the path: of the quotes received at one
  instant, the first and the last in the order of their event times.

  * `First`, `LastAt`: the quotes selected, in terms of the quotes given;
  * `find?_first`, `getLast?_lastAt`: what the sorted rows yield;
  * `Describes`: what a label says about the quotes, `Causal`: that it says so
    and depends on nothing else;
  * `TieFree`: quotes that tie for a selection have the same prices;
  * `causal_iff`: a label is causal iff it is not valid or free of ties.
-/
import Xauusd.Labels.ExecutableLabel

namespace Xauusd.Labels

variable {K : Type} [Field K] [LinearOrder K] {r : LabelRequest K} {log : K → K}
  {quotes quotes' : List (MarketObservation K)} {e x c q y : MarketObservation K} {p : ℤ → Bool}
  {t minutes : ℤ}

/-! ## Selections -/

/-- A quote received first among those that `p` admits, the event times
    breaking ties. -/
def First (p : ℤ → Bool) (quotes : List (MarketObservation K)) (q : MarketObservation K) : Prop :=
  q ∈ quotes ∧ p q.receivedTime = true ∧ ∀ q' ∈ quotes, p q'.receivedTime = true → q.key ≤ q'.key

/-- A quote received at `t`, of the latest event time. -/
def LastAt (t : ℤ) (quotes : List (MarketObservation K)) (q : MarketObservation K) : Prop :=
  q ∈ quotes ∧ q.receivedTime = t ∧ ∀ q' ∈ quotes, q'.receivedTime = t → q'.eventTime ≤ q.eventTime

def SamePrices (a b : MarketObservation K) : Prop := a.bid = b.bid ∧ a.ask = b.ask

theorem key_le_iff {a b : MarketObservation K} : a.key ≤ b.key ↔
    a.receivedTime < b.receivedTime ∨
      a.receivedTime = b.receivedTime ∧ a.eventTime ≤ b.eventTime :=
  Prod.Lex.toLex_le_toLex

theorem key_eq_iff {a b : MarketObservation K} : a.key = b.key ↔
    a.receivedTime = b.receivedTime ∧ a.eventTime = b.eventTime := by
  simp [MarketObservation.key, Prod.ext_iff]

theorem receivedTime_le {a b : MarketObservation K} (h : a.key ≤ b.key) :
    a.receivedTime ≤ b.receivedTime := by
  rcases key_le_iff.1 h with h | ⟨h, -⟩
  · exact h.le
  · exact h.le

theorem eq_of_key {a b : MarketObservation K} (h : a.key = b.key) (hp : SamePrices a b) : a = b := by
  obtain ⟨hr, he⟩ := key_eq_iff.1 h
  obtain ⟨hb, ha⟩ := hp
  cases a; cases b
  simp only at hr he hb ha
  subst hr he hb ha
  rfl

theorem SamePrices.symm {a b : MarketObservation K} (h : SamePrices a b) : SamePrices b a :=
  ⟨h.1.symm, h.2.symm⟩

theorem SamePrices.trans {a b d : MarketObservation K} (h : SamePrices a b) (h' : SamePrices b d) :
    SamePrices a d :=
  ⟨h.1.trans h'.1, h.2.trans h'.2⟩

theorem First.key_unique {q' : MarketObservation K} (h : First p quotes q) (h' : First p quotes q') :
    q.key = q'.key :=
  le_antisymm (h.2.2 q' h'.1 h'.2.1) (h'.2.2 q h.1 h.2.1)

/-! ## What the sorted rows yield -/

/-- The quotes sorted by receipt. -/
def rows (quotes : List (MarketObservation K)) : List (MarketObservation K) :=
  Stable.sortBy MarketObservation.key quotes

theorem mem_rows : q ∈ rows quotes ↔ q ∈ quotes := Stable.mem_sortBy

theorem rows_perm (quotes : List (MarketObservation K)) : (rows quotes).Perm quotes :=
  Stable.sortBy_perm _ quotes

theorem mem_upTo : q ∈ upTo e t (rows quotes) ↔
    q ∈ quotes ∧ e.receivedTime ≤ q.receivedTime ∧ q.receivedTime ≤ t := by
  simp [upTo, mem_rows]

theorem find?_rows_iff : (rows quotes).find? (fun q => p q.receivedTime) = some q ↔
    (quotes.filter fun b => b.key = q.key).head? = some q ∧ p q.receivedTime = true ∧
      ∀ b ∈ quotes, p b.receivedTime = true → q.key ≤ b.key :=
  @Stable.find?_sortBy_iff _ _ _ MarketObservation.key quotes q fun k => p (ofLex k).1

theorem getLast?_rows_iff : ((rows quotes).filter fun q => p q.receivedTime).getLast? = some q ↔
    (quotes.filter fun b => b.key = q.key).getLast? = some q ∧ p q.receivedTime = true ∧
      ∀ b ∈ quotes, p b.receivedTime = true → b.key ≤ q.key :=
  @Stable.getLast?_sortBy_iff _ _ _ MarketObservation.key quotes q fun k => p (ofLex k).1

/-- The instants from the entry's on, up to another. -/
def within (e : MarketObservation K) (t s : ℤ) : Bool := decide (e.receivedTime ≤ s ∧ s ≤ t)

/-- What is found first in the rows. -/
theorem find?_first (h : (rows quotes).find? (fun q => p q.receivedTime) = some q) :
    First p quotes q := by
  obtain ⟨hhead, hp, hleast⟩ := find?_rows_iff.1 h
  exact ⟨(List.mem_filter.1 (List.mem_of_head? hhead)).1, hp, hleast⟩

/-- A quote that no other ties with is found. -/
theorem First.find? (h : First p quotes q) (hties : ∀ q' ∈ quotes, q'.key = q.key → q' = q) :
    (rows quotes).find? (fun q => p q.receivedTime) = some q := by
  refine find?_rows_iff.2 ⟨?_, h.2.1, h.2.2⟩
  have hmem : q ∈ quotes.filter fun b => b.key = q.key :=
    List.mem_filter.2 ⟨h.1, decide_eq_true rfl⟩
  obtain ⟨b, hb⟩ := Option.isSome_iff_exists.1 (List.isSome_head?.2 (List.ne_nil_of_mem hmem))
  have hin := List.mem_filter.1 (List.mem_of_head? hb)
  rw [hb, hties b hin.1 (of_decide_eq_true hin.2)]

/-- The last quote of the rows up to an instant at which a quote is received. -/
theorem getLast?_lastAt (hq : q ∈ quotes) (he : e.receivedTime ≤ q.receivedTime) :
    ∃ y, (upTo e q.receivedTime (rows quotes)).getLast? = some y ∧
      LastAt q.receivedTime quotes y := by
  have hmem : q ∈ upTo e q.receivedTime (rows quotes) := mem_upTo.2 ⟨hq, he, le_rfl⟩
  obtain ⟨y, hy⟩ : ∃ y, (upTo e q.receivedTime (rows quotes)).getLast? = some y :=
    ⟨_, List.getLast?_eq_some_getLast (List.ne_nil_of_mem hmem)⟩
  obtain ⟨hin, -, hbefore⟩ := mem_upTo.1 (List.mem_of_getLast? hy)
  obtain ⟨-, -, hgreatest⟩ := (getLast?_rows_iff (p := within e q.receivedTime)).1 hy
  have hafter := receivedTime_le (hgreatest q hq (decide_eq_true ⟨he, le_rfl⟩))
  have hat : y.receivedTime = q.receivedTime := le_antisymm hbefore hafter
  refine ⟨y, hy, hin, hat, fun q' hq' ht => ?_⟩
  rcases key_le_iff.1 (hgreatest q' hq' (decide_eq_true ⟨by omega, by omega⟩)) with h | ⟨-, h⟩
  · omega
  · exact h

/-- Of quotes that end with a last one of an instant, it is the last. -/
theorem LastAt.getLast? (h : LastAt t (quotes ++ [y]) y) (he : e.receivedTime ≤ t) :
    (upTo e t (rows (quotes ++ [y]))).getLast? = some y := by
  obtain ⟨-, hat, hlast⟩ := h
  refine (getLast?_rows_iff (p := within e t)).2 ⟨?_, ?_, ?_⟩
  · simp [List.filter_append]
  · exact decide_eq_true ⟨hat ▸ he, hat.le⟩
  · intro q hq hp
    have hbefore := (of_decide_eq_true hp).2
    rcases hbefore.lt_or_eq with h | h
    · exact key_le_iff.2 (.inl (lt_of_lt_of_eq h hat.symm))
    · exact key_le_iff.2 (.inr ⟨h.trans hat.symm, hlast q hq h⟩)

/-! ## Values along a path -/

theorem lastOf_longPath {path : List (MarketObservation K)} (h : path.getLast? = some y) :
    lastOf (longPath log e path) = logRatio log y.bid e.ask := by
  simp [lastOf, longPath, h]

theorem lastOf_shortPath {path : List (MarketObservation K)} (h : path.getLast? = some y) :
    lastOf (shortPath log e path) = logRatio log e.bid y.ask := by
  simp [lastOf, shortPath, h]

theorem maxOf_isGreatest {values : List K} (h : values ≠ []) :
    IsGreatest {v | v ∈ values} (maxOf values) := by
  obtain ⟨v, hv⟩ := Option.isSome_iff_exists.1 (List.isSome_max?_iff.2 h)
  rw [maxOf, hv]
  obtain ⟨hmem, hle⟩ := List.max?_eq_some_iff.1 hv
  exact ⟨hmem, hle⟩

theorem minOf_isLeast {values : List K} (h : values ≠ []) :
    IsLeast {v | v ∈ values} (minOf values) := by
  obtain ⟨v, hv⟩ := Option.isSome_iff_exists.1 (List.isSome_min?_iff.2 h)
  rw [minOf, hv]
  obtain ⟨hmem, hle⟩ := List.min?_eq_some_iff.1 hv
  exact ⟨hmem, hle⟩

theorem maxOf_perm {values values' : List K} (h : values.Perm values') :
    maxOf values = maxOf values' := by
  by_cases hne : values = []
  · subst hne
    rw [h.nil_eq]
  · have hne' : values' ≠ [] := fun h' => hne (h' ▸ h).eq_nil
    have hsame : {v | v ∈ values} = {v | v ∈ values'} := Set.ext fun _ => h.mem_iff
    exact (maxOf_isGreatest hne).unique (hsame ▸ maxOf_isGreatest hne')

theorem minOf_perm {values values' : List K} (h : values.Perm values') :
    minOf values = minOf values' := by
  by_cases hne : values = []
  · subst hne
    rw [h.nil_eq]
  · have hne' : values' ≠ [] := fun h' => hne (h' ▸ h).eq_nil
    have hsame : {v | v ∈ values} = {v | v ∈ values'} := Set.ext fun _ => h.mem_iff
    exact (minOf_isLeast hne).unique (hsame ▸ minOf_isLeast hne')

/-! ## The trade of a valid label -/

/-- The target of the exit. -/
def LabelRequest.reached (r : LabelRequest K) (e : MarketObservation K) (s : ℤ) : Bool :=
  decide (r.target e ≤ s)

/-- The target of a checkpoint. -/
def passed (e : MarketObservation K) (minutes s : ℤ) : Bool :=
  decide (e.receivedTime + minutes * IsoTime.minute ≤ s)

/-- The entry and the exit that a build selects and finds in order. -/
structure Selected (r : LabelRequest K) (quotes : List (MarketObservation K))
    (e x : MarketObservation K) : Prop where
  entry : (rows quotes).find? (fun q => r.candidate q.receivedTime) = some e
  entryAhead : r.clockAhead e = false
  entryStale : r.stale e = false
  exit : (rows quotes).find? (fun q => r.reached e q.receivedTime) = some x
  exitAhead : r.clockAhead x = false
  exitStale : r.stale x = false

/-- A valid label is that of a trade. -/
theorem selected_of_valid (h : (buildExecutableLabelV2 r log quotes).outcomeStatus = "VALID") :
    ∃ e x, Selected r quotes e x := by
  unfold buildExecutableLabelV2 at h
  dsimp only at h
  split at h
  · simp [invalid] at h
  · next e he =>
    split at h
    · simp [invalid] at h
    · next hahead =>
      split at h
      · simp [invalid] at h
      · next hstale =>
        split at h
        · simp [invalid] at h
        · next x hx =>
          split at h
          · simp [invalid] at h
          · next hxahead =>
            split at h
            · simp [invalid] at h
            · next hxstale =>
              exact ⟨e, x, he, by simpa using hahead, by simpa using hstale, hx,
                by simpa using hxahead, by simpa using hxstale⟩

namespace Selected

variable (h : Selected r quotes e x)
include h

theorem first_entry : First r.candidate quotes e := find?_first h.entry

theorem first_exit : First (r.reached e) quotes x := find?_first h.exit

theorem entry_after : r.decisionTime < e.receivedTime :=
  (of_decide_eq_true (find?_first h.entry).2.1).1

theorem target_le : r.target e ≤ x.receivedTime := of_decide_eq_true h.first_exit.2.1

variable (hhold : 25 ≤ r.holdMinutes)
include hhold

theorem hold_le : e.receivedTime + 25 * IsoTime.minute ≤ x.receivedTime := by
  have := h.target_le
  simp only [LabelRequest.target, IsoTime.minute, IsoTime.second] at this ⊢
  omega

theorem entry_le : e.receivedTime ≤ x.receivedTime := by
  have := h.hold_le hhold
  simp only [IsoTime.minute, IsoTime.second] at this
  omega

theorem path_ne_nil : upTo e x.receivedTime (rows quotes) ≠ [] :=
  List.ne_nil_of_mem (mem_upTo.2 ⟨h.first_entry.1, le_rfl, h.entry_le hhold⟩)

variable (log) in
/-- The label of a trade is made along the path between its quotes. -/
theorem build : buildExecutableLabelV2 r log quotes =
    validLabel r log e x (upTo e x.receivedTime (rows quotes)) := by
  have hentry : (Stable.sortBy MarketObservation.key quotes).find?
      (fun q => r.candidate q.receivedTime) = some e := h.entry
  have hexit : (Stable.sortBy MarketObservation.key quotes).find?
      (fun q => r.target e ≤ q.receivedTime) = some x := h.exit
  unfold buildExecutableLabelV2
  simp only [hentry, hexit, h.entryAhead, h.entryStale, h.exitAhead, h.exitStale,
    Bool.false_eq_true, if_false]
  split
  · next hnil => exact absurd hnil (h.path_ne_nil hhold)
  · rfl

variable (log) in
/-- A checkpoint no later than the exit's target finds its quote on the path. -/
theorem checkpoint (hm : minutes ≤ 25) (hm0 : 0 ≤ minutes) :
    ∃ c, First (passed e minutes) quotes c ∧ e.receivedTime ≤ c.receivedTime ∧
      c.receivedTime ≤ x.receivedTime ∧
      checkpointAt log e (upTo e x.receivedTime (rows quotes)) minutes =
        some (checkpointOf log e minutes c.receivedTime (upTo e c.receivedTime (rows quotes))) := by
  have hpassed : passed e minutes x.receivedTime = true := by
    have := h.hold_le hhold
    refine decide_eq_true ?_
    simp only [IsoTime.minute, IsoTime.second] at this ⊢
    omega
  obtain ⟨c, hc⟩ : ∃ c, (rows quotes).find? (fun q => passed e minutes q.receivedTime) = some c :=
    Option.isSome_iff_exists.1 (List.find?_isSome.2 ⟨x, mem_rows.2 h.first_exit.1, hpassed⟩)
  have hfirst := find?_first hc
  have hbefore := receivedTime_le (hfirst.2.2 x h.first_exit.1 hpassed)
  have hafter : e.receivedTime ≤ c.receivedTime := by
    have := of_decide_eq_true hfirst.2.1
    simp only [IsoTime.minute, IsoTime.second] at this
    omega
  refine ⟨c, hfirst, hafter, hbefore, ?_⟩
  have hpath : (upTo e x.receivedTime (rows quotes)).find?
      (fun q => e.receivedTime + minutes * IsoTime.minute ≤ q.receivedTime) = some c := by
    rw [upTo, List.find?_filter]
    obtain ⟨hp, before, after, hsplit, hnot⟩ := List.find?_eq_some_iff_append.1 hc
    refine List.find?_eq_some_iff_append.2 ⟨?_, before, after, hsplit, fun q hq => ?_⟩
    · simpa [hafter, hbefore] using of_decide_eq_true hp
    · have := hnot q hq
      simp only [passed, Bool.not_eq_true', decide_eq_false_iff_not] at this
      simp [this]
  have hvisible : upTo e c.receivedTime (upTo e x.receivedTime (rows quotes)) =
      upTo e c.receivedTime (rows quotes) := by
    rw [upTo, upTo, List.filter_filter]
    refine List.filter_congr fun q _ => ?_
    by_cases hq : e.receivedTime ≤ q.receivedTime ∧ q.receivedTime ≤ c.receivedTime
    · simp [hq, hq.2.trans hbefore]
    · simp [hq]
  rw [checkpointAt, hpath, Option.map_some, hvisible]

end Selected

/-! ## What a label says -/

/-- The log returns of the quotes received from the entry up to an instant. -/
def longReturns (log : K → K) (quotes : List (MarketObservation K)) (e : MarketObservation K)
    (t : ℤ) : Set K :=
  {v | ∃ q ∈ quotes, e.receivedTime ≤ q.receivedTime ∧ q.receivedTime ≤ t ∧
    v = logRatio log q.bid e.ask}

def shortReturns (log : K → K) (quotes : List (MarketObservation K)) (e : MarketObservation K)
    (t : ℤ) : Set K :=
  {v | ∃ q ∈ quotes, e.receivedTime ≤ q.receivedTime ∧ q.receivedTime ≤ t ∧
    v = logRatio log e.bid q.ask}

/-- A checkpoint whose returns are those of the quote `c` and whose excursions
    are the extremes up to it. -/
structure Checkpoint.Describes (log : K → K) (quotes : List (MarketObservation K))
    (e c : MarketObservation K) (k : Checkpoint K) : Prop where
  received : k.receivedTime = c.receivedTime
  longReturn : k.longReturn = logRatio log c.bid e.ask
  shortReturn : k.shortReturn = logRatio log e.bid c.ask
  longMfe : IsGreatest (longReturns log quotes e c.receivedTime) k.longMfe
  longMae : IsLeast (longReturns log quotes e c.receivedTime) k.longMae
  shortMfe : IsGreatest (shortReturns log quotes e c.receivedTime) k.shortMfe
  shortMae : IsLeast (shortReturns log quotes e c.receivedTime) k.shortMae

/-- A label that describes the trade from the quote `e` to the quote `x`. -/
structure ExecutableLabelV2.Describes (log : K → K) (quotes : List (MarketObservation K))
    (e x : MarketObservation K) (label : ExecutableLabelV2 K) : Prop where
  entry : label.entryReceivedTime = some e.receivedTime ∧ label.entryEventTime = some e.eventTime
  exit : label.exitReceivedTime = some x.receivedTime ∧ label.exitEventTime = some x.eventTime
  longReturn : label.longQuoteReturn = some (logRatio log x.bid e.ask)
  shortReturn : label.shortQuoteReturn = some (logRatio log e.bid x.ask)
  long : ∃ mae mfe, label.longMae = some mae ∧ label.longMfe = some mfe ∧
    ∀ v ∈ label.longQuoteReturn, mae ≤ v ∧ v ≤ mfe
  short : ∃ mae mfe, label.shortMae = some mae ∧ label.shortMfe = some mfe ∧
    ∀ v ∈ label.shortQuoteReturn, mae ≤ v ∧ v ≤ mfe
  minutes : label.checkpointPath.map (·.minutes) = CHECKPOINT_MINUTES
  checkpoints : ∀ k ∈ label.checkpointPath, ∀ c, First (passed e k.minutes) quotes c →
    k.Describes log quotes e c

/-- The quotes received after the decision, up to the exit of a label. -/
def LabelRequest.span (r : LabelRequest K) (label : ExecutableLabelV2 K)
    (quotes : List (MarketObservation K)) : List (MarketObservation K) :=
  quotes.filter fun q => decide (r.decisionTime < q.receivedTime) &&
    label.exitReceivedTime.any fun t => q.receivedTime ≤ t

/-- The label of some quotes describes one causal trade: it does not depend on
    their order; and if it is valid, it describes the trade between an entry
    and an exit received first, whichever these are, and no quote received at
    or before the decision or after the exit has a part in it. -/
def Causal (r : LabelRequest K) (log : K → K) (quotes : List (MarketObservation K)) : Prop :=
  (∀ quotes', quotes'.Perm quotes →
    buildExecutableLabelV2 r log quotes' = buildExecutableLabelV2 r log quotes) ∧
  ((buildExecutableLabelV2 r log quotes).outcomeStatus = "VALID" →
    (∃ e x, First r.candidate quotes e ∧ First (r.reached e) quotes x) ∧
    (∀ e x, First r.candidate quotes e → First (r.reached e) quotes x →
      (buildExecutableLabelV2 r log quotes).Describes log quotes e x) ∧
    ∀ quotes', (r.span (buildExecutableLabelV2 r log quotes) quotes').Perm
        (r.span (buildExecutableLabelV2 r log quotes) quotes) →
      buildExecutableLabelV2 r log quotes' = buildExecutableLabelV2 r log quotes)

/-- The quotes that tie for the entry have the same prices, and so have those
    that are first and last at the instant of the exit and of a checkpoint. -/
def TieFree (r : LabelRequest K) (quotes : List (MarketObservation K)) : Prop :=
  ∀ e x, First r.candidate quotes e → First (r.reached e) quotes x →
    (∀ e', First r.candidate quotes e' → SamePrices e' e) ∧
    (∀ y, LastAt x.receivedTime quotes y → SamePrices y x) ∧
    ∀ m ∈ CHECKPOINT_MINUTES, ∀ c, First (passed e m) quotes c →
      ∀ y, LastAt c.receivedTime quotes y → SamePrices y c

/-! ## Without ties -/

theorem minutes_mem (h : minutes ∈ CHECKPOINT_MINUTES) : 0 ≤ minutes ∧ minutes ≤ 25 := by
  simp only [CHECKPOINT_MINUTES, List.mem_cons, List.not_mem_nil, or_false] at h
  omega

theorem map_filterMap_of_some {α β : Type} {f : α → Option β} {g : β → α} :
    ∀ {l : List α}, (∀ a ∈ l, ∃ b, f a = some b ∧ g b = a) → (l.filterMap f).map g = l
  | [], _ => rfl
  | a :: l, h => by
    obtain ⟨b, hb, hg⟩ := h a (by simp)
    rw [List.filterMap_cons_some hb, List.map_cons, hg,
      map_filterMap_of_some fun a ha => h a (List.mem_cons_of_mem _ ha)]

theorem First.of_key (h : First p quotes q) (hy : y ∈ quotes) (hkey : y.key = q.key) :
    First p quotes y :=
  ⟨hy, (key_eq_iff.1 hkey).1 ▸ h.2.1, fun q' hq' hp => hkey ▸ h.2.2 q' hq' hp⟩

/-- Quotes that tie for a selection are one quote, when they have the prices of
    those that are last at its instant. -/
theorem First.unique (h : First p quotes q)
    (hlast : ∀ q', First p quotes q' → ∀ y, LastAt q'.receivedTime quotes y → SamePrices y q') :
    ∀ q' ∈ quotes, q'.key = q.key → q' = q := by
  intro q' hq' hkey
  have hfirst := h.of_key hq' hkey
  obtain ⟨y, -, hy⟩ := getLast?_lastAt (e := q) h.1 le_rfl
  have hat := (key_eq_iff.1 hkey).1
  exact eq_of_key hkey ((hlast q' hfirst y (hat.symm ▸ hy)).symm.trans (hlast q h y hy))

/-- Quotes that agree on what is received after the decision, up to the exit. -/
def Alike (r : LabelRequest K) (t : ℤ) (quotes quotes' : List (MarketObservation K)) : Prop :=
  ∀ q : MarketObservation K, r.decisionTime < q.receivedTime → q.receivedTime ≤ t →
    (q ∈ quotes' ↔ q ∈ quotes)

theorem First.alike (h : First p quotes c) (ha : Alike r t quotes quotes')
    (hp : ∀ s, p s = true → r.decisionTime < s) (hc : c.receivedTime ≤ t) : First p quotes' c := by
  refine ⟨(ha c (hp _ h.2.1) hc).2 h.1, h.2.1, fun q hq hpq => ?_⟩
  rcases le_or_gt q.receivedTime t with hle | hgt
  · exact h.2.2 q ((ha q (hp _ hpq) hle).1 hq) hpq
  · exact key_le_iff.2 (.inl (hc.trans_lt hgt))

theorem LastAt.alike {s : ℤ} (h : LastAt s quotes y) (ha : Alike r t quotes quotes')
    (hs : r.decisionTime < s) (hst : s ≤ t) : LastAt s quotes' y := by
  obtain ⟨hy, hat, hlast⟩ := h
  refine ⟨(ha y (by omega) (by omega)).2 hy, hat, fun q hq hqs => ?_⟩
  exact hlast q ((ha q (by omega) (by omega)).1 hq) hqs

theorem Alike.symm (ha : Alike r t quotes quotes') : Alike r t quotes' quotes :=
  fun q hafter hbefore => (ha q hafter hbefore).symm

variable (log) in
/-- The returns of the path up to an instant are those of a quote received
    then, if the last ones then have its prices. -/
theorem returns_at (hc : c ∈ quotes) (he : e.receivedTime ≤ c.receivedTime)
    (hlast : ∀ y, LastAt c.receivedTime quotes y → SamePrices y c) :
    lastOf (longPath log e (upTo e c.receivedTime (rows quotes))) = logRatio log c.bid e.ask ∧
      lastOf (shortPath log e (upTo e c.receivedTime (rows quotes))) =
        logRatio log e.bid c.ask := by
  obtain ⟨y, hy, hyc⟩ := getLast?_lastAt hc he
  obtain ⟨hbid, hask⟩ := hlast y hyc
  rw [lastOf_longPath hy, lastOf_shortPath hy, hbid, hask]
  exact ⟨rfl, rfl⟩

theorem mem_longPath (t : ℤ) : {v | v ∈ longPath log e (upTo e t (rows quotes))} =
    longReturns log quotes e t := by
  ext v
  simp only [longPath, List.mem_map, mem_upTo, longReturns, Set.mem_ofPred_eq]
  constructor
  · rintro ⟨q, ⟨hq, hafter, hbefore⟩, rfl⟩
    exact ⟨q, hq, hafter, hbefore, rfl⟩
  · rintro ⟨q, hq, hafter, hbefore, rfl⟩
    exact ⟨q, ⟨hq, hafter, hbefore⟩, rfl⟩

theorem mem_shortPath (t : ℤ) : {v | v ∈ shortPath log e (upTo e t (rows quotes))} =
    shortReturns log quotes e t := by
  ext v
  simp only [shortPath, List.mem_map, mem_upTo, shortReturns, Set.mem_ofPred_eq]
  constructor
  · rintro ⟨q, ⟨hq, hafter, hbefore⟩, rfl⟩
    exact ⟨q, hq, hafter, hbefore, rfl⟩
  · rintro ⟨q, hq, hafter, hbefore, rfl⟩
    exact ⟨q, ⟨hq, hafter, hbefore⟩, rfl⟩

variable (log) in
/-- The excursions of the path up to an instant. -/
theorem excursions (hne : upTo e t (rows quotes) ≠ []) :
    IsGreatest (longReturns log quotes e t) (maxOf (longPath log e (upTo e t (rows quotes)))) ∧
      IsLeast (longReturns log quotes e t) (minOf (longPath log e (upTo e t (rows quotes)))) ∧
      IsGreatest (shortReturns log quotes e t) (maxOf (shortPath log e (upTo e t (rows quotes)))) ∧
      IsLeast (shortReturns log quotes e t)
        (minOf (shortPath log e (upTo e t (rows quotes)))) := by
  have hlong : longPath log e (upTo e t (rows quotes)) ≠ [] := by simpa [longPath] using hne
  have hshort : shortPath log e (upTo e t (rows quotes)) ≠ [] := by simpa [shortPath] using hne
  rw [← mem_longPath, ← mem_shortPath]
  exact ⟨maxOf_isGreatest hlong, minOf_isLeast hlong, maxOf_isGreatest hshort,
    minOf_isLeast hshort⟩

namespace Selected

variable (h : Selected r quotes e x) (htie : TieFree r quotes)
include h htie

theorem entry_unique : ∀ q ∈ quotes, q.key = e.key → q = e := fun q hq hkey =>
  eq_of_key hkey ((htie e x h.first_entry h.first_exit).1 q (h.first_entry.of_key hq hkey))

theorem exit_unique : ∀ q ∈ quotes, q.key = x.key → q = x :=
  h.first_exit.unique fun q hq => (htie e q h.first_entry hq).2.1

theorem checkpoint_last (hm : minutes ∈ CHECKPOINT_MINUTES) (hc : First (passed e minutes) quotes c) :
    ∀ y, LastAt c.receivedTime quotes y → SamePrices y c :=
  (htie e x h.first_entry h.first_exit).2.2 minutes hm c hc

variable (hhold : 25 ≤ r.holdMinutes)
include hhold

omit hhold in
/-- Without ties, a checkpoint describes its quote. -/
theorem checkpoint_describes (hm : minutes ∈ CHECKPOINT_MINUTES)
    (hc : First (passed e minutes) quotes c) (he : e.receivedTime ≤ c.receivedTime) :
    (checkpointOf log e minutes c.receivedTime (upTo e c.receivedTime (rows quotes))).Describes
      log quotes e c := by
  have hne : upTo e c.receivedTime (rows quotes) ≠ [] :=
    List.ne_nil_of_mem (mem_upTo.2 ⟨hc.1, he, le_rfl⟩)
  obtain ⟨hlong, hshort⟩ := returns_at log hc.1 he (h.checkpoint_last htie hm hc)
  obtain ⟨hlmfe, hlmae, hsmfe, hsmae⟩ := excursions log hne
  exact ⟨rfl, hlong, hshort, hlmfe, hlmae, hsmfe, hsmae⟩

/-- Without ties, a label describes its trade. -/
theorem describes : (validLabel r log e x (upTo e x.receivedTime (rows quotes))).Describes log
    quotes e x := by
  have hreturns := returns_at log h.first_exit.1 (h.entry_le hhold)
    (htie e x h.first_entry h.first_exit).2.1
  obtain ⟨hlmfe, hlmae, hsmfe, hsmae⟩ := excursions log (h.path_ne_nil hhold)
  have hlong : logRatio log x.bid e.ask ∈ longReturns log quotes e x.receivedTime :=
    ⟨x, h.first_exit.1, h.entry_le hhold, le_rfl, rfl⟩
  have hshort : logRatio log e.bid x.ask ∈ shortReturns log quotes e x.receivedTime :=
    ⟨x, h.first_exit.1, h.entry_le hhold, le_rfl, rfl⟩
  constructor
  · exact ⟨rfl, rfl⟩
  · exact ⟨rfl, rfl⟩
  · exact congrArg some hreturns.1
  · exact congrArg some hreturns.2
  · refine ⟨_, _, rfl, rfl, fun v hv => ?_⟩
    obtain rfl : lastOf (longPath log e (upTo e x.receivedTime (rows quotes))) = v :=
      Option.some.inj hv
    rw [hreturns.1]
    exact ⟨hlmae.2 hlong, hlmfe.2 hlong⟩
  · refine ⟨_, _, rfl, rfl, fun v hv => ?_⟩
    obtain rfl : lastOf (shortPath log e (upTo e x.receivedTime (rows quotes))) = v :=
      Option.some.inj hv
    rw [hreturns.2]
    exact ⟨hsmae.2 hshort, hsmfe.2 hshort⟩
  · refine map_filterMap_of_some fun m hm => ?_
    obtain ⟨c, -, -, -, hk⟩ := h.checkpoint log hhold (minutes_mem hm).2 (minutes_mem hm).1
    exact ⟨_, hk, rfl⟩
  · intro k hk c hc
    obtain ⟨m, hm, hkm⟩ := List.mem_filterMap.1 hk
    obtain ⟨c', hc', hafter, -, hk'⟩ :=
      h.checkpoint log hhold (minutes_mem hm).2 (minutes_mem hm).1
    obtain rfl := Option.some.inj (hk'.symm.trans hkm)
    have hat : c'.receivedTime = c.receivedTime := (key_eq_iff.1 (hc'.key_unique hc)).1
    rw [hat] at hafter ⊢
    exact h.checkpoint_describes htie hm hc hafter

end Selected

/-! ## Quotes that are alike -/

omit [LinearOrder K] in
theorem LabelRequest.candidate_after {s : ℤ} (h : r.candidate s = true) : r.decisionTime < s :=
  (of_decide_eq_true h).1

theorem passed_after {s : ℤ} (he : r.decisionTime < e.receivedTime) (hm : 0 ≤ minutes)
    (h : passed e minutes s = true) : r.decisionTime < s := by
  have := of_decide_eq_true h
  simp only [IsoTime.minute, IsoTime.second] at this
  omega

theorem reached_after {s : ℤ} (he : r.decisionTime < e.receivedTime) (hhold : 25 ≤ r.holdMinutes)
    (h : r.reached e s = true) : r.decisionTime < s := by
  have hm : 0 ≤ r.holdMinutes := by omega
  exact passed_after he hm h

namespace Selected

variable (h : Selected r quotes e x) (htie : TieFree r quotes) (hhold : 25 ≤ r.holdMinutes)
  (ha : Alike r x.receivedTime quotes quotes')
include h htie hhold ha

/-- Quotes that are alike yield the same trade. -/
theorem alike : Selected r quotes' e x := by
  have hafter := h.entry_after
  have hexit : r.decisionTime < x.receivedTime := by
    have := h.hold_le hhold
    simp only [IsoTime.minute, IsoTime.second] at this
    omega
  have hentry := h.first_entry.alike ha (fun _ => LabelRequest.candidate_after) (h.entry_le hhold)
  have hfirst := h.first_exit.alike ha (fun _ => reached_after hafter hhold) le_rfl
  refine ⟨hentry.find? fun q hq hkey => ?_, h.entryAhead, h.entryStale,
    hfirst.find? fun q hq hkey => ?_, h.exitAhead, h.exitStale⟩
  · have hat := (key_eq_iff.1 hkey).1
    have hle := h.entry_le hhold
    exact h.entry_unique htie q ((ha q (by omega) (by omega)).1 hq) hkey
  · have hat := (key_eq_iff.1 hkey).1
    exact h.exit_unique htie q ((ha q (by omega) (by omega)).1 hq) hkey

/-- They are as free of ties. -/
theorem tieFree_alike : TieFree r quotes' := by
  have h' := h.alike htie hhold ha
  have hafter := h.entry_after
  have hle := h.entry_le hhold
  intro e' x' he' hx'
  have hmem (q : MarketObservation K) (hq : q ∈ quotes') (hkey : q.key = e.key ∨ q.key = x.key) :
      q ∈ quotes := by
    rcases hkey with hkey | hkey <;>
      exact (ha q (by have := (key_eq_iff.1 hkey).1; omega)
        (by have := (key_eq_iff.1 hkey).1; omega)).1 hq
  have hekey := he'.key_unique h'.first_entry
  obtain rfl := h.entry_unique htie e' (hmem e' he'.1 (.inl hekey)) hekey
  have hxkey := hx'.key_unique h'.first_exit
  obtain rfl := h.exit_unique htie x' (hmem x' hx'.1 (.inr hxkey)) hxkey
  obtain ⟨hties, hexit, hcheck⟩ := htie e' x' h.first_entry h.first_exit
  refine ⟨fun q hq => ?_, fun y hy => ?_, fun m hm c hc y hy => ?_⟩
  · have hkey := hq.key_unique h'.first_entry
    exact hties q (h.first_entry.of_key (hmem q hq.1 (.inl hkey)) hkey)
  · exact hexit y (hy.alike ha.symm (by omega) le_rfl)
  · have hm := minutes_mem hm
    have hpassed := passed_after hafter hm.1 hc.2.1
    have hbefore : c.receivedTime ≤ x'.receivedTime := by
      obtain ⟨c', hc', -, hbefore, -⟩ := h'.checkpoint (fun v => v) hhold hm.2 hm.1
      rw [(key_eq_iff.1 (hc.key_unique hc')).1]
      exact hbefore
    have hc := hc.alike ha.symm (fun _ => passed_after hafter hm.1) hbefore
    exact hcheck m ‹_› c hc y (hy.alike ha.symm hpassed hbefore)

/-- With the same path up to its order, they have the same label. -/
theorem label_alike
    (hperm : ∀ t ≤ x.receivedTime, (upTo e t (rows quotes')).Perm (upTo e t (rows quotes))) :
    validLabel r log e x (upTo e x.receivedTime (rows quotes')) =
      validLabel r log e x (upTo e x.receivedTime (rows quotes)) := by
  have h' := h.alike htie hhold ha
  have htie' := h.tieFree_alike htie hhold ha
  have hpath := hperm x.receivedTime le_rfl
  have hkeys := Stable.map_key_eq ((Stable.sortBy_sorted _ quotes').filter _)
    ((Stable.sortBy_sorted _ quotes).filter _) hpath
  have hreceived : (upTo e x.receivedTime (rows quotes')).map (·.receivedTime) =
      (upTo e x.receivedTime (rows quotes)).map (·.receivedTime) := by
    have := congrArg (List.map fun k : ℤ ×ₗ ℤ => (ofLex k).1) hkeys
    rwa [List.map_map, List.map_map] at this
  have hevents : (Stable.sortBy MarketObservation.eventKey
        (upTo e x.receivedTime (rows quotes'))).map (·.eventTime) =
      (Stable.sortBy MarketObservation.eventKey
        (upTo e x.receivedTime (rows quotes))).map (·.eventTime) := by
    have := congrArg (List.map fun k : ℤ ×ₗ ℤ => (ofLex k).1) (Stable.map_key_eq
      (Stable.sortBy_sorted MarketObservation.eventKey _) (Stable.sortBy_sorted _ _)
      ((Stable.sortBy_perm _ _).trans (hpath.trans (Stable.sortBy_perm _ _).symm)))
    rwa [List.map_map, List.map_map] at this
  obtain ⟨hlong, hshort⟩ := returns_at log h.first_exit.1 (h.entry_le hhold)
    (htie e x h.first_entry h.first_exit).2.1
  obtain ⟨hlong', hshort'⟩ := returns_at log h'.first_exit.1 (h.entry_le hhold)
    (htie' e x h'.first_entry h'.first_exit).2.1
  have hcheck : ∀ m ∈ CHECKPOINT_MINUTES,
      checkpointAt log e (upTo e x.receivedTime (rows quotes')) m =
        checkpointAt log e (upTo e x.receivedTime (rows quotes)) m := by
    intro m hm
    obtain ⟨hm0, hm25⟩ := minutes_mem hm
    obtain ⟨c, hc, hafter, hbefore, hk⟩ := h.checkpoint log hhold hm25 hm0
    obtain ⟨c', hc', -, hbefore', hk'⟩ := h'.checkpoint log hhold hm25 hm0
    have hback := hc'.alike ha.symm (fun _ => passed_after h.entry_after hm0) hbefore'
    obtain rfl : c' = c := hc.unique (fun q hq => h.checkpoint_last htie hm hq) c' hback.1
      (hback.key_unique hc)
    obtain ⟨hlong, hshort⟩ := returns_at log hc.1 hafter (h.checkpoint_last htie hm hc)
    obtain ⟨hlong', hshort'⟩ := returns_at log hc'.1 hafter
      (h'.checkpoint_last htie' hm hc')
    have hvisible := hperm c'.receivedTime hbefore
    have hlvisible : (longPath log e (upTo e c'.receivedTime (rows quotes'))).Perm
        (longPath log e (upTo e c'.receivedTime (rows quotes))) := hvisible.map _
    have hsvisible : (shortPath log e (upTo e c'.receivedTime (rows quotes'))).Perm
        (shortPath log e (upTo e c'.receivedTime (rows quotes))) := hvisible.map _
    rw [hk, hk']
    simp only [checkpointOf, hlong, hshort, hlong', hshort', maxOf_perm hlvisible,
      minOf_perm hlvisible, maxOf_perm hsvisible, minOf_perm hsvisible]
  have hlpath : (longPath log e (upTo e x.receivedTime (rows quotes'))).Perm
      (longPath log e (upTo e x.receivedTime (rows quotes))) := hpath.map _
  have hspath : (shortPath log e (upTo e x.receivedTime (rows quotes'))).Perm
      (shortPath log e (upTo e x.receivedTime (rows quotes))) := hpath.map _
  simp only [validLabel, hreceived, hevents, hlong, hshort, hlong', hshort', maxOf_perm hlpath,
    minOf_perm hlpath, maxOf_perm hspath, minOf_perm hspath, maxOf_perm (hpath.map _),
    List.filterMap_congr hcheck]

end Selected

/-! ## Causal labels -/

theorem First.perm (h : First p quotes q) (hperm : quotes'.Perm quotes) : First p quotes' q :=
  ⟨hperm.mem_iff.2 h.1, h.2.1, fun q' hq' => h.2.2 q' (hperm.mem_iff.1 hq')⟩

/-- What is found first in another order of the quotes is received at the same
    times. -/
theorem find?_perm (hperm : quotes'.Perm quotes) (p : ℤ → Bool) :
    ((rows quotes').find? fun q => p q.receivedTime).map MarketObservation.key =
      ((rows quotes).find? fun q => p q.receivedTime).map MarketObservation.key := by
  have hrows : (rows quotes').Perm (rows quotes) :=
    (rows_perm quotes').trans (hperm.trans (rows_perm quotes).symm)
  cases hq : (rows quotes).find? fun q => p q.receivedTime with
  | none =>
    rw [List.find?_eq_none] at hq
    rw [List.find?_eq_none.2 fun q hmem => hq q (hrows.mem_iff.1 hmem)]
  | some q =>
    have hfirst := find?_first hq
    obtain ⟨q', hq'⟩ : ∃ q', (rows quotes').find? (fun q => p q.receivedTime) = some q' :=
      Option.isSome_iff_exists.1
        (List.find?_isSome.2 ⟨q, mem_rows.2 (hperm.mem_iff.2 hfirst.1), hfirst.2.1⟩)
    rw [hq', Option.map_some, Option.map_some, (find?_first hq').key_unique (hfirst.perm hperm)]

/-- Quotes received and sent at the same times pass the same checks. -/
theorem checks_of_key (hkey : q.key = y.key) : r.clockAhead q = r.clockAhead y ∧
    r.stale q = r.stale y ∧ r.target q = r.target y := by
  obtain ⟨hr, he⟩ := key_eq_iff.1 hkey
  simp only [LabelRequest.clockAhead, LabelRequest.stale, LabelRequest.target, hr, he, and_self]

/-- A label that is not valid does not depend on the order of the quotes. -/
theorem invalid_perm (hperm : quotes'.Perm quotes)
    (h : (buildExecutableLabelV2 r log quotes).outcomeStatus ≠ "VALID") :
    buildExecutableLabelV2 r log quotes' = buildExecutableLabelV2 r log quotes := by
  have hentry := find?_perm hperm r.candidate
  unfold rows at hentry
  unfold buildExecutableLabelV2 at h ⊢
  cases he : (Stable.sortBy MarketObservation.key quotes).find?
      (fun q => r.candidate q.receivedTime) with
  | none =>
    rw [he, Option.map_none, Option.map_eq_none_iff] at hentry
    simp only [he, hentry]
  | some e =>
    rw [he, Option.map_some, Option.map_eq_some_iff] at hentry
    obtain ⟨e', he', hkey⟩ := hentry
    obtain ⟨hahead, hstale, htarget⟩ := checks_of_key (r := r) hkey
    simp only [he, he', hahead, hstale, htarget] at h ⊢
    split
    · rfl
    · next hcurrent =>
      rw [if_neg hcurrent] at h
      split
      · rfl
      · next hfresh =>
        rw [if_neg hfresh] at h
        have hexit := find?_perm hperm (r.reached e)
        unfold rows LabelRequest.reached at hexit
        cases hx : (Stable.sortBy MarketObservation.key quotes).find?
            (fun q => r.target e ≤ q.receivedTime) with
        | none =>
          rw [hx, Option.map_none, Option.map_eq_none_iff] at hexit
          simp only [hexit]
        | some x =>
          rw [hx, Option.map_some, Option.map_eq_some_iff] at hexit
          obtain ⟨x', hx', hxkey⟩ := hexit
          obtain ⟨hxahead, hxstale, -⟩ := checks_of_key (r := r) hxkey
          simp only [hx, hx', hxahead, hxstale] at h ⊢
          split
          · rfl
          · next hxcurrent =>
            rw [if_neg hxcurrent] at h
            split
            · rfl
            · next hxfresh =>
              rw [if_neg hxfresh] at h
              have hpath : upTo e x.receivedTime (rows quotes) = [] := by
                by_contra hne
                obtain ⟨q, path, hcons⟩ := List.exists_cons_of_ne_nil hne
                unfold rows at hcons
                rw [hcons] at h
                exact h rfl
              have hpath' : upTo e' x'.receivedTime (rows quotes') = [] := by
                rw [upTo, (key_eq_iff.1 hkey).1, (key_eq_iff.1 hxkey).1]
                refine List.Perm.eq_nil (hpath ▸ List.Perm.filter _ ?_)
                exact (rows_perm quotes').trans (hperm.trans (rows_perm quotes).symm)
              unfold rows at hpath hpath'
              rw [hpath, hpath']

/-- Quotes with the same span have the same label. -/
theorem Selected.build_span (h : Selected r quotes e x) (htie : TieFree r quotes)
    (hhold : 25 ≤ r.holdMinutes)
    (hspan : (r.span (buildExecutableLabelV2 r log quotes) quotes').Perm
      (r.span (buildExecutableLabelV2 r log quotes) quotes)) :
    buildExecutableLabelV2 r log quotes' = buildExecutableLabelV2 r log quotes := by
  have hexit : (buildExecutableLabelV2 r log quotes).exitReceivedTime = some x.receivedTime := by
    rw [h.build _ hhold]
    rfl
  unfold LabelRequest.span at hspan
  rw [hexit] at hspan
  have ha : Alike r x.receivedTime quotes quotes' := by
    intro q hafter hbefore
    have hmem := hspan.mem_iff (a := q)
    simpa [hafter, hbefore] using hmem
  have hperm : ∀ t ≤ x.receivedTime,
      (upTo e t (rows quotes')).Perm (upTo e t (rows quotes)) := by
    intro t ht
    have hsame (l : List (MarketObservation K)) : l.filter (fun q => within e t q.receivedTime) =
        (l.filter fun q => decide (r.decisionTime < q.receivedTime) &&
          (some x.receivedTime).any fun t => q.receivedTime ≤ t).filter
            fun q => within e t q.receivedTime := by
      have hafter := h.entry_after
      rw [List.filter_filter]
      refine List.filter_congr fun q _ => ?_
      by_cases hq : e.receivedTime ≤ q.receivedTime ∧ q.receivedTime ≤ t
      · simp [within, hq, hafter.trans_le hq.1, hq.2.trans ht]
      · simp [within, hq]
    have hin := hspan.filter fun q => within e t q.receivedTime
    rw [← hsame, ← hsame] at hin
    exact ((rows_perm quotes').filter _).trans (hin.trans ((rows_perm quotes).filter _).symm)
  rw [h.build log hhold, (h.alike htie hhold ha).build log hhold]
  exact h.label_alike htie hhold ha hperm

section
variable [IsStrictOrderedRing K]

theorem logRatio_left_inj (hlog : StrictMonoOn log (Set.Ioi 0)) {a b d : K} (ha : 0 < a)
    (hb : 0 < b) (hd : 0 < d) (h : logRatio log a d = logRatio log b d) : a = b :=
  (div_left_inj' hd.ne').1 (hlog.injOn (div_pos ha hd) (div_pos hb hd) h)

theorem logRatio_right_inj (hlog : StrictMonoOn log (Set.Ioi 0)) {a b d : K} (ha : 0 < a)
    (hb : 0 < b) (hd : 0 < d) (h : logRatio log d a = logRatio log d b) : a = b := by
  have hratio : d / a = d / b := hlog.injOn (div_pos hd ha) (div_pos hd hb) h
  rw [div_eq_div_iff ha.ne' hb.ne'] at hratio
  exact (mul_left_cancel₀ hd.ne' hratio).symm

omit [IsStrictOrderedRing K] in
theorem MarketObservation.ask_pos (q : MarketObservation K) : 0 < q.ask :=
  q.positive.trans_le q.uncrossed

omit [IsStrictOrderedRing K] in
/-- A last quote moved to the end of the quotes. -/
theorem moved_perm (hy : y ∈ quotes) : (quotes.erase y ++ [y]).Perm quotes :=
  (List.perm_append_singleton y _).trans (List.perm_cons_erase hy).symm

/-- Quotes whose returns from one entry are equal have the same prices. -/
theorem samePrices_of_returns (hlog : StrictMonoOn log (Set.Ioi 0))
    (hlong : logRatio log y.bid e.ask = logRatio log c.bid e.ask)
    (hshort : logRatio log e.bid y.ask = logRatio log e.bid c.ask) : SamePrices y c :=
  ⟨logRatio_left_inj hlog y.positive c.positive e.ask_pos hlong,
    logRatio_right_inj hlog y.ask_pos c.ask_pos e.positive hshort⟩

omit [IsStrictOrderedRing K] in
theorem reached_congr {e' : MarketObservation K} (h : e'.receivedTime = e.receivedTime) :
    r.reached e' = r.reached e := by
  funext s
  exact decide_eq_decide.2 (by rw [LabelRequest.target, LabelRequest.target, h])

/-- Quotes that tie for the entry of a causal label have the same prices. -/
theorem Causal.entry_prices {e' : MarketObservation K} (h : Causal r log quotes)
    (hlog : StrictMonoOn log (Set.Ioi 0))
    (hvalid : (buildExecutableLabelV2 r log quotes).outcomeStatus = "VALID")
    (he : First r.candidate quotes e) (he' : First r.candidate quotes e')
    (hx : First (r.reached e) quotes x) : SamePrices e' e := by
  have hdescribes := (h.2 hvalid).2.1
  have hthis := hdescribes e x he hx
  have hother := hdescribes e' x he'
    (reached_congr (r := r) (key_eq_iff.1 (he'.key_unique he)).1 ▸ hx)
  exact ⟨logRatio_left_inj hlog e'.positive e.positive x.ask_pos
      (Option.some.inj (hother.shortReturn.symm.trans hthis.shortReturn)),
    logRatio_right_inj hlog e'.ask_pos e.ask_pos x.positive
      (Option.some.inj (hother.longReturn.symm.trans hthis.longReturn))⟩

/-- The trade of the quotes with a last quote moved to their end. -/
theorem Causal.moved (h : Causal r log quotes) (hlog : StrictMonoOn log (Set.Ioi 0))
    (hvalid : (buildExecutableLabelV2 r log quotes).outcomeStatus = "VALID") (hy : y ∈ quotes)
    (he : First r.candidate quotes e) (hx : First (r.reached e) quotes x) :
    ∃ e' x', Selected r (quotes.erase y ++ [y]) e' x' ∧ SamePrices e' e ∧
      e'.receivedTime = e.receivedTime ∧ x'.receivedTime = x.receivedTime := by
  have hperm := moved_perm hy
  obtain ⟨e', x', h'⟩ : ∃ e' x', Selected r (quotes.erase y ++ [y]) e' x' := by
    refine selected_of_valid (?_ : (buildExecutableLabelV2 r log _).outcomeStatus = "VALID")
    rw [h.1 _ hperm]
    exact hvalid
  have he' := h'.first_entry.perm hperm.symm
  have hat : e'.receivedTime = e.receivedTime := (key_eq_iff.1 (he'.key_unique he)).1
  have hx' : First (r.reached e) quotes x' :=
    reached_congr (r := r) hat ▸ h'.first_exit.perm hperm.symm
  exact ⟨e', x', h', h.entry_prices hlog hvalid he he' hx, hat, (key_eq_iff.1 (hx'.key_unique hx)).1⟩

variable (log) in
omit [IsStrictOrderedRing K] in
/-- With a last quote of an instant moved to the end of the quotes, the returns
    of the path up to that instant are its own. -/
theorem returns_moved (hy : LastAt t quotes y) (he : e.receivedTime ≤ t) :
    lastOf (longPath log e (upTo e t (rows (quotes.erase y ++ [y])))) = logRatio log y.bid e.ask ∧
      lastOf (shortPath log e (upTo e t (rows (quotes.erase y ++ [y])))) =
        logRatio log e.bid y.ask := by
  have hperm := moved_perm hy.1
  have hlast : LastAt t (quotes.erase y ++ [y]) y :=
    ⟨by simp, hy.2.1, fun q hq => hy.2.2 q (hperm.mem_iff.1 hq)⟩
  exact ⟨lastOf_longPath (hlast.getLast? he), lastOf_shortPath (hlast.getLast? he)⟩

/-- **Causal labels.** With a strictly increasing logarithm and a hold that
    reaches the last checkpoint, the label of some quotes describes one causal
    trade if and only if it is not valid or the quotes have no ties. -/
theorem causal_iff (r : LabelRequest K) (log : K → K) (quotes : List (MarketObservation K))
    (hhold : 25 ≤ r.holdMinutes) (hlog : StrictMonoOn log (Set.Ioi 0)) :
    Causal r log quotes ↔
      ((buildExecutableLabelV2 r log quotes).outcomeStatus = "VALID" → TieFree r quotes) := by
  constructor
  · intro h hvalid e x he hx
    have hdescribes := (h.2 hvalid).2.1
    have hlabel := hdescribes e x he hx
    refine ⟨fun e' he' => ?_, fun y hy => ?_, fun m hm c hc y hy => ?_⟩
    · exact h.entry_prices hlog hvalid he he' hx
    · obtain ⟨e', x', h', ⟨hbid, hask⟩, -, hxat⟩ := h.moved hlog hvalid hy.1 he hx
      have hbuild := (h.1 _ (moved_perm hy.1)).symm.trans (h'.build _ hhold)
      obtain ⟨hlong, hshort⟩ := returns_moved log hy (hxat ▸ h'.entry_le hhold)
      rw [← hxat, hask] at hlong
      rw [← hxat, hbid] at hshort
      rw [hbuild] at hlabel
      exact samePrices_of_returns hlog
        (hlong.symm.trans (Option.some.inj hlabel.longReturn))
        (hshort.symm.trans (Option.some.inj hlabel.shortReturn))
    · obtain ⟨e', x', h', ⟨hbid, hask⟩, hat, -⟩ := h.moved hlog hvalid hy.1 he hx
      obtain ⟨hm0, hm25⟩ := minutes_mem hm
      obtain ⟨c', hc', hafter, -, hk⟩ := h'.checkpoint log hhold hm25 hm0
      have hbuild := (h.1 _ (moved_perm hy.1)).symm.trans (h'.build log hhold)
      have hpassed : passed e' m = passed e m := by
        funext s
        rw [passed, passed, hat]
      have hcat : c'.receivedTime = c.receivedTime :=
        (key_eq_iff.1 ((hpassed ▸ hc'.perm (moved_perm hy.1).symm).key_unique hc)).1
      rw [hcat] at hafter hk
      obtain ⟨hlong, hshort⟩ := returns_moved log hy hafter
      rw [hask] at hlong
      rw [hbid] at hshort
      rw [hbuild] at hlabel
      have hcheckpoint := hlabel.checkpoints _ (List.mem_filterMap.2 ⟨m, hm, hk⟩) c hc
      exact samePrices_of_returns hlog (hlong.symm.trans hcheckpoint.longReturn)
        (hshort.symm.trans hcheckpoint.shortReturn)
  · intro htie
    by_cases hvalid : (buildExecutableLabelV2 r log quotes).outcomeStatus = "VALID"
    · obtain ⟨e, x, h⟩ := selected_of_valid hvalid
      have htie := htie hvalid
      refine ⟨fun quotes' hperm => h.build_span htie hhold (hperm.filter _), fun _ =>
        ⟨⟨e, x, h.first_entry, h.first_exit⟩, ?_, fun quotes' => h.build_span htie hhold⟩⟩
      intro e' x' he' hx'
      obtain rfl := h.entry_unique htie e' he'.1 (he'.key_unique h.first_entry)
      obtain rfl := h.exit_unique htie x' hx'.1 (hx'.key_unique h.first_exit)
      rw [h.build _ hhold]
      exact h.describes htie hhold
    · exact ⟨fun quotes' hperm => invalid_perm hperm hvalid, fun h => absurd h hvalid⟩

end

/-- Quotes that have the same prices whenever they are received at once are
    free of ties. -/
theorem tieFree_of_instants
    (h : ∀ a ∈ quotes, ∀ b ∈ quotes, a.receivedTime = b.receivedTime → SamePrices a b) :
    TieFree r quotes := by
  intro e x he hx
  refine ⟨fun e' he' => ?_, fun y hy => h y hy.1 x hx.1 hy.2.1, fun m _ c hc y hy => ?_⟩
  · exact h e' he'.1 e he.1 (key_eq_iff.1 (he'.key_unique he)).1
  · exact h y hy.1 c hc.1 hy.2.1

/-! ## Two quotes at once -/

instance (a b : MarketObservation K) : Decidable (SamePrices a b) :=
  inferInstanceAs (Decidable (_ ∧ _))

/-- A strictly increasing function with the symmetry of a logarithm. -/
def ratioLog (v : ℚ) : ℚ := (v - 1) / (v + 1)

theorem ratioLog_strictMonoOn : StrictMonoOn ratioLog (Set.Ioi 0) := by
  intro a ha b hb hab
  have ha' : 0 < a + 1 := by
    have : 0 < a := ha
    linarith
  have hb' : 0 < b + 1 := by
    have : 0 < b := hb
    linarith
  rw [ratioLog, ratioLog, div_lt_div_iff₀ ha' hb']
  linarith

theorem ratioLog_symm {a b : ℚ} (ha : 0 < a) (hb : 0 < b) :
    ratioLog (a / b) = -ratioLog (b / a) := by
  have hsum : a + b ≠ 0 := by positivity
  have hsum' : b + a ≠ 0 := by positivity
  rw [ratioLog, ratioLog]
  field_simp
  ring

def quoteAt (eventTime receivedTime : ℤ) (price : ℚ) (h : 0 < price) : MarketObservation ℚ :=
  ⟨eventTime, receivedTime, price, price, h, le_rfl⟩

def atMidnight : LabelRequest ℚ := { decisionTime := 0 }

/-- An entry and an exit. -/
def oneExit : List (MarketObservation ℚ) :=
  [ quoteAt IsoTime.second IsoTime.second 1 (by norm_num),
    quoteAt (30 * IsoTime.minute) (30 * IsoTime.minute + IsoTime.second) 2 (by norm_num) ]

theorem causal_oneExit : Causal atMidnight ratioLog oneExit :=
  (causal_iff atMidnight ratioLog oneExit (by decide) ratioLog_strictMonoOn).2 fun _ =>
    tieFree_of_instants (by decide)

/-- An entry and two quotes received at once when the hold is over. -/
def twoExits : List (MarketObservation ℚ) :=
  oneExit ++
    [quoteAt (30 * IsoTime.minute + 1) (30 * IsoTime.minute + IsoTime.second) 3 (by norm_num)]

/-- The label reports the first of the two as its exit and the return of the
    second. -/
theorem not_causal_twoExits : ratioLog 1 = 0 ∧
    (∀ a b : ℚ, 0 < a → 0 < b → ratioLog (a / b) = -ratioLog (b / a)) ∧
    StrictMonoOn ratioLog (Set.Ioi 0) ∧ 25 ≤ atMidnight.holdMinutes ∧
    (buildExecutableLabelV2 atMidnight ratioLog twoExits).outcomeStatus = "VALID" ∧
    ¬ Causal atMidnight ratioLog twoExits := by
  have hvalid : (buildExecutableLabelV2 atMidnight ratioLog twoExits).outcomeStatus = "VALID" := by
    decide +kernel
  refine ⟨by norm_num [ratioLog], fun a b => ratioLog_symm, ratioLog_strictMonoOn, by decide,
    hvalid, fun h => ?_⟩
  have hexits : (rows twoExits).find? (fun q => atMidnight.reached (twoExits.get ⟨0, by decide⟩)
      q.receivedTime) = some (twoExits.get ⟨1, by decide⟩) := by decide
  have hentry : (rows twoExits).find? (fun q => atMidnight.candidate q.receivedTime) =
      some (twoExits.get ⟨0, by decide⟩) := by decide
  have hreturn := ((h.2 hvalid).2.1 _ _ (find?_first hentry) (find?_first hexits)).longReturn
  revert hreturn
  decide +kernel

end Xauusd.Labels
