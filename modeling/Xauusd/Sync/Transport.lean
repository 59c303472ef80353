/-
  Rows cut into requests of bounded size (`bounded_batches` of
  `news_projection.py`, `_market_history_payloads` of
  `dashboard/sync/resources.py` and the candles it compacts).

  * `boundedBatches`: the rows as one-element arrays and longer ones, no batch
    over its item and byte limits;
  * `marketHistoryPayloads`: the compacted candles, each request an object with
    the one member `candles`;
  * `batches_bounded`: **the rows are sent in order, in batches that are within
    the limits and could not have been longer**.
-/
import Xauusd.Lib.Batching
import Xauusd.Lib.PyCompact
import Xauusd.Lib.Recall

namespace Xauusd.Sync

inductive TransportError where
  /-- `json.dumps` or `encode` raises. -/
  | notSerializable
  /-- A candle is no object, or has a price that is no number. -/
  | notCandle
  | overBound
  deriving DecidableEq

def TransportError.message : TransportError → Option String
  | overBound => some "one news projection row exceeds its transport bound"
  | notSerializable | notCandle => none

section
variable (floatText : BitVec 64 → List Char)

/-- `compact_json(value).encode("utf-8")` -/
def encoded (v : PyJson) : Except TransportError (List ℕ) :=
  match PyJson.dumpBytes floatText v with
  | some bytes => .ok bytes
  | none => .error .notSerializable

/-! ## Projection rows -/

def boundedBatchesStep (limitBytes maxItems : ℤ) (s : Batching.State PyJson) (row : PyJson) :
    Except TransportError (Batching.State PyJson) := do
  let candidate := s.current ++ [row]
  let size := (← encoded floatText (.list candidate)).length
  let s : Batching.State PyJson :=
    if s.current ≠ [] ∧ (limitBytes < size ∨ maxItems < candidate.length) then
      ⟨s.batches ++ [s.current], [row]⟩
    else ⟨s.batches, candidate⟩
  if limitBytes < (← encoded floatText (.list s.current)).length then throw .overBound
  return s

def boundedBatches (rows : List PyJson) (limitBytes maxItems : ℤ) :
    Except TransportError (List (List PyJson)) := do
  let s ← rows.foldlM (boundedBatchesStep floatText limitBytes maxItems) ⟨[], []⟩
  return if s.current ≠ [] then s.batches ++ [s.current] else s.batches

/-! ## Market history -/

def remoteMarketCandleLimit : ℕ := 576
def marketHistoryBatchItems : ℕ := 25
def marketHistoryBatchLimitBytes : ℕ := 350000

/-- `str(compact.get("time") or "")` ends with `+00:00` only if it is a string. -/
def zuluTime (compact : List (PyStr × PyJson)) : List (PyStr × PyJson) :=
  match compact.lookup (PyStr.of "time") with
  | some (.str time) =>
    if PyStr.of "+00:00" <:+ time then
      compact.assign (PyStr.of "time") (.str (time.take (time.length - 6) ++ PyStr.of "Z"))
    else compact
  | _ => compact

/-- `compact[key] = round(float(compact[key]), 3)`, where `price` rounds. -/
def roundPrice (price : PyJson → Option (BitVec 64)) (compact : List (PyStr × PyJson)) (key : String) :
    Except TransportError (List (PyStr × PyJson)) :=
  match compact.lookup (PyStr.of key) with
  | none | some .none => .ok compact
  | some value =>
    match price value with
    | some bits => .ok (compact.assign (PyStr.of key) (.float bits))
    | none => .error .notCandle

def compactCandle (price : PyJson → Option (BitVec 64)) : PyJson → Except TransportError PyJson
  | .dict row => do
    let compact := zuluTime (row.filter fun m => m.1 ≠ PyStr.of "ticks")
    return .dict (← ["open", "high", "low", "close"].foldlM (roundPrice price) compact)
  | _ => .error .notCandle

/-- The `candles` of `compact_market_chart`. -/
def compactCandles (price : PyJson → Option (BitVec 64)) (candles : List PyJson) :
    Except TransportError (List PyJson) :=
  (candles.drop (candles.length - remoteMarketCandleLimit)).mapM (compactCandle price)

/-- `{"candles": rows}` -/
def candlesPayload (rows : List PyJson) : PyJson := .dict [(PyStr.of "candles", .list rows)]

structure Payloads where
  payloads : List (List ℕ)
  current : List PyJson

def marketHistoryStep (s : Payloads) (row : PyJson) : Except TransportError Payloads := do
  let candidate := s.current ++ [row]
  let bytes ← encoded floatText (candlesPayload candidate)
  if s.current ≠ [] ∧
      (marketHistoryBatchItems < candidate.length ∨ marketHistoryBatchLimitBytes < bytes.length) then
    return ⟨s.payloads ++ [← encoded floatText (candlesPayload s.current)], [row]⟩
  else return ⟨s.payloads, candidate⟩

def marketHistoryPayloads (price : PyJson → Option (BitVec 64)) (candles : List PyJson) :
    Except TransportError (List (List ℕ)) := do
  let rows ← compactCandles price candles
  let s ← rows.foldlM (marketHistoryStep floatText) ⟨[], []⟩
  if s.current ≠ [] then return s.payloads ++ [← encoded floatText (candlesPayload s.current)]
  else return s.payloads

/-! ## What is cut -/

/-- The bytes of a value, none if it cannot be sent. -/
def sizeOf (v : PyJson) : Option ℕ := (PyJson.dumpBytes floatText v).map List.length

/-- The row can be sent, and takes no more than the limit alone. -/
def FitsAlone (limitBytes : ℤ) (row : PyJson) : Prop := ∃ n : ℕ, sizeOf floatText (.list [row]) = some n ∧ n ≤ limitBytes

/-- Beyond a limit, if it can be sent. -/
def overRows (limitBytes maxItems : ℤ) (rows : List PyJson) : Bool :=
  limitBytes < PyStr.size (PyJson.compact floatText (.list rows)) ∨ maxItems < rows.length

def overCandles (rows : List PyJson) : Bool :=
  marketHistoryBatchItems < rows.length ∨
    marketHistoryBatchLimitBytes < PyStr.size (PyJson.compact floatText (candlesPayload rows))

end

variable {floatText : BitVec 64 → List Char} {limitBytes : ℤ} {rows : List PyJson} {row : PyJson}

theorem sizeOf_of_writable {v : PyJson} (h : PyJson.writable floatText v = true) :
    sizeOf floatText v = some (PyStr.size (PyJson.compact floatText v)) := by
  rw [sizeOf, PyJson.size_dumpBytes, if_pos h]

theorem encoded_of_writable {v : PyJson} (h : PyJson.writable floatText v = true) :
    ∃ bytes, encoded floatText v = .ok bytes ∧ PyJson.dumpBytes floatText v = some bytes ∧
      bytes.length = PyStr.size (PyJson.compact floatText v) := by
  obtain ⟨bytes, hbytes, hlength⟩ := Option.map_eq_some_iff.1 (sizeOf_of_writable h)
  exact ⟨bytes, by rw [encoded, hbytes], hbytes, hlength⟩

theorem encoded_of_not_writable {v : PyJson} (h : PyJson.writable floatText v = false) :
    encoded floatText v = .error .notSerializable := by
  have hsize : (PyJson.dumpBytes floatText v).map List.length = _ := PyJson.size_dumpBytes v
  rw [h, if_neg (by decide), Option.map_eq_none_iff] at hsize
  rw [encoded, hsize]

theorem writable_single : PyJson.writable floatText (.list [row]) = PyJson.writable floatText row := by
  rw [PyJson.writable_list, List.all_cons, List.all_nil, Bool.and_true]

theorem fitsAlone_iff : FitsAlone floatText limitBytes row ↔ PyJson.writable floatText row = true ∧
    (PyStr.size (PyJson.compact floatText (.list [row])) : ℤ) ≤ limitBytes := by
  rw [FitsAlone, sizeOf, PyJson.size_dumpBytes, writable_single]
  cases PyJson.writable floatText row with
  | false => simp
  | true => simp

/-- A longer array takes more bytes. -/
theorem size_single_le (hne : rows ≠ []) : PyStr.size (PyJson.compact floatText (.list [row])) ≤
    PyStr.size (PyJson.compact floatText (.list (rows ++ [row]))) := by
  rw [PyJson.size_list, PyJson.size_list, List.map_append, List.sum_append, List.length_append]
  have := List.length_pos_of_ne_nil hne
  simp only [List.map_cons, List.map_nil, List.sum_cons, List.sum_nil, List.length_singleton]
  omega

/-! ## Projection rows -/

/-- The open batch can be sent, and is within the limit. -/
structure Sendable (floatText : BitVec 64 → List Char) (limitBytes : ℤ) (s : Batching.State PyJson) : Prop where
  writable : s.current.all (PyJson.writable floatText) = true
  within : s.current ≠ [] → (PyStr.size (PyJson.compact floatText (.list s.current)) : ℤ) ≤ limitBytes

variable {s : Batching.State PyJson}

theorem writable_append : PyJson.writable floatText (.list (rows ++ [row])) =
    (rows.all (PyJson.writable floatText) && PyJson.writable floatText row) := by
  rw [PyJson.writable_list, List.all_append, List.all_cons, List.all_nil, Bool.and_true]

/-- A row that fits alone is taken as the greedy rule says. -/
theorem boundedBatchesStep_ok (maxItems : ℤ) (hs : Sendable floatText limitBytes s) (hrow : FitsAlone floatText limitBytes row) :
    boundedBatchesStep floatText limitBytes maxItems s row =
        .ok (Batching.push (overRows floatText limitBytes maxItems) s row) ∧
      Sendable floatText limitBytes (Batching.push (overRows floatText limitBytes maxItems) s row) := by
  obtain ⟨hwritable, hfits⟩ := fitsAlone_iff.1 hrow
  have hcandidate : PyJson.writable floatText (.list (s.current ++ [row])) = true := by
    rw [writable_append, hs.writable, hwritable, Bool.and_true]
  obtain ⟨bytes, hbytes, -, hlength⟩ := encoded_of_writable hcandidate
  obtain ⟨alone, halone, -, hsingle⟩ := encoded_of_writable (writable_single.trans hwritable)
  have hstart : Sendable floatText limitBytes ⟨s.batches ++ [s.current], [row]⟩ :=
    ⟨by rw [List.all_cons, hwritable]; rfl, fun _ => hfits⟩
  by_cases hpush : s.current ≠ [] ∧ overRows floatText limitBytes maxItems (s.current ++ [row]) = true
  · have hflush : s.current ≠ [] ∧
        (limitBytes < bytes.length ∨ maxItems < (s.current ++ [row]).length) := by
      rw [hlength]
      exact ⟨hpush.1, of_decide_eq_true hpush.2⟩
    rw [Batching.push, if_pos hpush]
    refine ⟨?_, hstart⟩
    simp only [boundedBatchesStep, hbytes, bind, Except.bind, if_pos hflush, halone, hsingle]
    rw [if_neg (not_lt.2 hfits)]
    rfl
  · have hflush : ¬ (s.current ≠ [] ∧
        (limitBytes < bytes.length ∨ maxItems < (s.current ++ [row]).length)) := by
      rw [hlength]
      exact fun h => hpush ⟨h.1, decide_eq_true h.2⟩
    have hwithin : (PyStr.size (PyJson.compact floatText (.list (s.current ++ [row]))) : ℤ) ≤ limitBytes := by
      by_cases hempty : s.current = []
      · rw [hempty]
        exact hfits
      · by_contra hlong
        exact hflush ⟨hempty, .inl (by rw [hlength]; exact not_le.1 hlong)⟩
    rw [Batching.push, if_neg hpush]
    refine ⟨?_, ?_, fun _ => hwithin⟩
    · simp only [boundedBatchesStep, hbytes, bind, Except.bind, if_neg hflush]
      rw [hlength, if_neg (not_lt.2 hwithin)]
      rfl
    · rw [← PyJson.writable_list]
      exact hcandidate

/-- A row that does not fit alone is refused. -/
theorem boundedBatchesStep_error (maxItems : ℤ) (hs : Sendable floatText limitBytes s)
    (hrow : ¬ FitsAlone floatText limitBytes row) :
    ∃ e, boundedBatchesStep floatText limitBytes maxItems s row = .error e := by
  rw [fitsAlone_iff, not_and] at hrow
  cases hwritable : PyJson.writable floatText row with
  | false =>
    have hcandidate : PyJson.writable floatText (.list (s.current ++ [row])) = false := by
      rw [writable_append, hwritable, Bool.and_false]
    refine ⟨.notSerializable, ?_⟩
    simp only [boundedBatchesStep, encoded_of_not_writable hcandidate, bind, Except.bind]
  | true =>
    have hlong := not_le.1 (hrow hwritable)
    have hcandidate : PyJson.writable floatText (.list (s.current ++ [row])) = true := by
      rw [writable_append, hs.writable, hwritable, Bool.and_true]
    obtain ⟨bytes, hbytes, -, hlength⟩ := encoded_of_writable hcandidate
    obtain ⟨alone, halone, -, hsingle⟩ := encoded_of_writable (writable_single.trans hwritable)
    refine ⟨.overBound, ?_⟩
    by_cases hempty : s.current = []
    · have hflush : ¬ (s.current ≠ [] ∧
          (limitBytes < bytes.length ∨ maxItems < (s.current ++ [row]).length)) := fun h => h.1 hempty
      simp only [boundedBatchesStep, hbytes, bind, Except.bind, if_neg hflush]
      rw [hlength, hempty, List.nil_append, if_pos hlong]
      rfl
    · have hmore : limitBytes < PyStr.size (PyJson.compact floatText (.list (s.current ++ [row]))) :=
        hlong.trans_le (by exact_mod_cast size_single_le hempty)
      have hflush : s.current ≠ [] ∧
          (limitBytes < bytes.length ∨ maxItems < (s.current ++ [row]).length) :=
        ⟨hempty, .inl (by rw [hlength]; exact hmore)⟩
      simp only [boundedBatchesStep, hbytes, bind, Except.bind, if_pos hflush, halone, hsingle]
      rw [if_pos hlong]
      rfl

/-- All rows are taken as the greedy rule says, or one does not fit alone. -/
theorem boundedBatches_run (maxItems : ℤ) (rows : List PyJson) (hs : Sendable floatText limitBytes s) :
    match rows.foldlM (boundedBatchesStep floatText limitBytes maxItems) s with
    | .error _ => ∃ row ∈ rows, ¬ FitsAlone floatText limitBytes row
    | .ok s' => (∀ row ∈ rows, FitsAlone floatText limitBytes row) ∧
        s' = rows.foldl (Batching.push (overRows floatText limitBytes maxItems)) s := by
  induction rows generalizing s with
  | nil => exact ⟨fun row h => absurd h List.not_mem_nil, rfl⟩
  | cons row rows ih =>
    by_cases hrow : FitsAlone floatText limitBytes row
    · obtain ⟨hstep, hnext⟩ := boundedBatchesStep_ok maxItems hs hrow
      rw [List.foldlM_cons, hstep, List.foldl_cons]
      have hrest := ih hnext
      simp only [bind, Except.bind]
      split at hrest
      · next e he =>
        obtain ⟨bad, hbad, hfits⟩ := hrest
        exact ⟨bad, List.mem_cons_of_mem _ hbad, hfits⟩
      · next s' hs' => exact ⟨List.forall_mem_cons.2 ⟨hrow, hrest.1⟩, hrest.2⟩
    · obtain ⟨e, hstep⟩ := boundedBatchesStep_error maxItems hs hrow
      rw [List.foldlM_cons, hstep]
      exact ⟨row, List.mem_cons_self, hrow⟩

/-! ## Market history -/

theorem writable_candlesPayload (rows : List PyJson) :
    PyJson.writable floatText (candlesPayload rows) = rows.all (PyJson.writable floatText) := by
  rw [← PyJson.writable_list, candlesPayload, PyJson.writable, PyJson.writable]
  simp only [PyJson.finite, PyJson.finiteMembers, Bool.and_true]
  congr 1
  have hkey : PyStr.wellFormed (PyStr.quote (PyStr.of "candles")) = true := by decide
  simp only [PyJson.compact, PyJson.compactMembers, PyStr.commas]
  rw [PyStr.wellFormed, List.cons_append, List.all_cons, List.all_append, List.all_append]
  rw [PyStr.wellFormed] at hkey
  rw [hkey]
  simp [PyStr.wellFormed, CodePoint.isChar]

/-- The payloads are the texts of the closed batches. -/
structure Sent (floatText : BitVec 64 → List Char) (s : Batching.State PyJson) (p : Payloads) : Prop where
  current : p.current = s.current
  payloads : p.payloads.map some = s.batches.map fun rows => PyJson.dumpBytes floatText (candlesPayload rows)
  writable : s.current.all (PyJson.writable floatText) = true

variable {p : Payloads}

theorem marketHistoryStep_ok (h : Sent floatText s p) (hrow : PyJson.writable floatText row = true) :
    ∃ p', marketHistoryStep floatText p row = .ok p' ∧
      Sent floatText (Batching.push (overCandles floatText) s row) p' := by
  have hall : (s.current ++ [row]).all (PyJson.writable floatText) = true := by
    rw [List.all_append, h.writable, List.all_cons, hrow]
    rfl
  obtain ⟨bytes, hbytes, -, hlength⟩ := encoded_of_writable ((writable_candlesPayload _).trans hall)
  obtain ⟨closed, hclosed, hdump, -⟩ := encoded_of_writable ((writable_candlesPayload _).trans h.writable)
  rw [marketHistoryStep, h.current, hbytes, hclosed]
  simp only [bind, Except.bind, hlength]
  by_cases hpush : s.current ≠ [] ∧ overCandles floatText (s.current ++ [row]) = true
  · have hflush : s.current ≠ [] ∧ (marketHistoryBatchItems < (s.current ++ [row]).length ∨
        marketHistoryBatchLimitBytes <
          PyStr.size (PyJson.compact floatText (candlesPayload (s.current ++ [row])))) :=
      ⟨hpush.1, of_decide_eq_true hpush.2⟩
    rw [Batching.push, if_pos hpush, if_pos hflush]
    refine ⟨_, rfl, rfl, ?_, by rw [List.all_cons, hrow]; rfl⟩
    rw [List.map_append, List.map_append, h.payloads, List.map_singleton, List.map_singleton, hdump]
  · have hflush : ¬ (s.current ≠ [] ∧ (marketHistoryBatchItems < (s.current ++ [row]).length ∨
        marketHistoryBatchLimitBytes <
          PyStr.size (PyJson.compact floatText (candlesPayload (s.current ++ [row]))))) :=
      fun hc => hpush ⟨hc.1, decide_eq_true hc.2⟩
    rw [Batching.push, if_neg hpush, if_neg hflush]
    exact ⟨_, rfl, rfl, h.payloads, hall⟩

theorem marketHistoryStep_error (h : Sent floatText s p) (hrow : PyJson.writable floatText row = false) :
    ∃ e, marketHistoryStep floatText p row = .error e := by
  have hall : PyJson.writable floatText (candlesPayload (s.current ++ [row])) = false := by
    rw [writable_candlesPayload, List.all_append, List.all_cons, hrow, Bool.false_and, Bool.and_false]
  refine ⟨.notSerializable, ?_⟩
  simp only [marketHistoryStep, h.current, encoded_of_not_writable hall, bind, Except.bind]

theorem marketHistory_run (rows : List PyJson) (h : Sent floatText s p) :
    match rows.foldlM (marketHistoryStep floatText) p with
    | .error _ => ∃ row ∈ rows, PyJson.writable floatText row = false
    | .ok p' => (∀ row ∈ rows, PyJson.writable floatText row = true) ∧
        Sent floatText (rows.foldl (Batching.push (overCandles floatText)) s) p' := by
  induction rows generalizing s p with
  | nil => exact ⟨fun row h => absurd h List.not_mem_nil, h⟩
  | cons row rows ih =>
    cases hrow : PyJson.writable floatText row with
    | true =>
      obtain ⟨p', hstep, hnext⟩ := marketHistoryStep_ok h hrow
      rw [List.foldlM_cons, hstep, List.foldl_cons]
      have hrest := ih hnext
      simp only [bind, Except.bind]
      split at hrest
      · obtain ⟨bad, hbad, hfits⟩ := hrest
        exact ⟨bad, List.mem_cons_of_mem _ hbad, hfits⟩
      · exact ⟨List.forall_mem_cons.2 ⟨hrow, hrest.1⟩, hrest.2⟩
    | false =>
      obtain ⟨e, hstep⟩ := marketHistoryStep_error h hrow
      rw [List.foldlM_cons, hstep]
      exact ⟨row, List.mem_cons_self, hrow⟩

/-! ## The batches -/

theorem boundedBatches_eq (maxItems : ℤ) (rows : List PyJson) : match boundedBatches floatText rows limitBytes maxItems with
    | .error _ => ∃ row ∈ rows, ¬ FitsAlone floatText limitBytes row
    | .ok batches => (∀ row ∈ rows, FitsAlone floatText limitBytes row) ∧
        batches = Batching.cut (overRows floatText limitBytes maxItems) rows := by
  have hstart : Sendable floatText limitBytes ⟨[], []⟩ := ⟨rfl, fun h => absurd rfl h⟩
  have hrun := boundedBatches_run maxItems rows hstart
  rw [boundedBatches]
  generalize rows.foldlM (boundedBatchesStep floatText limitBytes maxItems) ⟨[], []⟩ = r at hrun
  cases r with
  | error e => exact hrun
  | ok s => exact ⟨hrun.1, by rw [hrun.2]; rfl⟩

section
variable {price : PyJson → Option (BitVec 64)} {candles : List PyJson}

theorem marketHistoryPayloads_error {e : TransportError}
    (h : marketHistoryPayloads floatText price candles = .error e) (hrows : compactCandles price candles = .ok rows) :
    ∃ row ∈ rows, PyJson.writable floatText row = false := by
  have hstart : Sent floatText ⟨[], []⟩ ⟨[], []⟩ := ⟨rfl, rfl, rfl⟩
  have hrun := marketHistory_run rows hstart
  rw [marketHistoryPayloads, hrows] at h
  simp only [bind, Except.bind] at h
  generalize rows.foldlM (marketHistoryStep floatText) ⟨[], []⟩ = r at hrun h
  cases r with
  | error e => exact hrun
  | ok p =>
    obtain ⟨-, hcurrent, -, hwritable⟩ := hrun
    rw [← hcurrent] at hwritable
    obtain ⟨bytes, hbytes, -, -⟩ := encoded_of_writable ((writable_candlesPayload _).trans hwritable)
    simp only [hbytes] at h
    split at h <;> cases h

theorem marketHistoryPayloads_ok {payloads : List (List ℕ)}
    (h : marketHistoryPayloads floatText price candles = .ok payloads) :
    ∃ rows, compactCandles price candles = .ok rows ∧ (∀ row ∈ rows, PyJson.writable floatText row = true) ∧
      payloads.map some = (Batching.cut (overCandles floatText) rows).map fun batch =>
        PyJson.dumpBytes floatText (candlesPayload batch) := by
  rw [marketHistoryPayloads] at h
  cases hrows : compactCandles price candles with
  | error e =>
    rw [hrows] at h
    cases h
  | ok rows =>
    have hstart : Sent floatText ⟨[], []⟩ ⟨[], []⟩ := ⟨rfl, rfl, rfl⟩
    have hrun := marketHistory_run rows hstart
    rw [hrows] at h
    simp only [bind, Except.bind] at h
    refine ⟨rows, rfl, ?_⟩
    rw [Batching.cut, Batching.State.finish]
    generalize rows.foldlM (marketHistoryStep floatText) ⟨[], []⟩ = r at hrun h
    cases r with
    | error e => cases h
    | ok p =>
      obtain ⟨hall, hcurrent, hpayloads, hwritable⟩ := hrun
      generalize rows.foldl (Batching.push (overCandles floatText)) ⟨[], []⟩ = s at hcurrent hpayloads hwritable
      obtain ⟨bytes, hbytes, hdump, -⟩ := encoded_of_writable ((writable_candlesPayload _).trans hwritable)
      simp only [hcurrent, hbytes] at h
      refine ⟨hall, ?_⟩
      by_cases hempty : s.current = []
      · rw [if_neg (not_not.2 hempty)] at h
        rw [if_neg (not_not.2 hempty), ← Except.ok.inj h]
        exact hpayloads
      · rw [if_pos hempty] at h
        rw [if_pos hempty, ← Except.ok.inj h, List.map_append, List.map_append, hpayloads, List.map_singleton,
          List.map_singleton, hdump]

end

theorem sizeOf_isSome (v : PyJson) : (sizeOf floatText v).isSome = PyJson.writable floatText v := by
  rw [sizeOf, PyJson.size_dumpBytes]
  cases PyJson.writable floatText v <;> rfl

/-- Rows that fit alone, in a batch the rule allows: within the limits, and a
    single row at least. -/
theorem rows_within {maxItems : ℤ} (hrows : ∀ row ∈ rows, FitsAlone floatText limitBytes row)
    (hfits : overRows floatText limitBytes maxItems rows = false ∨ rows.length = 1) :
    (rows.length : ℤ) ≤ max maxItems 1 ∧ ∃ n : ℕ, sizeOf floatText (.list rows) = some n ∧ n ≤ limitBytes := by
  rcases hfits with hfits | hone
  · have hlimits := of_decide_eq_false hfits
    rw [not_or, not_lt, not_lt] at hlimits
    have hall : PyJson.writable floatText (.list rows) = true := by
      rw [PyJson.writable_list, List.all_eq_true]
      exact fun row hrow => (fitsAlone_iff.1 (hrows row hrow)).1
    exact ⟨hlimits.2.trans (le_max_left _ _), _, sizeOf_of_writable hall, hlimits.1⟩
  · obtain ⟨row, rfl⟩ := List.length_eq_one_iff.1 hone
    exact ⟨le_max_right _ _, hrows row List.mem_cons_self⟩

theorem candles_within (hrows : ∀ row ∈ rows, PyJson.writable floatText row = true)
    (hfits : overCandles floatText rows = false ∨ rows.length = 1) : rows.length ≤ marketHistoryBatchItems ∧
      ∃ n, sizeOf floatText (candlesPayload rows) = some n ∧
        (n ≤ marketHistoryBatchLimitBytes ∨ rows.length = 1) := by
  have hall : PyJson.writable floatText (candlesPayload rows) = true := by
    rw [writable_candlesPayload, List.all_eq_true]
    exact hrows
  rcases hfits with hfits | hone
  · have hlimits := of_decide_eq_false hfits
    rw [not_or, not_lt, not_lt] at hlimits
    exact ⟨hlimits.1, _, sizeOf_of_writable hall, .inl hlimits.2⟩
  · exact ⟨by rw [hone]; decide, _, sizeOf_of_writable hall, .inr hone⟩

theorem not_rows_within {maxItems : ℤ} (hfull : overRows floatText limitBytes maxItems rows = true) :
    ¬ ((rows.length : ℤ) ≤ maxItems ∧ ∃ n : ℕ, sizeOf floatText (.list rows) = some n ∧ n ≤ limitBytes) := by
  rintro ⟨hitems, n, hn, hbytes⟩
  have hwritable : PyJson.writable floatText (.list rows) = true := by rw [← sizeOf_isSome, hn]; rfl
  rw [sizeOf_of_writable hwritable, Option.some_inj] at hn
  rcases of_decide_eq_true hfull with h | h <;> omega

theorem not_candles_within (hfull : overCandles floatText rows = true) :
    ¬ (rows.length ≤ marketHistoryBatchItems ∧ ∃ n, sizeOf floatText (candlesPayload rows) = some n ∧
      n ≤ marketHistoryBatchLimitBytes) := by
  rintro ⟨hitems, n, hn, hbytes⟩
  have hwritable : PyJson.writable floatText (candlesPayload rows) = true := by rw [← sizeOf_isSome, hn]; rfl
  rw [sizeOf_of_writable hwritable, Option.some_inj] at hn
  rcases of_decide_eq_true hfull with h | h <;> omega

/-- **Every row is sent once, in order, in batches that could not have been
    longer**, or one cannot be sent at all. -/
theorem batches_bounded (floatText : BitVec 64 → List Char) :
    (∀ (rows : List PyJson) (limitBytes maxItems : ℤ),
      match boundedBatches floatText rows limitBytes maxItems with
      | .error _ => ∃ row ∈ rows, ¬ FitsAlone floatText limitBytes row
      | .ok batches => (∀ row ∈ rows, FitsAlone floatText limitBytes row) ∧ batches.flatten = rows ∧
          (∀ batch ∈ batches, batch ≠ [] ∧ (batch.length : ℤ) ≤ max maxItems 1 ∧
            ∃ n : ℕ, sizeOf floatText (.list batch) = some n ∧ n ≤ limitBytes) ∧
          batches.IsChain fun batch next => ∃ row ∈ next.head?,
            ¬ (((batch ++ [row]).length : ℤ) ≤ maxItems ∧
              ∃ n : ℕ, sizeOf floatText (.list (batch ++ [row])) = some n ∧ n ≤ limitBytes)) ∧
    ∀ (price : PyJson → Option (BitVec 64)) (candles : List PyJson),
      match marketHistoryPayloads floatText price candles with
      | .error _ => ∀ rows, compactCandles price candles = .ok rows → ∃ row ∈ rows, sizeOf floatText row = none
      | .ok payloads => ∃ (rows : List PyJson) (batches : List (List PyJson)), compactCandles price candles = .ok rows ∧
          batches.flatten = rows ∧
          payloads.map some = batches.map (fun batch => PyJson.dumpBytes floatText (candlesPayload batch)) ∧
          (∀ batch ∈ batches, batch ≠ [] ∧ batch.length ≤ marketHistoryBatchItems ∧
            ∃ n, sizeOf floatText (candlesPayload batch) = some n ∧
              (n ≤ marketHistoryBatchLimitBytes ∨ batch.length = 1)) ∧
          batches.IsChain fun batch next => ∃ row ∈ next.head?,
            ¬ ((batch ++ [row]).length ≤ marketHistoryBatchItems ∧
              ∃ n, sizeOf floatText (candlesPayload (batch ++ [row])) = some n ∧
                n ≤ marketHistoryBatchLimitBytes) := by
  constructor
  · intro rows limitBytes maxItems
    have hcut := @boundedBatches_eq floatText limitBytes maxItems rows
    have hgreedy := Batching.greedy_cut (overRows floatText limitBytes maxItems) rows
    split at hcut
    · exact hcut
    · next batches _ =>
      obtain ⟨hfits, rfl⟩ := hcut
      refine ⟨hfits, hgreedy.flatten, fun batch hbatch => ⟨hgreedy.nonempty batch hbatch, ?_⟩, ?_⟩
      · have hrows : ∀ row ∈ batch, FitsAlone floatText limitBytes row := by
          intro row hrow
          refine hfits row ?_
          rw [← hgreedy.flatten]
          exact List.mem_flatten.2 ⟨batch, hbatch, hrow⟩
        exact rows_within hrows (hgreedy.fits batch hbatch)
      · refine hgreedy.tight.imp fun batch next => ?_
        rintro ⟨row, hrow, hfull⟩
        exact ⟨row, hrow, not_rows_within hfull⟩
  · intro price candles
    split
    · next e he =>
      intro rows hrows
      obtain ⟨row, hrow, hwritable⟩ := marketHistoryPayloads_error he hrows
      refine ⟨row, hrow, Option.not_isSome_iff_eq_none.1 ?_⟩
      rw [sizeOf_isSome, hwritable]
      decide
    · next payloads hok =>
      obtain ⟨rows, hrows, hall, hpayloads⟩ := marketHistoryPayloads_ok hok
      have hgreedy := Batching.greedy_cut (overCandles floatText) rows
      refine ⟨rows, _, hrows, hgreedy.flatten, hpayloads,
        fun batch hbatch => ⟨hgreedy.nonempty batch hbatch, ?_⟩, ?_⟩
      · have hbatches : ∀ row ∈ batch, PyJson.writable floatText row = true := by
          intro row hrow
          refine hall row ?_
          rw [← hgreedy.flatten]
          exact List.mem_flatten.2 ⟨batch, hbatch, hrow⟩
        exact candles_within hbatches (hgreedy.fits batch hbatch)
      · refine hgreedy.tight.imp fun batch next => ?_
        rintro ⟨row, hrow, hfull⟩
        exact ⟨row, hrow, not_candles_within hfull⟩

/-! ## A limit of no rows -/

def emptyRow : PyJson := .dict []

def brokenRow : PyJson := .dict [(PyStr.of "headline", .str [.surrogate 0])]

/-- **A batch has one row where none are allowed**, and a row that has no UTF-8
    text is refused whatever the limit. -/
theorem one_row_over : boundedBatches (fun _ => []) [emptyRow] 4 0 = .ok [[emptyRow]] ∧
    boundedBatches (fun _ => []) [brokenRow] 350000 25 = .error .notSerializable := ⟨rfl, rfl⟩

end Xauusd.Sync
