/-
  Token calibration (`news/scheduler/state.py`): how many tokens the provider
  counts for one that is estimated.

  A bucket holds the recent ratios of one model version on one route, and a
  safe ratio; a route names the version that answered last.

  * `calibrationUpdate`: the figures of a bucket after one more ratio;
  * `recordTokenCalibrationSample`, `calibratedInputTokens`: the two functions
    on the tables;
  * `TokenCalibration.Sound`: what holds of every bucket;
  * `calibration_safe`: **after every sequence of samples the buckets are
    sound, no safe ratio has fallen by more than a step at once, and a route
    names the version of the request that was reserved last**.
-/
import Xauusd.Scheduler.Types
import Xauusd.Lib.Machine
import Xauusd.Lib.Table

namespace Xauusd.Scheduler

variable (P : Platform)

def TOKEN_CALIBRATION_ALPHA : ℚ := 5 / 100
def TOKEN_CALIBRATION_RECENT_LIMIT : ℕ := 128
def TOKEN_CALIBRATION_P99_MARGIN : ℚ := 105 / 100
def tokenCalibrationMinRatio : ℚ := 1 / 2
def tokenCalibrationMaxRatio : ℚ := 8
def TOKEN_CALIBRATION_MAX_DOWNWARD_STEP : ℚ := 1 / 100

/-! ## Rows -/

structure RouteKey where
  requestedModel : String
  purpose : String
  promptContract : String
  estimatorVersion : String
  deriving DecidableEq, Repr

/-- A row of `news_ai_token_calibration_v1`. -/
structure TokenCalibration where
  bucketId : String
  route : RouteKey
  providerModelVersion : String
  lifetimeSampleCount : ℤ
  effectiveSampleCount : ℕ
  ewmaRatio : ℚ
  ewmaAbsoluteError : ℚ
  recentRatioWindow : List ℚ
  recentP99Ratio : ℚ
  safeRatio : ℚ
  updatedAt : String
  deriving DecidableEq

/-- A row of `news_ai_token_calibration_route_v1`. -/
structure CalibrationRoute where
  key : RouteKey
  lastProviderModelVersion : String
  lastRequestReservedAt : String
  updatedAt : String
  deriving DecidableEq

structure Calibration where
  buckets : Table TokenCalibration.bucketId
  routes : Table CalibrationRoute.key

def Calibration.empty : Calibration := ⟨.empty, .empty⟩

/-- What is read of a request's usage row, and of the provider's answer. -/
structure CalibrationSample where
  baseEstimatedInputTokens : Option ℤ
  requestedModel : Option String
  purpose : Option String
  promptContract : Option String
  estimatorVersion : Option String
  reservedAt : String
  providerPromptTokenCount : ℤ
  providerModelVersion : String
  updatedAt : String

/-! ## Names -/

/-- `_controlled_calibration_key` -/
def controlledCalibrationKey (value label : String) : Outcome String :=
  let normalized := Text.strip value
  if normalized = "" ∨ 200 < Text.len normalized then
    .error (.valueError (label ++ " is not a bounded calibration key"))
  else .ok normalized

/-- `_calibration_identity` -/
def calibrationIdentity (route : RouteKey) (providerModelVersion : String) : String :=
  let payload := (String.singleton (Char.ofNat 0x1F)).intercalate
    [route.requestedModel, route.purpose, route.promptContract, route.estimatorVersion, providerModelVersion]
  "token-calibration-" ++ String.ofList ((P.sha256 payload).toList.take 32)

/-- What a sample that counts adds, and where. -/
structure AcceptedSample where
  route : RouteKey
  providerModelVersion : String
  ratio : ℚ
  reservedAt : String

/-- The sample, if it counts: the checks before the tables are read. -/
def CalibrationSample.read (s : CalibrationSample) : Outcome (Option AcceptedSample) := do
  let baseTokens := s.baseEstimatedInputTokens.getD 0
  let actualTokens := s.providerPromptTokenCount
  if baseTokens ≤ 0 ∨ actualTokens ≤ 0 then return none
  let ratio : ℚ := actualTokens / baseTokens
  if ¬ (tokenCalibrationMinRatio / 2 ≤ ratio ∧ ratio ≤ tokenCalibrationMaxRatio) then return none
  let requestedModel ← controlledCalibrationKey (s.requestedModel.getD "") "requested_model"
  let purpose ← controlledCalibrationKey (s.purpose.getD "") "purpose"
  let promptContract ← controlledCalibrationKey (s.promptContract.getD "") "prompt_contract"
  let estimatorVersion ← controlledCalibrationKey (s.estimatorVersion.getD "") "estimator_version"
  let exactModel ← controlledCalibrationKey s.providerModelVersion "provider model version"
  return some ⟨⟨requestedModel, purpose, promptContract, estimatorVersion⟩, exactModel, ratio, s.reservedAt⟩

/-! ## Figures -/

/-- `_recent_p99` -/
def recentP99 (values : List ℚ) : ℚ :=
  let ordered := values.insertionSort (· ≤ ·)
  ordered.getD (⌈(99 / 100 : ℚ) * ordered.length⌉ - 1).toNat 0

/-- `_calibration_floor` -/
def calibrationFloor (sampleCount : ℤ) : ℚ :=
  if sampleCount < 5 then 1 else if sampleCount < 20 then 9 / 10 else tokenCalibrationMinRatio

/-- `values[-TOKEN_CALIBRATION_RECENT_LIMIT:]` -/
def recentRatios (values : List ℚ) : List ℚ := values.drop (values.length - TOKEN_CALIBRATION_RECENT_LIMIT)

/-- The columns that a sample changes. -/
structure CalibrationFigures where
  lifetimeSampleCount : ℤ
  ewmaRatio : ℚ
  ewmaAbsoluteError : ℚ
  recentRatioWindow : List ℚ
  safeRatio : ℚ

/-- The figures of a row, unless its window holds a ratio out of bounds. -/
def TokenCalibration.load (b : TokenCalibration) : Option CalibrationFigures :=
  if b.recentRatioWindow.all fun r =>
      decide (tokenCalibrationMinRatio / 2 ≤ r) && decide (r ≤ tokenCalibrationMaxRatio) then
    some ⟨max 0 b.lifetimeSampleCount, b.ewmaRatio, max 0 b.ewmaAbsoluteError, recentRatios b.recentRatioWindow,
      b.safeRatio⟩
  else none

/-- The figures after one more ratio. -/
def calibrationUpdate (existing : Option CalibrationFigures) (ratio : ℚ) : CalibrationFigures :=
  let lifetimeCount := existing.elim 0 (·.lifetimeSampleCount)
  let oldEwma := existing.elim ratio (·.ewmaRatio)
  let oldError := existing.elim 0 (·.ewmaAbsoluteError)
  let newCount := lifetimeCount + 1
  let ewma :=
    if lifetimeCount = 0 then ratio
    else TOKEN_CALIBRATION_ALPHA * ratio + (1 - TOKEN_CALIBRATION_ALPHA) * oldEwma
  let ewmaError :=
    if lifetimeCount = 0 then 0
    else TOKEN_CALIBRATION_ALPHA * |ratio - oldEwma| + (1 - TOKEN_CALIBRATION_ALPHA) * oldError
  let recent := recentRatios (existing.elim [] (·.recentRatioWindow) ++ [ratio])
  let measuredSafe := max (ratio * TOKEN_CALIBRATION_P99_MARGIN)
    (max (recentP99 recent * TOKEN_CALIBRATION_P99_MARGIN) (ewma + 3 * ewmaError))
  let safeRatio := max (calibrationFloor newCount) measuredSafe
  let safeRatio := existing.elim safeRatio fun old =>
    max safeRatio (old.safeRatio * (1 - TOKEN_CALIBRATION_MAX_DOWNWARD_STEP))
  ⟨newCount, ewma, ewmaError, recent, min tokenCalibrationMaxRatio safeRatio⟩

/-! ## The tables -/

/-- The `SET` clause of the first upsert. -/
def TokenCalibration.updated (b : TokenCalibration) (f : CalibrationFigures) (updatedAt : String) : TokenCalibration :=
  { b with
    lifetimeSampleCount := f.lifetimeSampleCount
    effectiveSampleCount := f.recentRatioWindow.length
    ewmaRatio := f.ewmaRatio
    ewmaAbsoluteError := f.ewmaAbsoluteError
    recentRatioWindow := f.recentRatioWindow
    recentP99Ratio := recentP99 f.recentRatioWindow
    safeRatio := f.safeRatio
    updatedAt := updatedAt }

@[simp] theorem TokenCalibration.updated_bucketId (f : CalibrationFigures) (updatedAt : String) (b : TokenCalibration) :
    (b.updated f updatedAt).bucketId = b.bucketId := rfl

@[simp] theorem TokenCalibration.updated_recentRatioWindow (f : CalibrationFigures) (updatedAt : String)
    (b : TokenCalibration) : (b.updated f updatedAt).recentRatioWindow = f.recentRatioWindow := rfl

/-- The row that the first upsert inserts. -/
def AcceptedSample.bucket (a : AcceptedSample) (f : CalibrationFigures) (updatedAt : String) : TokenCalibration where
  bucketId := calibrationIdentity P a.route a.providerModelVersion
  route := a.route
  providerModelVersion := a.providerModelVersion
  lifetimeSampleCount := f.lifetimeSampleCount
  effectiveSampleCount := f.recentRatioWindow.length
  ewmaRatio := f.ewmaRatio
  ewmaAbsoluteError := f.ewmaAbsoluteError
  recentRatioWindow := f.recentRatioWindow
  recentP99Ratio := recentP99 f.recentRatioWindow
  safeRatio := f.safeRatio
  updatedAt := updatedAt

@[simp] theorem bucket_recentRatioWindow (a : AcceptedSample) (f : CalibrationFigures) (updatedAt : String) :
    (a.bucket P f updatedAt).recentRatioWindow = f.recentRatioWindow := rfl

/-- The `SET` clause of the second upsert. -/
def CalibrationRoute.answered (r : CalibrationRoute) (a : AcceptedSample) (updatedAt : String) : CalibrationRoute :=
  { r with
    lastProviderModelVersion :=
      if r.lastRequestReservedAt ≤ a.reservedAt then a.providerModelVersion else r.lastProviderModelVersion
    lastRequestReservedAt := max r.lastRequestReservedAt a.reservedAt
    updatedAt := if r.lastRequestReservedAt ≤ a.reservedAt then updatedAt else r.updatedAt }

@[simp] theorem CalibrationRoute.answered_key (a : AcceptedSample) (updatedAt : String) (r : CalibrationRoute) :
    (r.answered a updatedAt).key = r.key := rfl

/-- The two upserts; a row of another id with the same names refuses the first. -/
def Calibration.add (t : Calibration) (a : AcceptedSample) (updatedAt : String) : Outcome Calibration :=
  let id := calibrationIdentity P a.route a.providerModelVersion
  let figures := calibrationUpdate ((t.buckets.find? id).bind TokenCalibration.load) a.ratio
  if (t.buckets.find? id).isNone && t.buckets.rows.any (fun b =>
      b.route = a.route && b.providerModelVersion = a.providerModelVersion) then .error .integrityError
  else
    .ok
      { buckets := t.buckets.upsert (a.bucket P figures updatedAt) (·.updated figures updatedAt)
          (TokenCalibration.updated_bucketId figures updatedAt)
        routes := t.routes.upsert ⟨a.route, a.providerModelVersion, a.reservedAt, updatedAt⟩
          (·.answered a updatedAt) (CalibrationRoute.answered_key a updatedAt) }

/-- `_record_token_calibration_sample_locked` -/
def recordTokenCalibrationSample (t : Calibration) (s : CalibrationSample) : Outcome Unit × Calibration :=
  match s.read with
  | .error e => (.error e, t)
  | .ok none => (.ok (), t)
  | .ok (some a) =>
    match t.add P a s.updatedAt with
    | .error e => (.error e, t)
    | .ok t' => (.ok (), t')

/-- The names of a route, each checked. -/
def RouteKey.controlled (k : RouteKey) : Outcome RouteKey := do
  return ⟨← controlledCalibrationKey k.requestedModel "requested model", ← controlledCalibrationKey k.purpose "purpose",
    ← controlledCalibrationKey k.promptContract "prompt contract",
    ← controlledCalibrationKey k.estimatorVersion "estimator version"⟩

/-- The bucket that a route selects: the row of the joined tables. -/
def Calibration.selected (t : Calibration) (k : RouteKey) : Option TokenCalibration :=
  (t.routes.find? k).bind fun r => t.buckets.rows.find? fun b =>
    b.route = k && b.providerModelVersion = r.lastProviderModelVersion

/-- `calibrated_input_tokens` -/
def calibratedInputTokens (t : Calibration) (k : RouteKey) (baseEstimatedInputTokens : ℤ) :
    Outcome (ℤ × Option String × ℚ) := do
  let baseTokens := max 0 baseEstimatedInputTokens
  let key ← k.controlled
  match t.selected key with
  | none => return (baseTokens, none, 1)
  | some b =>
    if ¬ (tokenCalibrationMinRatio ≤ b.safeRatio ∧ b.safeRatio ≤ tokenCalibrationMaxRatio) then
      return (baseTokens, none, 1)
    else return (⌈baseTokens * b.safeRatio⌉, some b.providerModelVersion, b.safeRatio)

/-! ## Sound figures -/

/-- A ratio that counts. -/
def InBounds (ratio : ℚ) : Prop := tokenCalibrationMinRatio / 2 ≤ ratio ∧ ratio ≤ tokenCalibrationMaxRatio

/-- What holds of a window and of the safe ratio beside it. -/
structure CalibrationFigures.Sound (f : CalibrationFigures) : Prop where
  count : 0 < f.lifetimeSampleCount
  length : f.recentRatioWindow.length ≤ TOKEN_CALIBRATION_RECENT_LIMIT
  window : ∀ r ∈ f.recentRatioWindow, InBounds r
  least : tokenCalibrationMinRatio ≤ f.safeRatio
  greatest : f.safeRatio ≤ tokenCalibrationMaxRatio
  floor : calibrationFloor f.lifetimeSampleCount ≤ f.safeRatio
  newest : ∀ r ∈ f.recentRatioWindow.getLast?,
    min tokenCalibrationMaxRatio (r * TOKEN_CALIBRATION_P99_MARGIN) ≤ f.safeRatio

/-- The figures that stand in a row. -/
def TokenCalibration.figures (b : TokenCalibration) : CalibrationFigures :=
  ⟨b.lifetimeSampleCount, b.ewmaRatio, b.ewmaAbsoluteError, b.recentRatioWindow, b.safeRatio⟩

variable {f : CalibrationFigures} {b : TokenCalibration} {ratio : ℚ}

theorem min_le_calibrationFloor (n : ℤ) : tokenCalibrationMinRatio ≤ calibrationFloor n := by
  unfold calibrationFloor tokenCalibrationMinRatio
  split_ifs <;> norm_num

theorem calibrationFloor_le_max (n : ℤ) : calibrationFloor n ≤ tokenCalibrationMaxRatio := by
  unfold calibrationFloor tokenCalibrationMinRatio tokenCalibrationMaxRatio
  split_ifs <;> norm_num

theorem recentRatios_sublist (values : List ℚ) : ∀ r ∈ recentRatios values, r ∈ values :=
  fun _ hr => List.mem_of_mem_drop hr

theorem length_recentRatios_le (values : List ℚ) : (recentRatios values).length ≤ TOKEN_CALIBRATION_RECENT_LIMIT := by
  rw [recentRatios, List.length_drop]
  omega

theorem recentRatios_getLast? (values : List ℚ) (r : ℚ) : (recentRatios (values ++ [r])).getLast? = some r := by
  have hshort : (values ++ [r]).length - TOKEN_CALIBRATION_RECENT_LIMIT ≤ values.length := by
    rw [List.length_append, List.length_singleton, TOKEN_CALIBRATION_RECENT_LIMIT]
    omega
  rw [recentRatios, List.drop_append_of_le_length hshort, List.getLast?_append, List.getLast?_singleton, Option.some_or]

/-- The safe ratio is no less than what the floor and the ratio ask for, nor
    than the old one less a step. -/
theorem safeRatio_update (existing : Option CalibrationFigures) (ratio : ℚ) :
    (calibrationUpdate existing ratio).safeRatio ≤ tokenCalibrationMaxRatio ∧
      min tokenCalibrationMaxRatio (calibrationFloor (calibrationUpdate existing ratio).lifetimeSampleCount) ≤
        (calibrationUpdate existing ratio).safeRatio ∧
      min tokenCalibrationMaxRatio (ratio * TOKEN_CALIBRATION_P99_MARGIN) ≤
        (calibrationUpdate existing ratio).safeRatio ∧
      ∀ old ∈ existing, min tokenCalibrationMaxRatio (old.safeRatio * (1 - TOKEN_CALIBRATION_MAX_DOWNWARD_STEP)) ≤
        (calibrationUpdate existing ratio).safeRatio := by
  refine ⟨min_le_left _ _, min_le_min_left _ ?_, min_le_min_left _ ?_, fun old hold => min_le_min_left _ ?_⟩
  · cases existing with
    | none => exact le_max_left _ _
    | some old => exact (le_max_left _ _).trans (le_max_left _ _)
  · cases existing with
    | none => exact (le_max_left _ _).trans (le_max_right _ _)
    | some old => exact ((le_max_left _ _).trans (le_max_right _ _)).trans (le_max_left _ _)
  · obtain rfl := Option.mem_def.1 hold
    exact le_max_right _ _

/-- One more ratio keeps the figures sound. -/
theorem calibrationUpdate_sound {existing : Option CalibrationFigures} (hratio : InBounds ratio)
    (h : ∀ f ∈ existing, f.Sound) : (calibrationUpdate existing ratio).Sound := by
  obtain ⟨hmax, hfloor, hnewest, -⟩ := safeRatio_update existing ratio
  have hfloor : calibrationFloor (calibrationUpdate existing ratio).lifetimeSampleCount ≤
      (calibrationUpdate existing ratio).safeRatio := by
    rwa [min_eq_right (calibrationFloor_le_max _)] at hfloor
  have hwindow : ∀ r ∈ existing.elim [] (·.recentRatioWindow) ++ [ratio], InBounds r := by
    intro r hr
    rcases List.mem_append.1 hr with hr | hr
    · cases existing with
      | none => cases hr
      | some f => exact (h f rfl).window r hr
    · rw [List.mem_singleton.1 hr]
      exact hratio
  have hrecent : (calibrationUpdate existing ratio).recentRatioWindow =
      recentRatios (existing.elim [] (·.recentRatioWindow) ++ [ratio]) := by
    simp only [calibrationUpdate]
  have hleast : tokenCalibrationMinRatio ≤ (calibrationUpdate existing ratio).safeRatio :=
    le_trans (min_le_calibrationFloor _) hfloor
  refine ⟨?_, ?_, fun r hr => ?_, hleast, hmax, hfloor, fun r hr => ?_⟩
  · cases existing with
    | none => exact Int.zero_lt_one
    | some f =>
      have hcount := (h f rfl).count
      show 0 < f.lifetimeSampleCount + 1
      omega
  · rw [hrecent]
    exact length_recentRatios_le _
  · rw [hrecent] at hr
    exact hwindow r (recentRatios_sublist _ r hr)
  · have hlast : (calibrationUpdate existing ratio).recentRatioWindow.getLast? = some ratio := by
      rw [hrecent]
      exact recentRatios_getLast? _ _
    obtain rfl := Option.some.inj (hlast.symm.trans hr)
    exact hnewest

/-- Sound figures are read back as they are, but for an error below zero. -/
theorem load_of_sound (h : b.figures.Sound) :
    ∃ f, b.load = some f ∧ f.Sound ∧ f.safeRatio = b.safeRatio := by
  have hall : (b.recentRatioWindow.all fun r =>
      decide (tokenCalibrationMinRatio / 2 ≤ r) && decide (r ≤ tokenCalibrationMaxRatio)) = true := by
    refine List.all_eq_true.2 fun r hr => ?_
    obtain ⟨hleast, hgreatest⟩ := h.window r hr
    simp [hleast, hgreatest]
  have hlength : b.recentRatioWindow.length ≤ TOKEN_CALIBRATION_RECENT_LIMIT := h.length
  have hwindow : recentRatios b.recentRatioWindow = b.recentRatioWindow := by
    rw [recentRatios, Nat.sub_eq_zero_of_le hlength, List.drop_zero]
  have hcount : max 0 b.lifetimeSampleCount = b.lifetimeSampleCount := max_eq_right h.count.le
  refine ⟨_, by rw [TokenCalibration.load, if_pos hall], ?_, rfl⟩
  rw [hwindow, hcount]
  exact ⟨h.count, h.length, h.window, h.least, h.greatest, h.floor, h.newest⟩

/-! ## The tables after some samples -/

variable {P} {t t' : Calibration} {a : AcceptedSample} {as : List AcceptedSample} {updatedAt : String}

/-- The bucket of a sample. -/
def AcceptedSample.bucketId (P : Platform) (a : AcceptedSample) : String :=
  calibrationIdentity P a.route a.providerModelVersion

/-- What the tables hold after the samples `as`. -/
structure Calibration.Records (P : Platform) (as : List AcceptedSample) (t : Calibration) : Prop where
  sound : ∀ b ∈ t.buckets, b.figures.Sound
  named : ∀ b ∈ t.buckets, ∃ a ∈ as, a.bucketId P = b.bucketId ∧ a.route = b.route ∧
    a.providerModelVersion = b.providerModelVersion
  covered : ∀ a ∈ as, (t.buckets.find? (a.bucketId P)).isSome = true
  routed : ∀ a ∈ as, (t.routes.find? a.route).isSome = true
  latest : ∀ k r, t.routes.find? k = some r →
    (∃ a ∈ as, a.route = k ∧ a.providerModelVersion = r.lastProviderModelVersion ∧ a.reservedAt = r.lastRequestReservedAt) ∧
      ∀ a ∈ as, a.route = k → a.reservedAt ≤ r.lastRequestReservedAt

theorem Calibration.empty_records : Calibration.empty.Records P [] :=
  ⟨fun _ hb => absurd hb (Table.not_mem_empty _), fun _ hb => absurd hb (Table.not_mem_empty _), by simp, by simp,
    fun _ _ hr => absurd (Table.find?_eq_some_iff.1 hr).1 (Table.not_mem_empty _)⟩

/-- No safe ratio falls by more than a step. -/
def Calibration.Steady (t t' : Calibration) : Prop :=
  ∀ b ∈ t.buckets, ∃ b' ∈ t'.buckets, b'.bucketId = b.bucketId ∧
    b.safeRatio * (1 - TOKEN_CALIBRATION_MAX_DOWNWARD_STEP) ≤ b'.safeRatio

theorem step_le (h : b.figures.Sound) : b.safeRatio * (1 - TOKEN_CALIBRATION_MAX_DOWNWARD_STEP) ≤ b.safeRatio := by
  have hleast : tokenCalibrationMinRatio ≤ b.safeRatio := h.least
  simp only [tokenCalibrationMinRatio, TOKEN_CALIBRATION_MAX_DOWNWARD_STEP] at *
  linarith

theorem Calibration.Steady.refl (h : ∀ b ∈ t.buckets, b.figures.Sound) : t.Steady t :=
  fun b hb => ⟨b, hb, rfl, step_le (h b hb)⟩

/-- The figures that the first upsert writes. -/
def Calibration.figuresAfter (P : Platform) (t : Calibration) (a : AcceptedSample) : CalibrationFigures :=
  calibrationUpdate ((t.buckets.find? (a.bucketId P)).bind TokenCalibration.load) a.ratio

/-- No name refuses a sample: it is added. -/
theorem add_ok (h : t.Records P as) : t.add P a updatedAt = .ok
    { buckets := t.buckets.upsert (a.bucket P (t.figuresAfter P a) updatedAt) (·.updated (t.figuresAfter P a) updatedAt)
        (TokenCalibration.updated_bucketId (t.figuresAfter P a) updatedAt)
      routes := t.routes.upsert ⟨a.route, a.providerModelVersion, a.reservedAt, updatedAt⟩ (·.answered a updatedAt)
        (CalibrationRoute.answered_key a updatedAt) } := by
  unfold Calibration.add
  dsimp only
  rw [if_neg]
  · rfl
  · rintro hclash
    simp only [Bool.and_eq_true, List.any_eq_true, decide_eq_true_eq] at hclash
    obtain ⟨hnone, b, hb, hroute, hversion⟩ := hclash
    obtain ⟨a', ha', hid, hroute', hversion'⟩ := h.named b hb
    have hcovered := h.covered a' ha'
    rw [AcceptedSample.bucketId, hroute', hroute, hversion', hversion] at hcovered
    rw [Option.isNone_iff_eq_none] at hnone
    rw [hnone] at hcovered
    cases hcovered

/-- What the tables find after a sample. -/
theorem find?_add (h : t.Records P as) (hadd : t.add P a updatedAt = .ok t') :
    (∀ id, t'.buckets.find? id =
      if id = a.bucketId P then
        some (((t.buckets.find? id).map (·.updated (t.figuresAfter P a) updatedAt)).getD
          (a.bucket P (t.figuresAfter P a) updatedAt))
      else t.buckets.find? id) ∧
    ∀ k, t'.routes.find? k =
      if k = a.route then
        some (((t.routes.find? k).map (·.answered a updatedAt)).getD
          ⟨a.route, a.providerModelVersion, a.reservedAt, updatedAt⟩)
      else t.routes.find? k := by
  rw [add_ok h] at hadd
  obtain rfl := Except.ok.inj hadd
  constructor
  · intro id
    rw [Table.find?_upsert]
    rfl
  · intro k
    rw [Table.find?_upsert]

theorem figuresAfter_sound (h : t.Records P as) (hratio : InBounds a.ratio) : (t.figuresAfter P a).Sound := by
  refine calibrationUpdate_sound hratio fun f hf => ?_
  obtain ⟨b, hb, hload⟩ := Option.bind_eq_some_iff.1 hf
  obtain ⟨f', hload', hsound, -⟩ := load_of_sound (h.sound b (Table.find?_eq_some_iff.1 hb).1)
  obtain rfl := Option.some.inj (hload.symm.trans hload')
  exact hsound

theorem figures_updated (f : CalibrationFigures) : (b.updated f updatedAt).figures = f := by
  cases f
  rfl

theorem figures_bucket (f : CalibrationFigures) : (a.bucket P f updatedAt).figures = f := by
  cases f
  rfl

/-- The step on one sample. -/
theorem records_add (h : t.Records P as) (hratio : InBounds a.ratio) (hadd : t.add P a updatedAt = .ok t') :
    t'.Records P (as ++ [a]) := by
  obtain ⟨hbuckets, hroutes⟩ := find?_add h hadd
  rw [add_ok h] at hadd
  refine ⟨?_, ?_, fun a' ha' => ?_, fun a' ha' => ?_, fun k r hr => ?_⟩
  · obtain rfl := Except.ok.inj hadd
    refine Table.forall_upsert h.sound ?_ fun b _ _ _ => ?_
    · rw [figures_bucket]
      exact figuresAfter_sound h hratio
    · rw [figures_updated]
      exact figuresAfter_sound h hratio
  · obtain rfl := Except.ok.inj hadd
    refine Table.forall_upsert (fun b hb => ?_) ⟨a, by simp, rfl, rfl, rfl⟩ fun b _ _ hb => hb
    obtain ⟨a', ha', hb⟩ := h.named b hb
    exact ⟨a', by simp [ha'], hb⟩
  · rw [hbuckets]
    split
    · rfl
    · next hne =>
      rcases List.mem_append.1 ha' with ha' | ha'
      · exact h.covered a' ha'
      · rw [List.mem_singleton.1 ha'] at hne
        exact absurd rfl hne
  · rw [hroutes]
    split
    · rfl
    · next hne =>
      rcases List.mem_append.1 ha' with ha' | ha'
      · exact h.routed a' ha'
      · rw [List.mem_singleton.1 ha'] at hne
        exact absurd rfl hne
  · rw [hroutes] at hr
    split at hr
    · next hk =>
      subst hk
      cases hfind : t.routes.find? a.route with
      | none =>
        rw [hfind] at hr
        obtain rfl := Option.some.inj hr
        refine ⟨⟨a, by simp, rfl, rfl, rfl⟩, fun a' ha' hroute => ?_⟩
        rcases List.mem_append.1 ha' with ha' | ha'
        · have hrouted := h.routed a' ha'
          rw [hroute, hfind] at hrouted
          cases hrouted
        · rw [List.mem_singleton.1 ha']
          exact String.le_refl _
      | some r₀ =>
        rw [hfind] at hr
        obtain rfl := Option.some.inj hr
        obtain ⟨⟨a₀, ha₀, hroute₀, hversion₀, hreserved₀⟩, hlatest⟩ := h.latest a.route r₀ hfind
        constructor
        · by_cases hle : r₀.lastRequestReservedAt ≤ a.reservedAt
          · exact ⟨a, by simp, rfl, by simp [CalibrationRoute.answered, hle], (max_eq_right hle).symm⟩
          · refine ⟨a₀, by simp [ha₀], hroute₀, ?_, ?_⟩
            · simp [CalibrationRoute.answered, hle, hversion₀]
            · rw [hreserved₀]
              exact (max_eq_left (not_le.1 hle).le).symm
        · intro a' ha' hroute
          rcases List.mem_append.1 ha' with ha' | ha'
          · exact (hlatest a' ha' hroute).trans (le_max_left _ _)
          · rw [List.mem_singleton.1 ha']
            exact le_max_right _ _
    · next hne =>
      obtain ⟨⟨a₀, ha₀, hroute₀⟩, hlatest⟩ := h.latest k r hr
      refine ⟨⟨a₀, by simp [ha₀], hroute₀⟩, fun a' ha' hroute => ?_⟩
      rcases List.mem_append.1 ha' with ha' | ha'
      · exact hlatest a' ha' hroute
      · rw [List.mem_singleton.1 ha'] at hroute
        exact absurd hroute.symm hne

/-- Its bucket ends with its ratio, and none falls by more than a step. -/
theorem steady_add (h : t.Records P as) (hadd : t.add P a updatedAt = .ok t') :
    t.Steady t' ∧ ∃ b ∈ t'.buckets, b.bucketId = a.bucketId P ∧ b.recentRatioWindow.getLast? = some a.ratio := by
  obtain ⟨hbuckets, -⟩ := find?_add h hadd
  constructor
  · intro b hb
    have hfind : t.buckets.find? b.bucketId = some b := Table.find?_eq_some_iff.2 ⟨hb, rfl⟩
    have hsound := h.sound b hb
    have hnew := hbuckets b.bucketId
    rw [hfind] at hnew
    by_cases hid : b.bucketId = a.bucketId P
    · rw [if_pos hid, Option.map_some, Option.getD_some] at hnew
      refine ⟨_, (Table.find?_eq_some_iff.1 hnew).1, rfl, ?_⟩
      obtain ⟨f, hload, -, hsafe⟩ := load_of_sound hsound
      have hexisting : f ∈ (t.buckets.find? (a.bucketId P)).bind TokenCalibration.load := by
        rw [← hid, hfind]
        exact hload
      obtain ⟨-, -, -, hstep⟩ := safeRatio_update ((t.buckets.find? (a.bucketId P)).bind TokenCalibration.load) a.ratio
      have hstep := hstep f hexisting
      have hbelow : b.safeRatio * (1 - TOKEN_CALIBRATION_MAX_DOWNWARD_STEP) ≤ tokenCalibrationMaxRatio :=
        (step_le hsound).trans hsound.greatest
      rw [hsafe, min_eq_right hbelow] at hstep
      exact hstep
    · rw [if_neg hid] at hnew
      exact ⟨b, (Table.find?_eq_some_iff.1 hnew).1, rfl, step_le hsound⟩
  · have hnew := hbuckets (a.bucketId P)
    rw [if_pos rfl] at hnew
    refine ⟨_, (Table.find?_eq_some_iff.1 hnew).1, (Table.find?_eq_some_iff.1 hnew).2, ?_⟩
    have hlast : (t.figuresAfter P a).recentRatioWindow.getLast? = some a.ratio := by
      simp only [Calibration.figuresAfter, calibrationUpdate]
      exact recentRatios_getLast? _ _
    cases t.buckets.find? (a.bucketId P) with
    | none => rw [Option.map_none, Option.getD_none, bucket_recentRatioWindow, hlast]
    | some b => rw [Option.map_some, Option.getD_some, TokenCalibration.updated_recentRatioWindow, hlast]

/-! ## Runs -/

/-- The sample, if it counts. -/
def CalibrationSample.accepted (s : CalibrationSample) : Option AcceptedSample :=
  match s.read with
  | .ok a => a
  | .error _ => none

/-- A ratio that counts is in bounds. -/
theorem inBounds_of_accepted {s : CalibrationSample} (h : s.accepted = some a) : InBounds a.ratio := by
  unfold CalibrationSample.accepted at h
  cases hread : s.read with
  | error e =>
    rw [hread] at h
    cases h
  | ok x =>
    rw [hread] at h
    obtain rfl : x = some a := h
    unfold CalibrationSample.read at hread
    dsimp only at hread
    split at hread
    · cases hread
    · split at hread
      · cases hread
      · next hratio =>
        obtain ⟨_, _, hread⟩ := Outcome.bind_eq_ok.1 hread
        obtain ⟨_, _, hread⟩ := Outcome.bind_eq_ok.1 hread
        obtain ⟨_, _, hread⟩ := Outcome.bind_eq_ok.1 hread
        obtain ⟨_, _, hread⟩ := Outcome.bind_eq_ok.1 hread
        obtain ⟨_, _, hread⟩ := Outcome.bind_eq_ok.1 hread
        obtain rfl := Option.some.inj (Except.ok.inj hread)
        exact not_not.1 hratio

/-- A sample that counts is added, any other leaves the tables. -/
theorem recordTokenCalibrationSample_cases (h : t.Records P as) (s : CalibrationSample) :
    (s.accepted = none ∧ (recordTokenCalibrationSample P t s).2 = t) ∨
      ∃ a t', s.accepted = some a ∧ t.add P a s.updatedAt = .ok t' ∧ recordTokenCalibrationSample P t s = (.ok (), t') := by
  unfold CalibrationSample.accepted recordTokenCalibrationSample
  cases s.read with
  | error e => exact .inl ⟨rfl, rfl⟩
  | ok x =>
    cases x with
    | none => exact .inl ⟨rfl, rfl⟩
    | some a => exact .inr ⟨a, _, rfl, add_ok h, by simp only [add_ok h]⟩

/-- What a call does to the tables. -/
def CalibrationStep (P : Platform) (t : Calibration) (s : CalibrationSample) : Prop :=
  t.Steady (recordTokenCalibrationSample P t s).2 ∧ ∀ a, s.accepted = some a →
    ∃ b ∈ (recordTokenCalibrationSample P t s).2.buckets, b.bucketId = a.bucketId P ∧
      b.recentRatioWindow.getLast? = some a.ratio

theorem records_step (h : t.Records P as) (s : CalibrationSample) :
    (recordTokenCalibrationSample P t s).2.Records P (as ++ s.accepted.toList) ∧ CalibrationStep P t s := by
  unfold CalibrationStep
  obtain ⟨haccepted, heq⟩ | ⟨a, t', haccepted, hadd, heq⟩ := recordTokenCalibrationSample_cases h s
  · rw [heq, haccepted, Option.toList_none, List.append_nil]
    exact ⟨h, .refl h.sound, fun a ha => absurd ha (by simp)⟩
  · rw [heq, haccepted, Option.toList_some]
    obtain ⟨hsteady, hnewest⟩ := steady_add h hadd
    refine ⟨records_add h (inBounds_of_accepted haccepted) hadd, hsteady, fun a' ha' => ?_⟩
    obtain rfl := Option.some.inj ha'
    exact hnewest

/-- What the tables record after a run, and what each call of it did. -/
theorem records_run (h : t.Records P as) (samples : List CalibrationSample) :
    (Machine.run (recordTokenCalibrationSample P) t samples).Records P
        (as ++ samples.filterMap CalibrationSample.accepted) ∧
      Machine.Along (recordTokenCalibrationSample P) (CalibrationStep P) t samples := by
  induction samples generalizing t as with
  | nil =>
    rw [List.filterMap_nil, List.append_nil]
    exact ⟨h, trivial⟩
  | cons s samples ih =>
    obtain ⟨hrecords, hstep⟩ := records_step h s
    obtain ⟨hrun, halong⟩ := ih hrecords
    refine ⟨?_, hstep, halong⟩
    rw [List.append_assoc] at hrun
    cases haccepted : s.accepted with
    | none =>
      rw [haccepted] at hrun
      rwa [List.filterMap_cons_none haccepted]
    | some a =>
      rw [haccepted] at hrun
      rwa [List.filterMap_cons_some haccepted]

/-- The buckets that a route may select, after the samples `as`. -/
structure Calibration.Selects (P : Platform) (t : Calibration) (as : List AcceptedSample) (a : AcceptedSample) : Prop where
  route : ∃ r ∈ t.routes, r.key = a.route ∧ r.lastProviderModelVersion = a.providerModelVersion
  only : ∀ b, t.selected a.route = some b → b ∈ t.buckets ∧ b.bucketId = a.bucketId P ∧
    b.route = a.route ∧ b.providerModelVersion = a.providerModelVersion
  bucket : (∀ a' ∈ as, a'.bucketId P = a.bucketId P →
      a'.route = a.route ∧ a'.providerModelVersion = a.providerModelVersion) →
    ∃ b, t.selected a.route = some b

/-- The row that the greatest reservation time selects. -/
theorem selects_of_records (h : t.Records P as) (ha : a ∈ as)
    (hgreatest : ∀ a' ∈ as, a'.route = a.route → a'.reservedAt ≤ a.reservedAt)
    (hdistinct : ∀ a' ∈ as, a'.route = a.route → a'.reservedAt = a.reservedAt → a' = a) : t.Selects P as a := by
  obtain ⟨r, hr⟩ := Option.isSome_iff_exists.1 (h.routed a ha)
  obtain ⟨⟨a₀, ha₀, hroute₀, hversion₀, hreserved₀⟩, hlatest⟩ := h.latest a.route r hr
  have hsame : a₀.reservedAt = a.reservedAt :=
    le_antisymm (hgreatest a₀ ha₀ hroute₀) (hreserved₀ ▸ hlatest a ha rfl)
  obtain rfl := hdistinct a₀ ha₀ hroute₀ hsame
  have hselected (b : TokenCalibration) (hb : t.selected a₀.route = some b) : b ∈ t.buckets ∧
      b.route = a₀.route ∧ b.providerModelVersion = a₀.providerModelVersion := by
    rw [Calibration.selected, hr, Option.bind_some] at hb
    have hp := List.find?_some hb
    simp only [Bool.and_eq_true, decide_eq_true_eq, ← hversion₀] at hp
    exact ⟨List.mem_of_find?_eq_some hb, hp⟩
  refine ⟨⟨r, (Table.find?_eq_some_iff.1 hr).1, (Table.find?_eq_some_iff.1 hr).2, hversion₀.symm⟩, fun b hb => ?_,
    fun hids => ?_⟩
  · obtain ⟨hmem, hroute, hversion⟩ := hselected b hb
    obtain ⟨a', ha', hid, hroute', hversion'⟩ := h.named b hmem
    refine ⟨hmem, ?_, hroute, hversion⟩
    rw [← hid, AcceptedSample.bucketId, AcceptedSample.bucketId, hroute', hroute, hversion', hversion]
  · obtain ⟨b, hb⟩ := Option.isSome_iff_exists.1 (h.covered a₀ ha)
    obtain ⟨hmem, hid⟩ := Table.find?_eq_some_iff.1 hb
    obtain ⟨a', ha', hid', hroute', hversion'⟩ := h.named b hmem
    obtain ⟨hroute, hversion⟩ := hids a' ha' (hid'.trans hid)
    rw [Calibration.selected, hr, Option.bind_some]
    refine Option.isSome_iff_exists.1 (List.find?_isSome.2 ⟨b, hmem, ?_⟩)
    simp [← hroute', hroute, ← hversion', hversion, hversion₀]

/-- What calibration keeps over a sequence of samples. -/
structure CalibrationSafe (P : Platform) (samples : List CalibrationSample) : Prop where
  /-- windows are bounded, safe ratios are in bounds and above what they should be -/
  sound : ∀ b ∈ (Machine.run (recordTokenCalibrationSample P) .empty samples).buckets, b.figures.Sound
  /-- no safe ratio falls by more than a step, and a sample's ratio is the newest of its bucket -/
  steady : Machine.Along (recordTokenCalibrationSample P) (CalibrationStep P) .empty samples
  /-- the safe ratio of the bucket that is selected is used -/
  admitted : ∀ k key b (base : ℤ), k.controlled = .ok key →
    (Machine.run (recordTokenCalibrationSample P) .empty samples).selected key = some b →
    calibratedInputTokens (Machine.run (recordTokenCalibrationSample P) .empty samples) k base =
      .ok (⌈((max 0 base : ℤ) : ℚ) * b.safeRatio⌉, some b.providerModelVersion, b.safeRatio)
  /-- the bucket that is selected is that of the request reserved last -/
  selected : ∀ a ∈ samples.filterMap CalibrationSample.accepted,
    (∀ a' ∈ samples.filterMap CalibrationSample.accepted, a'.route = a.route → a'.reservedAt ≤ a.reservedAt) →
    (∀ a' ∈ samples.filterMap CalibrationSample.accepted, a'.route = a.route → a'.reservedAt = a.reservedAt → a' = a) →
    (Machine.run (recordTokenCalibrationSample P) .empty samples).Selects P
      (samples.filterMap CalibrationSample.accepted) a

/-- **Calibration is safe over every sequence of samples.** -/
theorem calibration_safe (P : Platform) (samples : List CalibrationSample) : CalibrationSafe P samples := by
  obtain ⟨hrecords, halong⟩ := records_run (P := P) Calibration.empty_records samples
  rw [List.nil_append] at hrecords
  refine ⟨hrecords.sound, halong, fun k key b base hkey hselected => ?_, fun a ha hgreatest hdistinct =>
    selects_of_records hrecords ha hgreatest hdistinct⟩
  have hsound : b.figures.Sound := by
    obtain ⟨r, -, hb⟩ := Option.bind_eq_some_iff.1 hselected
    exact hrecords.sound b (List.mem_of_find?_eq_some hb)
  have hbounds : tokenCalibrationMinRatio ≤ b.safeRatio ∧ b.safeRatio ≤ tokenCalibrationMaxRatio :=
    ⟨hsound.least, hsound.greatest⟩
  simp only [calibratedInputTokens, hkey, bind, Except.bind, hselected, hbounds, and_self, not_true_eq_false, if_false, pure,
    Except.pure]

end Xauusd.Scheduler
