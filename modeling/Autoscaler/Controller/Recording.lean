import Autoscaler.Controller.Replay

/-! Recordings: their validation, the forecast of each cycle, and the replay that compares every
mode but reports nothing unless the recorded decisions reproduce. -/
namespace Autoscaler.Controller

/-- The library functions of a replay: `math.Pow`, and the verbs that messages print values with. -/
structure ReplayLibrary (K : Type) where
  pow : K → K → K
  formatFloat : K → String
  formatTime : ℤ → String
  formatRFC3339Nano : ℤ → String

structure RecordedConfig extends ReplayConfig where
  alphaPercent : ℤ
  windowSeconds : ℤ
  horizonSeconds : ℤ
  deriving DecidableEq, Repr

structure ReplaySample (K : Type) where
  timestamp : ℤ
  value : Option K
  deriving DecidableEq, Repr

/-- The recorded outcome; a missing field is not compared. -/
structure ReplayExpected (K : Type) where
  decisionCPU : Option K
  boundedPrediction : Option K
  desiredReplicas : Option ℤ
  finalDesired : Option ℤ
  skipReason : Option String
  stabilized : Option Bool
  rawPrediction : Option K
  coldStartProtection : Option Bool
  protectedUntil : Option ℤ
  historyEntries : Option ℤ
  historyOldestAt : Option ℤ
  deriving DecidableEq, Repr

/-- Missing samples are a nil slice, which an explicit empty list is not. -/
structure RecordedCycle (K : Type) extends ReplayCycle K where
  predictionSource : String
  rawPrediction : Option K
  samples : Option (List (ReplaySample K))
  actualMode : DecisionMode
  expected : ReplayExpected K
  deriving DecidableEq, Repr

structure ReplayInput (K : Type) where
  schemaVersion : ℤ
  policyHistoryCompleteness : String
  config : RecordedConfig
  cycles : List (RecordedCycle K)
  deriving DecidableEq, Repr

structure ReplayCycleResult (K : Type) where
  decidedAt : ℤ
  predictionSource : String
  actualMode : DecisionMode
  rawPrediction : K
  modes : List (DecisionMode × ReplayModeResult K)
  deriving DecidableEq, Repr

structure ReplayReport (K : Type) where
  schemaVersion : ℤ
  verified : Bool
  replicaInput : String
  cycles : List (ReplayCycleResult K)
  deriving DecidableEq, Repr

/-- An error of the replay, and whether it wraps `ErrReplayInvalidInput`. -/
structure ReplayErr where
  invalidInput : Bool
  message : String
  deriving DecidableEq, Repr

def ReplayErr.invalid (detail : String) : ReplayErr := ⟨true, "invalid replay input: " ++ detail⟩

/-- `fmt.Errorf("context: %w", err)`. -/
def ReplayErr.annotate (context : String) (err : ReplayErr) : ReplayErr :=
  ⟨err.invalidInput, context ++ ": " ++ err.message⟩

def replayComputedHistory : String := "computed-history"

def replayRecordedForecast : String := "recorded-forecast"

def cycleNumber (i : ℕ) : String := "cycle " ++ toString (i + 1)

section Validation

def validateReplayConfig (config : RecordedConfig) : Except String Unit :=
  if config.minReplicas.all
      (fun minReplicas => minReplicas < 0 ∨ config.maxReplicas < minReplicas) ∨
      config.maxReplicas < 1 ∨ config.targetCPU < 1 ∨ 100 < config.targetCPU then
    .error "explicit valid minReplicas, maxReplicas and targetCPU are required"
  else if config.alphaPercent < 1 ∨ 99 < config.alphaPercent ∨ config.windowSeconds < 15 ∨
      3600 < config.windowSeconds ∨ config.horizonSeconds ≤ 0 ∨ 3600 < config.horizonSeconds ∨
      config.stabilizationSeconds.all (· < 0) then
    .error "invalid or missing prediction/stabilization configuration"
  else .ok ()

variable {K : Type} [Field K] [LinearOrder K]

def validateReplayCycle (cycle : RecordedCycle K) : Except String Unit :=
  if cycle.observedReplicas.all (· < 0) ∨ cycle.requestedReplicas.all (· < 0) ∨
      cycle.currentCPU.all (· < 0) then
    .error "explicit nonnegative observedReplicas, requestedReplicas and currentCPU are required"
  else if cycle.actualMode ∉ replayModes then
    .error "actualMode must be Current, Predictive or Hybrid"
  else if cycle.predictionSource ≠ replayComputedHistory ∧
      cycle.predictionSource ≠ replayRecordedForecast then
    .error "predictionSource must be computed-history or recorded-forecast"
  else if cycle.expected.decisionCPU = none ∨ cycle.expected.boundedPrediction = none ∨
      cycle.expected.desiredReplicas = none ∨ cycle.expected.finalDesired = none ∨
      cycle.expected.skipReason = none ∨ cycle.expected.stabilized = none then
    .error ("expected requires decisionCPU, boundedPrediction, desiredReplicas, finalDesired, " ++
      "skipReason and stabilized")
  else .ok ()

def validateReplayCycles (actualMode : DecisionMode) :
    ℕ → Option ℤ → List (RecordedCycle K) → Except String Unit
  | _, _, [] => .ok ()
  | i, previous, cycle :: rest =>
    if Time.isZero cycle.decidedAt ∨ previous.any (fun p => cycle.decidedAt ≤ p) then
      .error (cycleNumber i ++ ": nonzero strictly increasing decision timestamps are required")
    else if cycle.actualMode ≠ actualMode then
      .error (cycleNumber i ++
        ": one recording must retain the same actualMode and policy history identity")
    else
      match validateReplayCycle cycle with
      | .error detail => .error (cycleNumber i ++ ": " ++ detail)
      | .ok () => validateReplayCycles actualMode (i + 1) (some cycle.decidedAt) rest

def validateReplayInput (input : ReplayInput K) : Except String Unit :=
  let required := "schemaVersion 1, complete policy history from its creation, and at least one " ++
    "cycle are required"
  match input.cycles with
  | [] => .error required
  | first :: _ =>
    if input.schemaVersion ≠ 1 ∨ input.policyHistoryCompleteness ≠ "complete" then .error required
    else
      match validateReplayConfig input.config with
      | .error detail => .error detail
      | .ok () => validateReplayCycles first.actualMode 0 none input.cycles

end Validation

section Comparison

def mismatchText (field got expected : String) : String :=
  "mismatch " ++ field ++ ": got " ++ got ++ ", expected " ++ expected

/-- `replayMismatch`, and `replayTimeMismatch` of instants. -/
def replayMismatch {α : Type} [DecidableEq α] (format : α → String) (field : String) (got : α) :
    Option α → Option String
  | none => none
  | some want => if got ≠ want then some (mismatchText field (format got) (format want)) else none

variable {K : Type} [Field K] [LinearOrder K]

def replayFloatEqual (got want : K) : Bool :=
  decide (|got - want| ≤ 1 / 1000000000 * max 1 |want|)

def replayFloatMismatch (lib : ReplayLibrary K) (field : String) (got : K) :
    Option K → Option String
  | none => none
  | some want =>
    if !replayFloatEqual got want then
      some (mismatchText field (lib.formatFloat got) (lib.formatFloat want))
    else none

/-- The mismatches of one mode's result, whose oldest retained entry is at `oldest`. -/
def replayMismatches (lib : ReplayLibrary K) (actual : ReplayModeResult K) (oldest : ℤ)
    (expected : ReplayExpected K) : List String :=
  [replayFloatMismatch lib "decisionCPU" actual.decisionCPU expected.decisionCPU,
    replayFloatMismatch lib "boundedPrediction" actual.boundedPrediction
      expected.boundedPrediction,
    replayMismatch toString "desiredReplicas" actual.desiredReplicas expected.desiredReplicas,
    replayMismatch toString "finalDesired" actual.finalDesired expected.finalDesired,
    replayMismatch id "skipReason" actual.skipReason.text expected.skipReason,
    replayMismatch toString "stabilized" actual.stabilized expected.stabilized,
    replayMismatch toString "coldStartProtection" actual.coldStartProtection
      expected.coldStartProtection,
    replayMismatch toString "historyEntries" (actual.historyEntries : ℤ) expected.historyEntries,
    replayMismatch lib.formatTime "protectedUntil" actual.protectedUntil expected.protectedUntil,
    replayMismatch lib.formatTime "historyOldestAt" oldest expected.historyOldestAt].reduceOption

/-- `errors.Join` of the mismatches. -/
def verifyReplayMode (lib : ReplayLibrary K) (actual : ReplayModeResult K) (oldest : ℤ)
    (expected : ReplayExpected K) : Except ReplayErr Unit :=
  match replayMismatches lib actual oldest expected with
  | [] => .ok ()
  | mismatches => .error ⟨false, "\n".intercalate mismatches⟩

end Comparison

section Forecast

variable {K : Type} [Field K] [LinearOrder K]

def validateReplaySampleList (config : RecordedConfig) (latest : ℤ) :
    Option ℤ → List (ReplaySample K) → Except String Unit
  | _, [] => .ok ()
  | previous, sample :: rest =>
    if Time.isZero sample.timestamp ∨ sample.value.all (· < 0) ∨
        sample.timestamp < latest - config.windowSeconds * second then
      .error ("each observation requires a timestamp and nonnegative value within the history " ++
        "window")
    else if previous.any (fun p => sample.timestamp - p < 15 * second) then
      .error "observations must be ordered and at least 15 seconds apart"
    else validateReplaySampleList config latest (some sample.timestamp) rest

/-- `none` is a nil dereference. -/
def validateReplaySamples (config : RecordedConfig) (cycle : RecordedCycle K)
    (samples : List (ReplaySample K)) : Option (Except String Unit) :=
  match samples.getLast? with
  | none => some (.error "computed-history requires at least two complete observations")
  | some latest =>
    if samples.length < 2 then
      some (.error "computed-history requires at least two complete observations")
    else if cycle.decidedAt < latest.timestamp ∨
        MetricsProvider.defaultMaxSampleAge < cycle.decidedAt - latest.timestamp then
      some (.error ("latest observation must not be future or older than the controller " ++
        "observation age limit"))
    else
      match validateReplaySampleList config latest.timestamp none samples with
      | .error detail => some (.error detail)
      | .ok () => do
        let value ← latest.value
        let currentCPU ← cycle.currentCPU
        if !replayFloatEqual value currentCPU then
          return .error "currentCPU must match the complete observation history tail"
        else return .ok ()

def ReplaySample.toSample (sample : ReplaySample K) : Option (Predictor.Sample K) :=
  sample.value.map fun value => ⟨sample.timestamp, .finite value⟩

/-- The forecast that the samples of a cycle give. `none` is a panic. -/
def computedForecast (lib : ReplayLibrary K) (config : RecordedConfig) (cycle : RecordedCycle K) :
    Option (Except ReplayErr K) := do
  match ← validateReplaySamples config cycle (cycle.samples.getD []) with
  | .error detail => return .error (.invalid detail)
  | .ok () =>
    let samples ← (cycle.samples.getD []).mapM ReplaySample.toSample
    match ← Predictor.predict lib.pow samples
        ⟨.finite ((config.alphaPercent : K) / (100 : ℤ)), config.horizonSeconds * second⟩ with
    | .error err => return .error (.invalid ("prediction: " ++ err.message))
    | .ok (.finite raw) => return .ok raw
    | .ok _ => return .error (.invalid "nonfinite computed forecast")

/-- A forecast passes unless it differs from one of the provided values. -/
def checkForecast (lib : ReplayLibrary K) (raw : K) :
    List (String × Option K) → Except ReplayErr K
  | [] => .ok raw
  | (field, want) :: rest =>
    match replayFloatMismatch lib field raw want with
    | some mismatch => .error ⟨false, mismatch⟩
    | none => checkForecast lib raw rest

/-- The forecast of one cycle: the recorded one, or the one its samples give. `none` is a panic. -/
def replayPrediction (lib : ReplayLibrary K) (config : RecordedConfig) (cycle : RecordedCycle K) :
    Option (Except ReplayErr K) :=
  if cycle.predictionSource = replayRecordedForecast then
    match cycle.rawPrediction, cycle.samples with
    | some raw, none =>
      some (checkForecast lib raw [("expected.rawPrediction", cycle.expected.rawPrediction)])
    | _, _ => some (.error (.invalid "recorded-forecast requires rawPrediction and no samples"))
  else do
    match ← computedForecast lib config cycle with
    | .error err => return .error err
    | .ok raw =>
      return checkForecast lib raw [("rawPrediction", cycle.rawPrediction),
        ("expected.rawPrediction", cycle.expected.rawPrediction)]

end Forecast

section Report

variable {K : Type} [Field K] [LinearOrder K] [FloorRing K]

def ReplayModeResult.zero : ReplayModeResult K :=
  ⟨0, 0, 0, false, false, 0, 0, .none, false, false, 0, 0, some 0⟩

/-- One cycle of the report. `none` is a panic: a nil dereference, or an index into an empty
history. -/
def replayCycleResult (lib : ReplayLibrary K) (config : RecordedConfig) (i : ℕ)
    (cycle : RecordedCycle K) (history : History) :
    Option (Except ReplayErr (ReplayCycleResult K × History)) := do
  match ← replayPrediction lib config cycle with
  | .error err => return .error (err.annotate (cycleNumber i))
  | .ok raw =>
    let (modes, history) ←
      replayCycle config.toReplayConfig cycle.toReplayCycle raw replayModes history
    if modes.any fun m => m.2.historyOldestAt.isNone then none
    let actual := (modes.lookup cycle.actualMode).getD .zero
    let oldest ← actual.historyOldestAt
    match verifyReplayMode lib actual oldest cycle.expected with
    | .error err => return .error (err.annotate (cycleNumber i ++ " at " ++
        lib.formatRFC3339Nano cycle.decidedAt ++ " actual mode " ++ cycle.actualMode.value))
    | .ok () => return .ok (⟨cycle.decidedAt, cycle.predictionSource, cycle.actualMode, raw, modes⟩,
        history)

/-- The loop of `ReplayDecisions` over the cycles, from index `i`. -/
def replayCycles (lib : ReplayLibrary K) (config : RecordedConfig) :
    ℕ → List (RecordedCycle K) → History → Option (Except ReplayErr (List (ReplayCycleResult K)))
  | _, [], _ => some (.ok [])
  | i, cycle :: rest, history => do
    match ← replayCycleResult lib config i cycle history with
    | .error err => return .error err
    | .ok (result, history) =>
      match ← replayCycles lib config (i + 1) rest history with
      | .error err => return .error err
      | .ok results => return .ok (result :: results)

/-- The JSON decoder over one input: the document, and whether nothing follows it. -/
structure ReplayDecoder (Input K : Type) where
  decode : Input → Except String (ReplayInput K)
  exhausted : Input → Bool

/-- `ReplayDecisions`. -/
def ReplayDecoder.replayDecisions {Input : Type} (decoder : ReplayDecoder Input K)
    (lib : ReplayLibrary K) (input : Input) : Option (Except ReplayErr (ReplayReport K)) :=
  match decoder.decode input with
  | .error detail => some (.error (.invalid detail))
  | .ok recording =>
    if !decoder.exhausted input then
      some (.error (.invalid "expected exactly one JSON document"))
    else
      match validateReplayInput recording with
      | .error detail => some (.error (.invalid detail))
      | .ok () => do
        match ← replayCycles lib recording.config 0 recording.cycles fun _ => none with
        | .error err => return .error err
        | .ok cycles => return .ok ⟨1, true, "fixed-observed-and-requested", cycles⟩

end Report

section Valid

theorem ok_of_unless {ε α : Type*} {rejected : Prop} [Decidable rejected] {err : ε}
    {rest : Except ε α} {a : α} (h : (if rejected then .error err else rest) = .ok a) :
    ¬ rejected ∧ rest = .ok a := by
  by_cases hr : rejected
  · rw [if_pos hr] at h
    cases h
  · rw [if_neg hr] at h
    exact ⟨hr, h⟩

theorem some_of_not_all {α : Type*} {o : Option α} {p : α → Bool} (h : ¬ o.all p = true) :
    ∃ a, o = some a ∧ p a = false := by
  cases o with
  | none => exact absurd rfl h
  | some a => exact ⟨a, rfl, by simpa using h⟩

structure ValidReplayConfig (config : ReplayConfig) (minimum seconds : ℤ) : Prop where
  minReplicas : config.minReplicas = some minimum
  stabilizationSeconds : config.stabilizationSeconds = some seconds
  policy : ValidPolicy minimum config.maxReplicas config.targetCPU seconds

theorem validateReplayConfig_ok {config : RecordedConfig}
    (h : validateReplayConfig config = .ok ()) :
    ∃ minimum seconds, ValidReplayConfig config.toReplayConfig minimum seconds := by
  unfold validateReplayConfig at h
  obtain ⟨hbounds, h⟩ := ok_of_unless h
  obtain ⟨hprediction, -⟩ := ok_of_unless h
  push Not at hbounds hprediction
  obtain ⟨minimum, hminimum, hrange⟩ := some_of_not_all (by simpa using hbounds.1)
  obtain ⟨seconds, hseconds, hnonneg⟩ :=
    some_of_not_all (by simpa using hprediction.2.2.2.2.2.2)
  have hrange : 0 ≤ minimum ∧ minimum ≤ config.maxReplicas := by simpa using hrange
  exact ⟨minimum, seconds, hminimum, hseconds,
    ⟨hrange.1, hrange.2, by omega, by omega, by omega, by simpa using hnonneg⟩⟩

variable {K : Type} [Field K] [LinearOrder K]

structure ValidReplayCycle (cycle : ReplayCycle K) (observed requested : ℤ) (cpu : K) : Prop where
  observedReplicas : cycle.observedReplicas = some observed
  requestedReplicas : cycle.requestedReplicas = some requested
  currentCPU : cycle.currentCPU = some cpu
  observed_nonneg : 0 ≤ observed
  cpu_nonneg : 0 ≤ cpu

theorem validateReplayCycle_ok {cycle : RecordedCycle K} (h : validateReplayCycle cycle = .ok ()) :
    (∃ observed requested cpu, ValidReplayCycle cycle.toReplayCycle observed requested cpu) ∧
      cycle.actualMode ∈ replayModes := by
  unfold validateReplayCycle at h
  obtain ⟨hinputs, h⟩ := ok_of_unless h
  obtain ⟨hmode, -⟩ := ok_of_unless h
  push Not at hinputs
  obtain ⟨observed, hobserved, hnonneg⟩ := some_of_not_all (by simpa using hinputs.1)
  obtain ⟨requested, hrequested, -⟩ := some_of_not_all (by simpa using hinputs.2.1)
  obtain ⟨cpu, hcpu, hcpu_nonneg⟩ := some_of_not_all (by simpa using hinputs.2.2)
  exact ⟨⟨observed, requested, cpu, hobserved, hrequested, hcpu, by simpa using hnonneg,
    by simpa using hcpu_nonneg⟩, not_not.mp hmode⟩

theorem validateReplayCycles_ok {actualMode : DecisionMode} {i : ℕ} {previous : Option ℤ}
    {cycles : List (RecordedCycle K)}
    (h : validateReplayCycles actualMode i previous cycles = .ok ()) :
    ∀ cycle ∈ cycles, validateReplayCycle cycle = .ok () := by
  induction cycles generalizing i previous with
  | nil => exact fun _ h => by cases h
  | cons cycle rest ih =>
    unfold validateReplayCycles at h
    obtain ⟨-, h⟩ := ok_of_unless h
    obtain ⟨-, h⟩ := ok_of_unless h
    cases hcycle : validateReplayCycle cycle with
    | error detail =>
      rw [hcycle] at h
      cases h
    | ok =>
      rw [hcycle] at h
      exact List.forall_mem_cons.mpr ⟨hcycle, ih h⟩

theorem validateReplayInput_ok {input : ReplayInput K} (h : validateReplayInput input = .ok ()) :
    validateReplayConfig input.config = .ok () ∧
      ∀ cycle ∈ input.cycles, validateReplayCycle cycle = .ok () := by
  unfold validateReplayInput at h
  cases hcycles : input.cycles with
  | nil =>
    rw [hcycles] at h
    cases h
  | cons first rest =>
    rw [hcycles] at h
    obtain ⟨-, h⟩ := ok_of_unless h
    cases hconfig : validateReplayConfig input.config with
    | error detail =>
      rw [hconfig] at h
      cases h
    | ok =>
      rw [hconfig] at h
      exact ⟨rfl, validateReplayCycles_ok h⟩

/-- Accepted samples have nonnegative values and lie 15s apart. -/
theorem validateReplaySampleList_spaced {config : RecordedConfig} {latest : ℤ}
    {previous : Option ℤ} {samples : List (ReplaySample K)}
    (h : validateReplaySampleList config latest previous samples = .ok ()) :
    (∀ sample ∈ samples, ∃ value, sample.value = some value ∧ 0 ≤ value) ∧
      (previous.toList ++ samples.map ReplaySample.timestamp).Pairwise
        fun a b => a + 15 * second ≤ b := by
  induction samples generalizing previous with
  | nil => cases previous <;> simp
  | cons sample rest ih =>
    unfold validateReplaySampleList at h
    obtain ⟨hsample, h⟩ := ok_of_unless h
    obtain ⟨hspaced, h⟩ := ok_of_unless h
    obtain ⟨hvalues, htimes⟩ := ih h
    push Not at hsample
    obtain ⟨value, hvalue, hnonneg⟩ := some_of_not_all (by simpa using hsample.2.1)
    have hnonneg : 0 ≤ value := by simpa using hnonneg
    refine ⟨List.forall_mem_cons.mpr ⟨⟨value, hvalue, hnonneg⟩, hvalues⟩, ?_⟩
    cases previous with
    | none => exact htimes
    | some p =>
      have hge : 15 * second ≤ sample.timestamp - p := by simpa using hspaced
      have hpos : (0 : ℤ) < 15 * second := by decide
      have hle : p + 15 * second ≤ sample.timestamp := by omega
      refine List.pairwise_cons.mpr ⟨fun t ht => ?_, htimes⟩
      rcases List.mem_cons.mp ht with rfl | ht
      · exact hle
      · have hlater := (List.pairwise_cons.mp htimes).1 t ht
        omega

theorem validateReplaySampleList_ok {config : RecordedConfig} {latest : ℤ}
    {samples : List (ReplaySample K)}
    (h : validateReplaySampleList config latest none samples = .ok ()) :
    (∀ sample ∈ samples, ∃ value, sample.value = some value ∧ 0 ≤ value) ∧
      (samples.map ReplaySample.timestamp).Pairwise (· < ·) := by
  obtain ⟨hvalues, htimes⟩ := validateReplaySampleList_spaced h
  have hpos : (0 : ℤ) < 15 * second := by decide
  exact ⟨hvalues, htimes.imp fun hle => by omega⟩

end Valid

end Autoscaler.Controller
