import Autoscaler.Controller.DecisionBounds
import Autoscaler.Controller.MetricsSafety
import Autoscaler.Controller.ReplayReport
import Autoscaler.Predictor.DampedForecast

/-! Validated inputs keep the arithmetic of a decision in range, live and in a replay. -/
namespace Autoscaler.Controller

open MetricsProvider

section Pipeline

variable {K : Type} [Field K] [LinearOrder K]

/-- What both validators guarantee of the samples of a forecast. -/
structure ValidSeries (samples : List (Predictor.Sample K)) : Prop where
  many : 2 ≤ samples.length
  spaced : (samples.map Predictor.Sample.timestamp).Pairwise fun a b => a + 15 * second ≤ b
  values : ∀ sample ∈ samples, ∃ value, sample.value = .finite value ∧ 0 ≤ value

/-- The arithmetic from the samples to the recommendation stays in range. -/
structure PipelineSafe [FloorRing K] (pow : K → K → K) (samples : List (Predictor.Sample K))
    (cfg : Predictor.EWMAConfig K) (currentCPU : K) (target minimum maximum : ℤ) : Prop where
  step : 15 * second ≤ Predictor.inferredStep samples
  lookBack : 1 ≤ Predictor.lookBack samples cfg.horizon ∧
    Predictor.lookBack samples cfg.horizon ≤ (samples.length : ℤ) - 1
  target_pos : 0 < target
  decision : ∃ raw, Predictor.predict pow samples cfg = some (.ok (.finite raw)) ∧
    (0 ≤ capPrediction raw currentCPU ∧ capPrediction raw currentCPU ≤ 13 / 10 * currentCPU) ∧
    ∀ (mode : DecisionMode) (observed : ℤ),
      let signal := (selectDecisionSignal mode currentCPU (capPrediction raw currentCPU) target).2
      0 ≤ signal ∧
      max minimum 1 ≤ computeDesiredReplicas observed signal target minimum maximum ∧
      computeDesiredReplicas observed signal target minimum maximum ≤ maximum

variable [IsStrictOrderedRing K]

theorem capPrediction_bounds (raw : K) {currentCPU : K} (h : 0 ≤ currentCPU) :
    0 ≤ capPrediction raw currentCPU ∧ capPrediction raw currentCPU ≤ 13 / 10 * currentCPU := by
  have hceiling : 0 ≤ 13 / 10 * currentCPU := mul_nonneg (by norm_num) h
  have hcomm : currentCPU * maxLeadFactor = 13 / 10 * currentCPU := mul_comm _ _
  unfold capPrediction
  rw [hcomm]
  dsimp only
  split_ifs with hneg hcap
  · exact ⟨le_rfl, hceiling⟩
  · exact ⟨hceiling, le_rfl⟩
  · exact ⟨not_lt.mp hneg, not_lt.mp hcap⟩

omit [IsStrictOrderedRing K] in
/-- Every mode selects a nonnegative signal from nonnegative values. -/
theorem selectDecisionSignal_nonneg (mode : DecisionMode) {current predicted : K}
    (hcurrent : 0 ≤ current) (hpredicted : 0 ≤ predicted) (target : ℤ) :
    0 ≤ (selectDecisionSignal mode current predicted target).2 := by
  cases mode with
  | current => exact hcurrent
  | hybrid => exact hcurrent.trans (le_max_left _ _)
  | unset => exact hpredicted
  | predictive => exact hpredicted
  | unknown value => exact hpredicted

theorem alpha_bounds {alphaPercent : ℤ} (h : 1 ≤ alphaPercent ∧ alphaPercent ≤ 99) :
    (0 : K) < (alphaPercent : K) / (100 : ℤ) ∧ (alphaPercent : K) / (100 : ℤ) < 1 := by
  have hpos : (0 : K) < (100 : ℤ) := by norm_num
  constructor
  · apply div_pos _ hpos
    exact_mod_cast (show 0 < alphaPercent by omega)
  · rw [div_lt_one hpos]
    exact_mod_cast (show alphaPercent < 100 by omega)

variable [FloorRing K] {samples : List (Predictor.Sample K)} {alpha : K} {horizon : ℤ}
  {currentCPU : K} {target minimum maximum seconds : ℤ}

/-- A validated series and a validated policy are all that the arithmetic needs. -/
theorem ValidSeries.pipelineSafe (h : ValidSeries samples) (pow : K → K → K)
    (halpha : 0 < alpha ∧ alpha < 1) (hhorizon : 0 ≤ horizon) (hcpu : 0 ≤ currentCPU)
    (hpolicy : ValidPolicy minimum maximum target seconds) :
    PipelineSafe pow samples ⟨.finite alpha, horizon⟩ currentCPU target minimum maximum := by
  have hstep := Predictor.le_inferredStep h.many (by decide) h.spaced
  have hpositive : 0 < Predictor.inferredStep samples := lt_of_lt_of_le (by decide) hstep
  have hfinite : ∀ sample ∈ samples, ∃ value, sample.value = .finite value := by
    intro sample hs
    obtain ⟨value, hvalue, -⟩ := h.values sample hs
    exact ⟨value, hvalue⟩
  obtain ⟨values, hlen, heq⟩ := Predictor.exists_finiteSeries hfinite
  have htimes : (samples.map Predictor.Sample.timestamp).length = values.length := by
    rw [List.length_map, hlen]
  have hmany : 2 ≤ values.length := hlen.symm ▸ h.many
  have hpredict := Predictor.predict_finiteSeries pow htimes hmany (heq ▸ hpositive) halpha.1
    halpha.2 hhorizon
  rw [← heq] at hpredict
  have hcap := fun raw => capPrediction_bounds raw hcpu
  have hbounds : max minimum 1 ≤ maximum := max_le hpolicy.minimum_le hpolicy.maximum_pos
  refine ⟨hstep, ⟨Predictor.lookBack_pos h.many _, Predictor.lookBack_le _ _⟩,
    lt_of_lt_of_le zero_lt_one hpolicy.target_pos, _, hpredict, hcap _, fun mode observed => ?_⟩
  refine ⟨selectDecisionSignal_nonneg mode hcpu (hcap _).1 target, ?_, ?_⟩
  · rw [computeDesiredReplicas_eq]
    exact le_clampReplicas _ _ hbounds _
  · rw [computeDesiredReplicas_eq]
    exact clampReplicas_le _ _ _

end Pipeline

section Live

variable {K : Type} [Field K] [LinearOrder K]

theorem validateSamples_spaced {history : CPUHistory K} {window : ℤ}
    {previous : Option (Predictor.Sample K)} {samples : List (Predictor.Sample K)}
    (h : validateSamples history window previous samples = .ok ()) :
    (∀ sample ∈ samples, ∃ value, sample.value = .finite value ∧ 0 ≤ value) ∧
      ((previous.toList ++ samples).map Predictor.Sample.timestamp).Pairwise
        fun a b => a + 15 * second ≤ b := by
  induction samples generalizing previous with
  | nil => cases previous <;> simp
  | cons sample rest ih =>
    unfold validateSamples at h
    obtain ⟨hsample, h⟩ := ok_of_unless h
    obtain ⟨hspaced, h⟩ := ok_of_unless h
    obtain ⟨hvalues, htimes⟩ := ih h
    have hvalue : ∃ value, sample.value = .finite value ∧ 0 ≤ value := by
      cases hv : sample.value with
      | finite value =>
        simp [unusableSample, hv] at hsample
        exact ⟨value, rfl, hsample.1.1.1⟩
      | nan => simp [unusableSample, hv] at hsample
      | inf negative => simp [unusableSample, hv] at hsample
    refine ⟨List.forall_mem_cons.mpr ⟨hvalue, hvalues⟩, ?_⟩
    cases previous with
    | none => exact htimes
    | some p =>
      have hge : 15 * second ≤ sample.timestamp - p.timestamp := by simpa using hspaced
      have hpos : (0 : ℤ) < 15 * second := by decide
      refine List.pairwise_cons.mpr ⟨fun t ht => ?_, htimes⟩
      rcases List.mem_cons.mp ht with rfl | ht
      · omega
      · have hlater := (List.pairwise_cons.mp htimes).1 t ht
        omega

/-- An accepted history has a valid series that ends with its latest sample. -/
theorem validateCPUHistory_ok {history : CPUHistory K} {now window : ℤ}
    (h : validateCPUHistory history now window = .ok ()) :
    ValidSeries history.samples ∧ ∃ last, history.samples.getLast? = some last := by
  unfold validateCPUHistory at h
  cases hlast : history.samples.getLast? with
  | none =>
    rw [hlast] at h
    cases h
  | some last =>
    rw [hlast] at h
    obtain ⟨-, h⟩ := ok_of_unless h
    obtain ⟨-, h⟩ := ok_of_unless h
    obtain ⟨-, h⟩ := ok_of_unless h
    cases hsamples : validateSamples history window none history.samples with
    | error err =>
      rw [hsamples] at h
      cases h
    | ok =>
      rw [hsamples] at h
      obtain ⟨-, h⟩ := ok_of_unless h
      obtain ⟨hmany, -⟩ := ok_of_unless h
      obtain ⟨hvalues, hspaced⟩ := validateSamples_spaced hsamples
      exact ⟨⟨not_lt.mp hmany, hspaced, hvalues⟩, last, rfl⟩

end Live

section Recorded

variable {K : Type} [Field K] [LinearOrder K] {config : RecordedConfig} {cycle : RecordedCycle K}

theorem validateReplayConfig_prediction (h : validateReplayConfig config = .ok ()) :
    (1 ≤ config.alphaPercent ∧ config.alphaPercent ≤ 99) ∧ 0 < config.horizonSeconds := by
  unfold validateReplayConfig at h
  obtain ⟨-, h⟩ := ok_of_unless h
  obtain ⟨hprediction, -⟩ := ok_of_unless h
  push Not at hprediction
  omega

/-- Accepted samples convert to a valid series whose tail the recorded CPU is close to. -/
theorem validateReplaySamples_ok {samples : List (ReplaySample K)}
    (h : validateReplaySamples config cycle samples = some (.ok ())) :
    ∃ converted last lastValue cpu, samples.mapM ReplaySample.toSample = some converted ∧
      ValidSeries converted ∧ samples.getLast? = some last ∧ last.value = some lastValue ∧
      cycle.currentCPU = some cpu ∧ Close lastValue cpu := by
  unfold validateReplaySamples at h
  cases hlast : samples.getLast? with
  | none =>
    rw [hlast] at h
    cases h
  | some latest =>
    rw [hlast] at h
    dsimp only at h
    split_ifs at h with hmany hfresh
    · cases h
    · cases h
    · cases hlist : validateReplaySampleList config latest.timestamp none samples with
      | error detail =>
        rw [hlist] at h
        cases h
      | ok =>
        obtain ⟨hvalues, hspaced⟩ := validateReplaySampleList_spaced hlist
        obtain ⟨converted, hconverted, htimes, hfinite⟩ := toSamples_total hvalues
        obtain ⟨lastValue, hvalue, -⟩ := hvalues latest (List.mem_of_getLast? hlast)
        have hlength : converted.length = samples.length := by
          simpa using congrArg List.length htimes
        simp only [hlist, hvalue, Option.bind_eq_bind, Option.bind_some] at h
        cases hcpu : cycle.currentCPU with
        | none => simp [hcpu] at h
        | some cpu =>
          have hclose : Close lastValue cpu := by
            by_contra hfar
            have hfalse : replayFloatEqual lastValue cpu = false := by
              simpa [replayFloatEqual, Close] using hfar
            simp [hcpu, hfalse] at h
          refine ⟨converted, latest, lastValue, cpu, hconverted, ⟨?_, ?_, hfinite⟩, rfl, hvalue,
            rfl, hclose⟩
          · omega
          · rw [htimes]
            exact hspaced

end Recorded

section Validated

variable {K : Type} [Field K] [LinearOrder K] [IsStrictOrderedRing K] [FloorRing K]

/-- Inputs that pass validation keep the pipeline in range. Live the forecast is capped by the
last sample; a replay caps it by the recorded CPU, which agrees with the last sample up to the
tolerance of the recording. -/
theorem validated_pipeline_safe (pow : K → K → K) (isDNS1123Subdomain : String → List String) :
    (∀ (spec : PredictiveHPASpec) (history : CPUHistory K) (now : ℤ),
      validateConfiguration isDNS1123Subdomain spec = .ok () →
      validateCPUHistory history now spec.prediction.window = .ok () →
      ∃ last value, history.samples.getLast? = some last ∧ last.value = .finite value ∧
        PipelineSafe pow history.samples
          ⟨.finite ((spec.prediction.alphaPercent : K) / (100 : ℤ)), spec.prediction.horizon⟩ value
          spec.targetCPUUtilizationPercentage (effectiveMinReplicas spec) spec.maxReplicas) ∧
    ∀ (config : RecordedConfig) (cycle : RecordedCycle K),
      validateReplayConfig config = .ok () → validateReplayCycle cycle = .ok () →
      validateReplaySamples config cycle (cycle.samples.getD []) = some (.ok ()) →
      ∃ samples last value cpu minimum,
        (cycle.samples.getD []).mapM ReplaySample.toSample = some samples ∧
        (cycle.samples.getD []).getLast? = some last ∧ last.value = some value ∧
        cycle.currentCPU = some cpu ∧ Close value cpu ∧ config.minReplicas = some minimum ∧
        PipelineSafe pow samples
          ⟨.finite ((config.alphaPercent : K) / (100 : ℤ)), config.horizonSeconds * second⟩ cpu
          config.targetCPU minimum config.maxReplicas := by
  constructor
  · intro spec history now hspec hhistory
    have hvalid := validateConfiguration_ok hspec
    obtain ⟨hseries, last, hlast⟩ := validateCPUHistory_ok hhistory
    obtain ⟨value, hvalue, hnonneg⟩ := hseries.values last (List.mem_of_getLast? hlast)
    exact ⟨last, value, hlast, hvalue, hseries.pipelineSafe pow (alpha_bounds hvalid.alpha)
      hvalid.horizon.1.le hnonneg hvalid.policy.effective⟩
  · intro config cycle hconfig hcycle hsamples
    obtain ⟨minimum, seconds, hreplay⟩ := validateReplayConfig_ok hconfig
    obtain ⟨halpha, hhorizon⟩ := validateReplayConfig_prediction hconfig
    obtain ⟨⟨observed, requested, cpu, hinputs⟩, -⟩ := validateReplayCycle_ok hcycle
    obtain ⟨samples, last, value, cpu', hconverted, hseries, hlast, hvalue, hcpu, hclose⟩ :=
      validateReplaySamples_ok hsamples
    rw [hinputs.currentCPU] at hcpu
    cases hcpu
    have hseconds : 0 ≤ config.horizonSeconds * second := mul_nonneg hhorizon.le (by decide)
    exact ⟨samples, last, value, cpu, minimum, hconverted, hlast, hvalue, hinputs.currentCPU,
      hclose, hreplay.minReplicas, hseries.pipelineSafe pow (alpha_bounds halpha) hseconds
        hinputs.cpu_nonneg hreplay.policy⟩

end Validated

/-! A recorded jump from an idle CPU to 100%, with a recorded CPU within tolerance above it. -/

def jumpConfig : RecordedConfig where
  minReplicas := some 1
  maxReplicas := 10
  targetCPU := 50
  stabilizationSeconds := some 60
  alphaPercent := 99
  windowSeconds := 300
  horizonSeconds := 15

def jumpSamples : List (ReplaySample ℚ) :=
  [⟨Time.unixEpoch + 100 * second, some 0⟩, ⟨Time.unixEpoch + 115 * second, some 100⟩]

def jumpCycle : RecordedCycle ℚ where
  decidedAt := Time.unixEpoch + 120 * second
  observedReplicas := some 2
  requestedReplicas := some 2
  currentCPU := some (100 + 1 / 20000000)
  predictionSource := replayComputedHistory
  rawPrediction := none
  samples := some jumpSamples
  actualMode := .current
  expected := ⟨some 0, some 0, some 0, some 0, some "", some false, none, none, none, none, none⟩

def wholePow (x y : ℚ) : ℚ := x ^ ⌊y⌋.toNat

/-- The recorded CPU, not the last sample, caps the forecast of an accepted cycle. -/
theorem recorded_cap_above_tail :
    validateReplayConfig jumpConfig = .ok () ∧ validateReplayCycle jumpCycle = .ok () ∧
      validateReplaySamples jumpConfig jumpCycle jumpSamples = some (.ok ()) ∧
      ∃ samples, jumpSamples.mapM ReplaySample.toSample = some samples ∧
        samples.getLast?.map Predictor.Sample.value = some (.finite 100) ∧
        Predictor.predict wholePow samples ⟨.finite (99 / 100), 15 * second⟩ =
          some (.ok (.finite (3663 / 20))) ∧
        13 / 10 * 100 < capPrediction (3663 / 20) (100 + 1 / 20000000 : ℚ) :=
  ⟨by decide +kernel, by decide +kernel, by decide +kernel,
    [⟨Time.unixEpoch + 100 * second, .finite 0⟩, ⟨Time.unixEpoch + 115 * second, .finite 100⟩],
    by decide +kernel, by decide +kernel, by decide +kernel, by decide +kernel⟩

theorem validated_pipeline_safe_jump :
    ∃ samples last value cpu minimum,
      jumpSamples.mapM ReplaySample.toSample = some samples ∧
      jumpSamples.getLast? = some last ∧ last.value = some value ∧
      jumpCycle.currentCPU = some cpu ∧ Close value cpu ∧ jumpConfig.minReplicas = some minimum ∧
      PipelineSafe wholePow samples ⟨.finite (((99 : ℤ) : ℚ) / (100 : ℤ)), 15 * second⟩ cpu 50
        minimum 10 :=
  (validated_pipeline_safe wholePow fun _ => []).2 jumpConfig jumpCycle (by decide +kernel)
    (by decide +kernel) (by decide +kernel)

end Autoscaler.Controller
