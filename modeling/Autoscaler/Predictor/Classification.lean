import Autoscaler.Predictor.Ewma

/-! Which inputs the predictor rejects, and which make it panic. -/
namespace Autoscaler.Predictor

variable {K : Type*} [Field K] [LinearOrder K]

instance (alpha : Float64 K) : Decidable (ValidAlpha alpha) :=
  match alpha with
  | .finite value =>
    decidable_of_iff (0 < value ∧ value < 1)
      ⟨fun h => ⟨value, rfl, h⟩, fun ⟨_, hvalue, h⟩ => by cases hvalue; exact h⟩
  | .nan => .isFalse fun ⟨_, h, _⟩ => nomatch h
  | .inf _ => .isFalse fun ⟨_, h, _⟩ => nomatch h

/-- The documented classes of an input; without one it has a forecast. Of an invalid smoothing
factor and an invalid interval either may be reported. -/
def inputClasses (samples : List (Sample K)) (cfg : EWMAConfig K) : List Sentinel :=
  if cfg.horizon < 0 then [.invalidHorizon]
  else if samples.length < 2 then [.insufficientData]
  else
    (if ValidAlpha cfg.alpha then [] else [.invalidAlpha]) ++
      if inferredStep samples ≤ 0 then [.invalidInterval] else []

/-- The predictor returns, with the error of a class of the input, or with a forecast if the input
has none. -/
def ReturnsClass (pow : K → K → K) (samples : List (Sample K)) (cfg : EWMAConfig K) : Prop :=
  if inputClasses samples cfg = [] then ∃ value, predict pow samples cfg = some (.ok value)
  else ∃ s ∈ inputClasses samples cfg, predict pow samples cfg = some (.error (.ofSentinel s))

/-- The predictor smooths at least two samples of a positive span, and either its factor is a NaN or
the span is cut into more intervals than it has nanoseconds. -/
def Misclassified (samples : List (Sample K)) (cfg : EWMAConfig K) : Prop :=
  0 ≤ cfg.horizon ∧ 2 ≤ samples.length ∧ 0 < totalSpan samples ∧
    (cfg.alpha = .nan ∨
      ValidAlpha cfg.alpha ∧ totalSpan samples < (samples.length : ℤ) - 1)

/-- Past the first three checks the outcome depends on the span and the step only. -/
theorem predict_eq (pow : K → K → K) {samples smoothed : List (Sample K)} {cfg : EWMAConfig K}
    (hhorizon : 0 ≤ cfg.horizon) (hlen : 2 ≤ samples.length)
    (hsmooth : smooth samples cfg.alpha = .ok smoothed) :
    predict pow samples cfg =
      if totalSpan samples ≤ 0 then some (.error (.ofSentinel .invalidInterval))
      else if inferredStep samples = 0 then none
      else some (.ok (forecast pow smoothed cfg.horizon)) := by
  unfold predict
  rw [if_neg (not_lt.mpr hhorizon), if_neg (not_lt.mpr hlen), hsmooth]
  dsimp only
  rw [predict.extrapolate_eq pow (by rw [smooth_length hsmooth]; exact hlen),
    smooth_totalSpan hsmooth, smooth_inferredStep hsmooth]

omit [Field K] [LinearOrder K] in
/-- The truncated average vanishes exactly when the span is shorter than the interval count. -/
theorem inferredStep_eq_zero_iff {samples : List (Sample K)} (hlen : 2 ≤ samples.length)
    (hspan : 0 < totalSpan samples) :
    inferredStep samples = 0 ↔ totalSpan samples < (samples.length : ℤ) - 1 := by
  unfold inferredStep
  rw [Int.tdiv_eq_ediv_of_nonneg hspan.le]
  constructor
  · intro h
    by_contra hge
    have : 1 ≤ totalSpan samples / ((samples.length : ℤ) - 1) :=
      (Int.le_ediv_iff_mul_le (by omega)).mpr (by omega)
    omega
  · exact Int.ediv_eq_zero_of_lt hspan.le

omit [Field K] [LinearOrder K] in
theorem inferredStep_nonneg {samples : List (Sample K)} (hlen : 2 ≤ samples.length)
    (hspan : 0 < totalSpan samples) : 0 ≤ inferredStep samples :=
  Int.tdiv_nonneg hspan.le (by omega)

/-- Past the first two checks, an input is classified unless its factor is a NaN and its span is
positive, or its span is cut into more intervals than it has nanoseconds. -/
theorem returnsClass_iff_of_checked (pow : K → K → K) {samples : List (Sample K)}
    {cfg : EWMAConfig K} (hhorizon : 0 ≤ cfg.horizon) (hlen : 2 ≤ samples.length)
    (hsmooths : Smooths cfg.alpha) :
    ReturnsClass pow samples cfg ↔ ¬ Misclassified samples cfg := by
  have hne : samples ≠ [] := List.length_pos_iff.mp (by omega)
  obtain ⟨smoothed, hsmooth⟩ := smooth_isOk hne hsmooths
  unfold ReturnsClass inputClasses Misclassified
  rw [predict_eq pow hhorizon hlen hsmooth, if_neg (not_lt.mpr hhorizon), if_neg (not_lt.mpr hlen)]
  by_cases hspan : totalSpan samples ≤ 0
  · -- the span is not positive, which is reported
    have hstep := inferredStep_nonpos hlen hspan
    rw [if_pos hspan, if_pos hstep, if_neg (by simp)]
    refine iff_of_true ⟨.invalidInterval, by simp, rfl⟩ fun h => ?_
    exact absurd h.2.2.1 (not_lt.mpr hspan)
  · rw [not_le] at hspan
    have hnonneg := inferredStep_nonneg hlen hspan
    have hzero := inferredStep_eq_zero_iff hlen hspan
    rw [if_neg (not_le.mpr hspan)]
    rcases hsmooths with hnan | hvalid
    · -- the forecast is a NaN, or the step vanishes
      have hinvalid : ¬ ValidAlpha cfg.alpha := by
        rintro ⟨value, hvalue, -⟩
        rw [hnan] at hvalue
        cases hvalue
      rw [if_neg hinvalid, if_neg (by simp)]
      refine iff_of_false ?_ (not_not.mpr ⟨hhorizon, hlen, hspan, .inl hnan⟩)
      rintro ⟨s, -, hs⟩
      split_ifs at hs
      cases hs
    · have hne : cfg.alpha ≠ .nan := by
        obtain ⟨value, hvalue, -⟩ := hvalid
        rw [hvalue]
        simp
      rw [if_pos hvalid, List.nil_append]
      by_cases hcut : inferredStep samples = 0
      · -- the step is cut to zero
        rw [if_pos hcut.le, if_neg (by simp), if_pos hcut]
        refine iff_of_false (by simp) (not_not.mpr ?_)
        exact ⟨hhorizon, hlen, hspan, .inr ⟨hvalid, hzero.mp hcut⟩⟩
      · have hpos : ¬ inferredStep samples ≤ 0 := by omega
        rw [if_neg hpos, if_pos rfl, if_neg hcut]
        refine iff_of_true ⟨_, rfl⟩ fun h => ?_
        exact h.2.2.2.elim hne fun h => hcut (hzero.mpr h.2)

/-- The predictor keeps to its error classes exactly when it does not smooth with a NaN, and no
positive span is cut into more intervals than it has nanoseconds. -/
theorem predict_returns_class_iff (pow : K → K → K) (samples : List (Sample K))
    (cfg : EWMAConfig K) :
    ReturnsClass pow samples cfg ↔ ¬ Misclassified samples cfg := by
  by_cases hhorizon : cfg.horizon < 0
  · refine iff_of_true ?_ fun h => absurd h.1 (not_le.mpr hhorizon)
    unfold ReturnsClass inputClasses
    rw [if_pos hhorizon, if_neg (by simp)]
    exact ⟨.invalidHorizon, by simp, if_pos hhorizon⟩
  by_cases hlen : samples.length < 2
  · refine iff_of_true ?_ fun h => absurd h.2.1 (not_le.mpr hlen)
    unfold ReturnsClass inputClasses
    rw [if_neg hhorizon, if_pos hlen, if_neg (by simp)]
    exact ⟨.insufficientData, by simp, by rw [predict, if_neg hhorizon, if_pos hlen]⟩
  by_cases hsmooths : Smooths cfg.alpha
  · exact returnsClass_iff_of_checked pow (not_lt.mp hhorizon) (not_lt.mp hlen) hsmooths
  · have hinvalid : ¬ ValidAlpha cfg.alpha := fun h => hsmooths (.inr h)
    have hnan : cfg.alpha ≠ .nan := fun h => hsmooths (.inl h)
    refine iff_of_true ?_ fun h => h.2.2.2.elim hnan fun h => hinvalid h.1
    have hrejected : smooth samples cfg.alpha = .error (.ofSentinel .invalidAlpha) :=
      if_pos (not_not.mp (smooths_iff.not.mp hsmooths))
    unfold ReturnsClass inputClasses
    rw [if_neg hhorizon, if_neg hlen, if_neg hinvalid, if_neg (by simp)]
    exact ⟨.invalidAlpha, by simp, by rw [predict, if_neg hhorizon, if_neg hlen, hrejected]⟩

/-- Three readings within one nanosecond, two of them at the same instant. -/
def burst : List (Sample ℚ) := [⟨0, .finite 40⟩, ⟨0, .finite 50⟩, ⟨1, .finite 60⟩]

/-- A cut interval panics; a NaN for a factor passes for a forecast. -/
theorem predict_panics :
    (inputClasses burst ⟨.finite (1 / 2), 30 * second⟩ = [.invalidInterval] ∧
      predict (fun _ _ => 0) burst ⟨.finite (1 / 2), 30 * second⟩ = none ∧
      ¬ ReturnsClass (fun _ _ => 0) burst ⟨.finite (1 / 2), 30 * second⟩) ∧
    inputClasses [⟨0, .finite 40⟩, ⟨15 * second, .finite 50⟩]
        (⟨.nan, 30 * second⟩ : EWMAConfig ℚ) = [.invalidAlpha] ∧
      predict (fun _ _ => 0) [⟨0, .finite 40⟩, ⟨15 * second, .finite 50⟩]
        (⟨.nan, 30 * second⟩ : EWMAConfig ℚ) = some (.ok .nan) ∧
      ¬ ReturnsClass (fun _ _ => 0) [⟨0, .finite 40⟩, ⟨15 * second, .finite 50⟩]
        (⟨.nan, 30 * second⟩ : EWMAConfig ℚ) := by
  have hclass : inputClasses burst ⟨.finite (1 / 2), 30 * second⟩ = [.invalidInterval] := by
    decide +kernel
  have hnone : predict (fun _ _ => 0) burst ⟨.finite (1 / 2), 30 * second⟩ = none := by
    decide +kernel
  have hclass' : inputClasses [⟨0, .finite 40⟩, ⟨15 * second, .finite 50⟩]
      (⟨.nan, 30 * second⟩ : EWMAConfig ℚ) = [.invalidAlpha] := by decide +kernel
  have hnan : predict (fun _ _ => 0) [⟨0, .finite 40⟩, ⟨15 * second, .finite 50⟩]
      (⟨.nan, 30 * second⟩ : EWMAConfig ℚ) = some (.ok .nan) := by decide +kernel
  refine ⟨⟨hclass, hnone, ?_⟩, hclass', hnan, ?_⟩
  · unfold ReturnsClass
    rw [hclass, hnone]
    simp
  · unfold ReturnsClass
    rw [hclass', hnan]
    simp

end Autoscaler.Predictor
