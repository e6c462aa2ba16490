import Autoscaler.Library.DampedTrend
import Autoscaler.Predictor.Classification

/-! The damped forecast over the reals is bounded by the data it was made from. -/
namespace Autoscaler.Predictor

section Series

variable {K : Type*}

def finiteSeries (times : List ℤ) (values : List K) : List (Sample K) :=
  List.zipWith (fun t v => ⟨t, .finite v⟩) times values

variable [Field K]

def smoothedValues (alpha : K) : List K → List K
  | [] => []
  | first :: rest => first :: DampedTrend.smooth alpha first rest

def tailValue (values : List K) : K := values.getD (values.length - 1) 0

def trend (values : List K) (k : ℤ) : K :=
  (tailValue values - values.getD ((values.length : ℤ) - 1 - k).toNat 0) / (k : K)

@[simp] theorem length_smoothedValues (alpha : K) (values : List K) :
    (smoothedValues alpha values).length = values.length := by
  cases values with
  | nil => rfl
  | cons first rest => simp [smoothedValues]

omit [Field K] in
@[simp] theorem length_finiteSeries (times : List ℤ) (values : List K) :
    (finiteSeries times values).length = min times.length values.length := by
  simp [finiteSeries]

omit [Field K] in
theorem valueAt_finiteSeries {times : List ℤ} {values : List K}
    (hlen : times.length = values.length) {i : ℤ} (hi : i.toNat < values.length) (z : K) :
    valueAt (finiteSeries times values) i = .finite (values.getD i.toNat z) := by
  have hi' : i.toNat < times.length := by omega
  unfold valueAt finiteSeries
  rw [List.getElem?_zipWith, List.getD_eq_getElem?_getD, List.getElem?_eq_getElem hi',
    List.getElem?_eq_getElem hi]
  rfl

variable [LinearOrder K]

theorem smooth.loop_finiteSeries (alpha previous : K) {times : List ℤ} {values : List K}
    (hlen : times.length = values.length) :
    smooth.loop (.finite alpha) (.finite previous) (finiteSeries times values) =
      finiteSeries times (DampedTrend.smooth alpha previous values) := by
  induction values generalizing times previous with
  | nil =>
    rw [List.length_nil, List.length_eq_zero_iff] at hlen
    rw [hlen]
    rfl
  | cons value rest ih =>
    cases times with
    | nil => cases hlen
    | cons time times =>
      have hrest := ih (alpha * value + (1 - alpha) * previous) (Nat.succ.inj hlen)
      have hvalue : ((Float64.finite alpha).mul (.finite value)).add
          (((Float64.finite 1).sub (.finite alpha)).mul (.finite previous)) =
            .finite (alpha * value + (1 - alpha) * previous) := by
        rw [Float64.finite_sub]
        rfl
      change ⟨time, _⟩ :: smooth.loop _ _ _ = _
      rw [hvalue]
      exact congrArg (_ :: ·) hrest

theorem smooth_finiteSeries {alpha : K} (hlo : 0 < alpha) (hhi : alpha < 1) {times : List ℤ}
    {values : List K} (hlen : times.length = values.length) (hne : values ≠ []) :
    smooth (finiteSeries times values) (.finite alpha) =
      .ok (finiteSeries times (smoothedValues alpha values)) := by
  cases values with
  | nil => exact absurd rfl hne
  | cons value rest =>
    cases times with
    | nil => cases hlen
    | cons time times =>
      have hloop := smooth.loop_finiteSeries alpha value (Nat.succ.inj hlen)
      unfold smooth
      rw [if_neg (smooths_iff.mp (.inr ⟨alpha, rfl, hlo, hhi⟩))]
      exact congrArg (fun tail => Except.ok (_ :: tail)) hloop

/-- A forecast from finite values is the tail plus the damped trend. -/
theorem forecast_finiteSeries (pow : K → K → K) {times : List ℤ} {values : List K}
    (hlen : times.length = values.length) (hmany : 2 ≤ values.length) (horizon : ℤ) :
    forecast pow (finiteSeries times values) horizon =
      .finite (tailValue values +
        trend values (lookBack (finiteSeries times values) horizon) *
          dampedSteps pow ((horizon : K) / (inferredStep (finiteSeries times values) : K))) := by
  have hlength : (finiteSeries times values).length = values.length := by
    rw [length_finiteSeries, hlen, min_self]
  have hpos := lookBack_pos (hlength.symm ▸ hmany) horizon
  have htail : valueAt (finiteSeries times values) ((values.length : ℤ) - 1) =
      .finite (tailValue values) := by
    rw [valueAt_finiteSeries hlen (by omega) 0]
    congr 2
    omega
  have hprevious : valueAt (finiteSeries times values)
      ((values.length : ℤ) - 1 - lookBack (finiteSeries times values) horizon) =
        .finite (values.getD ((values.length : ℤ) - 1 -
          lookBack (finiteSeries times values) horizon).toNat 0) :=
    valueAt_finiteSeries hlen (by omega) 0
  unfold forecast slope
  rw [hlength, htail, hprevious]
  simp only [Float64.sub, Float64.scale, Float64.add, Float64.finite.injEq, trend]
  ring

def forecastValue (pow : K → K → K) (times : List ℤ) (values : List K) (alpha : K)
    (horizon : ℤ) : K :=
  tailValue (smoothedValues alpha values) +
    trend (smoothedValues alpha values) (lookBack (finiteSeries times values) horizon) *
      dampedSteps pow ((horizon : K) / (inferredStep (finiteSeries times values) : K))

theorem lookBack_smoothed {alpha : K} {times : List ℤ} {values : List K}
    (hlen : times.length = values.length) (hmany : 2 ≤ values.length) (hlo : 0 < alpha)
    (hhi : alpha < 1) (horizon : ℤ) :
    lookBack (finiteSeries times (smoothedValues alpha values)) horizon =
      lookBack (finiteSeries times values) horizon := by
  have hne : values ≠ [] := List.length_pos_iff.mp (by omega)
  have hsmooth := smooth_finiteSeries hlo hhi hlen hne
  unfold lookBack
  rw [smooth_inferredStep hsmooth, smooth_length hsmooth]

/-- A finite series with a positive step has a finite forecast. -/
theorem predict_finiteSeries (pow : K → K → K) {alpha : K} {times : List ℤ} {values : List K}
    (hlen : times.length = values.length) (hmany : 2 ≤ values.length)
    (hstep : 0 < inferredStep (finiteSeries times values)) (hlo : 0 < alpha) (hhi : alpha < 1)
    {horizon : ℤ} (hhorizon : 0 ≤ horizon) :
    predict pow (finiteSeries times values) ⟨.finite alpha, horizon⟩ =
      some (.ok (.finite (forecastValue pow times values alpha horizon))) := by
  have hne : values ≠ [] := List.length_pos_iff.mp (by omega)
  have hlength : (finiteSeries times values).length = values.length := by
    rw [length_finiteSeries, hlen, min_self]
  have hsmooth := smooth_finiteSeries hlo hhi hlen hne
  have hspan : ¬ totalSpan (finiteSeries times values) ≤ 0 := by
    intro h
    have := inferredStep_nonpos (hlength.symm ▸ hmany) h
    omega
  rw [predict_eq pow hhorizon (hlength.symm ▸ hmany) hsmooth, if_neg hspan, if_neg hstep.ne',
    forecast_finiteSeries pow (by rw [length_smoothedValues]; exact hlen)
      (by rw [length_smoothedValues]; exact hmany), lookBack_smoothed hlen hmany hlo hhi,
    smooth_inferredStep hsmooth]
  rfl

omit [Field K] [LinearOrder K] in
/-- Samples with finite values are a finite series. -/
theorem exists_finiteSeries {samples : List (Sample K)}
    (h : ∀ s ∈ samples, ∃ v, s.value = .finite v) :
    ∃ values : List K, values.length = samples.length ∧
      samples = finiteSeries (samples.map Sample.timestamp) values := by
  induction samples with
  | nil => exact ⟨[], rfl, rfl⟩
  | cons sample rest ih =>
    obtain ⟨⟨v, hv⟩, hrest⟩ := List.forall_mem_cons.mp h
    obtain ⟨values, hlen, heq⟩ := ih hrest
    refine ⟨v :: values, by rw [List.length_cons, List.length_cons, hlen], ?_⟩
    have hsample : sample = ⟨sample.timestamp, .finite v⟩ := by rw [← hv]
    rw [List.map_cons]
    exact List.cons_eq_cons.mpr ⟨hsample, heq⟩

variable [IsStrictOrderedRing K]

theorem among_smoothedValues {alpha : K} (hlo : 0 < alpha) (hhi : alpha < 1) (values : List K)
    (i : ℕ) (hi : i < (smoothedValues alpha values).length) :
    DampedTrend.Among (values.take (i + 1)) (smoothedValues alpha values)[i] := by
  cases values with
  | nil => exact absurd hi (Nat.not_lt_zero i)
  | cons first rest =>
    have hfirst : DampedTrend.Among [first] first :=
      ⟨first, List.mem_cons_self, first, List.mem_cons_self, le_rfl, le_rfl⟩
    cases i with
    | zero => exact hfirst
    | succ i =>
      exact DampedTrend.among_smooth hlo.le hhi.le [first] rest hfirst i
        (by simpa [smoothedValues] using hi)

theorem smoothedValues_const {alpha c : K} (hlo : 0 < alpha) (hhi : alpha < 1) {values : List K}
    (hc : ∀ v ∈ values, v = c) : ∀ v ∈ smoothedValues alpha values, v = c := by
  intro v hv
  obtain ⟨i, hi, rfl⟩ := List.mem_iff_getElem.mp hv
  have hamong := among_smoothedValues hlo hhi values i hi
  exact hamong.eq_of_const fun w hw => hc w (List.mem_of_mem_take hw)

omit [LinearOrder K] [IsStrictOrderedRing K] in
/-- A constant series has no trend. -/
theorem trend_const {values : List K} {c : K} (hne : values ≠ []) (hc : ∀ v ∈ values, v = c)
    {k : ℤ} (hk : 0 ≤ k) : tailValue values = c ∧ trend values k = 0 := by
  have hpos := List.length_pos_iff.mpr hne
  have hget : ∀ i < values.length, values.getD i 0 = c := by
    intro i hi
    rw [List.getD_eq_getElem?_getD, List.getElem?_eq_getElem hi]
    exact hc _ (List.getElem_mem hi)
  have htail : tailValue values = c := hget _ (by omega)
  have hprevious := hget ((values.length : ℤ) - 1 - k).toNat (by omega)
  refine ⟨htail, ?_⟩
  unfold trend
  rw [htail, hprevious, sub_self, zero_div]

end Series

noncomputable section Real

def realPow (x y : ℝ) : ℝ := x ^ y

theorem dampedSteps_realPow (steps : ℝ) :
    dampedSteps realPow steps = DampedTrend.damped trendDampingFactor steps := rfl

theorem trendDampingFactor_pos : (0 : ℝ) < trendDampingFactor := by
  norm_num [trendDampingFactor]

theorem trendDampingFactor_lt_one : (trendDampingFactor : ℝ) < 1 := by
  norm_num [trendDampingFactor]

variable {times : List ℤ} {values : List ℝ} {alpha : ℝ}

/-- For one look-back, a longer horizon moves the forecast further along the slope. -/
theorem forecastValue_moves (hstep : 0 < inferredStep (finiteSeries times values))
    {horizon horizon' : ℤ} (hlt : horizon < horizon')
    (hsame : lookBack (finiteSeries times values) horizon' =
      lookBack (finiteSeries times values) horizon) :
    let slope := trend (smoothedValues alpha values) (lookBack (finiteSeries times values) horizon)
    let value := forecastValue realPow times values alpha
    (0 < slope → value horizon < value horizon') ∧ (slope < 0 → value horizon' < value horizon) ∧
      (slope = 0 → value horizon' = value horizon) := by
  intro slope value
  have hstepReal : (0 : ℝ) < inferredStep (finiteSeries times values) := by exact_mod_cast hstep
  have hlater : (horizon : ℝ) / (inferredStep (finiteSeries times values) : ℝ) <
      (horizon' : ℝ) / (inferredStep (finiteSeries times values) : ℝ) :=
    div_lt_div_of_pos_right (by exact_mod_cast hlt) hstepReal
  have hmoves := DampedTrend.damped_strictMono trendDampingFactor_pos trendDampingFactor_lt_one
    hlater
  simp only [value, forecastValue, hsame]
  refine ⟨fun hslope => ?_, fun hslope => ?_, fun hslope => ?_⟩
  · exact add_lt_add_right (mul_lt_mul_of_pos_left hmoves hslope) _
  · exact add_lt_add_right (mul_lt_mul_of_neg_left hmoves hslope) _
  · change _ + slope * _ = _ + slope * _
    rw [hslope, zero_mul, zero_mul]

/-- A forecast into the future leaves the tail in the direction of the slope. -/
theorem forecastValue_leads (hstep : 0 < inferredStep (finiteSeries times values)) {horizon : ℤ}
    (hpos : 0 < horizon) :
    let slope := trend (smoothedValues alpha values) (lookBack (finiteSeries times values) horizon)
    let tail := tailValue (smoothedValues alpha values)
    (0 < slope → tail < forecastValue realPow times values alpha horizon) ∧
      (slope < 0 → forecastValue realPow times values alpha horizon < tail) := by
  intro slope tail
  have hstepReal : (0 : ℝ) < inferredStep (finiteSeries times values) := by exact_mod_cast hstep
  have hahead : (0 : ℝ) < (horizon : ℝ) / (inferredStep (finiteSeries times values) : ℝ) :=
    div_pos (by exact_mod_cast hpos) hstepReal
  have hdamped := DampedTrend.damped_pos trendDampingFactor_pos trendDampingFactor_lt_one hahead
  constructor
  · intro hslope
    exact lt_add_of_pos_right _ (mul_pos hslope hdamped)
  · intro hslope
    exact add_lt_of_neg_right _ (mul_neg_of_neg_of_pos hslope hdamped)

/-- Smoothed values stay among the data; the forecast starts at the smoothed tail and moves with
the slope, never past the undamped projection or the limit of the damped sum. -/
theorem damped_forecast_bounded (hlen : times.length = values.length) (hmany : 2 ≤ values.length)
    (hstep : 0 < inferredStep (finiteSeries times values)) (hlo : 0 < alpha) (hhi : alpha < 1) :
    let smoothed := smoothedValues alpha values
    let tail := tailValue smoothed
    smooth (finiteSeries times values) (.finite alpha) = .ok (finiteSeries times smoothed) ∧
      smoothed.length = values.length ∧
      (∀ (i : ℕ) (hi : i < smoothed.length),
        DampedTrend.Among (values.take (i + 1)) smoothed[i]) ∧
      ∃ value : ℤ → ℝ, ∀ horizon, 0 ≤ horizon →
        let slope := trend smoothed (lookBack (finiteSeries times values) horizon)
        let linear := tail +
          slope * ((horizon : ℝ) / (inferredStep (finiteSeries times values) : ℝ))
        predict realPow (finiteSeries times values) ⟨.finite alpha, horizon⟩ =
          some (.ok (.finite (value horizon))) ∧
        (min tail linear ≤ value horizon ∧ value horizon ≤ max tail linear) ∧
        (horizon = 0 → value horizon = tail) ∧
        (0 < horizon → (0 < slope → tail < value horizon) ∧ (slope < 0 → value horizon < tail)) ∧
        (∀ horizon', horizon < horizon' →
          lookBack (finiteSeries times values) horizon' =
            lookBack (finiteSeries times values) horizon →
          (0 < slope → value horizon < value horizon') ∧
            (slope < 0 → value horizon' < value horizon) ∧
            (slope = 0 → value horizon' = value horizon)) ∧
        |value horizon - tail| ≤ trendDampingFactor / (1 - trendDampingFactor) * |slope| ∧
        ∀ c, (∀ v ∈ values, v = c) → value horizon = c := by
  intro smoothed tail
  have hne : values ≠ [] := List.length_pos_iff.mp (by omega)
  have hpos := trendDampingFactor_pos
  have hlt := trendDampingFactor_lt_one
  have hstepReal : (0 : ℝ) < inferredStep (finiteSeries times values) := by exact_mod_cast hstep
  refine ⟨smooth_finiteSeries hlo hhi hlen hne, length_smoothedValues alpha values,
    among_smoothedValues hlo hhi values, forecastValue realPow times values alpha,
    fun horizon hhorizon => ?_⟩
  have hsteps : (0 : ℝ) ≤ (horizon : ℝ) / (inferredStep (finiteSeries times values) : ℝ) :=
    div_nonneg (by exact_mod_cast hhorizon) hstepReal.le
  refine ⟨predict_finiteSeries realPow hlen hmany hstep hlo hhi hhorizon, ?_, ?_,
    forecastValue_leads hstep, fun _ => forecastValue_moves hstep, ?_, ?_⟩
  · exact DampedTrend.damped_between hpos hlt hsteps _ _
  · rintro rfl
    simp [forecastValue, dampedSteps_realPow, tail, smoothed]
  · have hdiff : forecastValue realPow times values alpha horizon - tail =
        trend smoothed (lookBack (finiteSeries times values) horizon) *
          DampedTrend.damped trendDampingFactor
            ((horizon : ℝ) / (inferredStep (finiteSeries times values) : ℝ)) := by
      rw [← dampedSteps_realPow]
      unfold forecastValue
      ring
    rw [hdiff]
    exact DampedTrend.abs_damped_le hpos hlt hsteps _
  · intro c hc
    have hlength : 2 ≤ (finiteSeries times values).length := by
      rw [length_finiteSeries, hlen, min_self]
      exact hmany
    have hback := lookBack_pos hlength horizon
    obtain ⟨htail, hflat⟩ := trend_const (k := lookBack (finiteSeries times values) horizon)
      (List.length_pos_iff.mp (by rw [length_smoothedValues]; omega))
      (smoothedValues_const hlo hhi hc) (by omega)
    unfold forecastValue
    rw [htail, hflat, zero_mul, add_zero]

/-- The forecast of a ramp leads its smoothed tail and stays below the undamped projection. -/
theorem damped_forecast_bounded_ramp :
    ∃ value : ℝ, predict realPow (finiteSeries [0, 15 * second, 30 * second, 45 * second,
        60 * second, 75 * second] [0, 1, 2, 3, 4, 5]) ⟨.finite (1 / 2), 30 * second⟩ =
      some (.ok (.finite value)) ∧ 129 / 32 < value ∧ value ≤ 95 / 16 := by
  obtain ⟨-, -, -, value, h⟩ := @damped_forecast_bounded
    [0, 15 * second, 30 * second, 45 * second, 60 * second, 75 * second] [0, 1, 2, 3, 4, 5] (1 / 2)
      rfl (by decide) (by decide) (by norm_num) (by norm_num)
  obtain ⟨hpredict, ⟨-, hbelow⟩, -, hleads, -⟩ := h (30 * second) (by decide)
  have hstep : inferredStep (finiteSeries [0, 15 * second, 30 * second, 45 * second, 60 * second,
      75 * second] [(0 : ℝ), 1, 2, 3, 4, 5]) = 15 * second := by decide
  have hback : lookBack (finiteSeries [0, 15 * second, 30 * second, 45 * second, 60 * second,
      75 * second] [(0 : ℝ), 1, 2, 3, 4, 5]) (30 * second) = 2 := by decide
  have htail : tailValue (smoothedValues (1 / 2 : ℝ) [0, 1, 2, 3, 4, 5]) = 129 / 32 := by
    norm_num [tailValue, smoothedValues, DampedTrend.smooth]
  have hslope : trend (smoothedValues (1 / 2 : ℝ) [0, 1, 2, 3, 4, 5]) 2 = 61 / 64 := by
    rw [trend, htail]
    change (129 / 32 - (smoothedValues (1 / 2 : ℝ) [0, 1, 2, 3, 4, 5]).getD 3 0) / _ = _
    norm_num [smoothedValues, DampedTrend.smooth]
  rw [hback, hslope, htail] at hleads hbelow
  have hahead : ((30 * second : ℤ) : ℝ) / ((15 * second : ℤ) : ℝ) = 2 := by
    norm_num [second]
  rw [hstep, hahead] at hbelow
  refine ⟨value (30 * second), hpredict, (hleads (by decide)).1 (by norm_num), ?_⟩
  exact hbelow.trans (by norm_num)

end Real

end Autoscaler.Predictor
