import Autoscaler.Errors
import Autoscaler.Float64
import Autoscaler.Time

/-! EWMA smoothing and damped extrapolation of a sample series. -/
namespace Autoscaler.Predictor

structure Sample (K : Type*) where
  timestamp : ℤ
  value : Float64 K
  deriving DecidableEq, Repr

structure EWMAConfig (K : Type*) where
  alpha : Float64 K
  horizon : ℤ

variable {K : Type*} [Field K] [LinearOrder K]

/-- The damping factor phi of the projected trend. -/
def trendDampingFactor : K := 85 / 100

def smooth.loop (alpha : Float64 K) : Float64 K → List (Sample K) → List (Sample K)
  | _, [] => []
  | previous, sample :: rest =>
    let value := (alpha.mul sample.value).add (((Float64.finite 1).sub alpha).mul previous)
    ⟨sample.timestamp, value⟩ :: loop alpha value rest

def smooth (samples : List (Sample K)) (alpha : Float64 K) : Except Err (List (Sample K)) :=
  if alpha.le (.finite 0) ∨ (Float64.finite 1).le alpha then .error (.ofSentinel .invalidAlpha)
  else
    match samples with
    | [] => .error (.ofSentinel .insufficientData)
    | first :: rest => .ok (first :: smooth.loop alpha first.value rest)

/-- The forecast from the smoothed series. An index out of range and an integer division by
zero panic, which is `none`; `pow` is `math.Pow`. -/
def predict.extrapolate (pow : K → K → K) (smoothed : List (Sample K)) (horizon : ℤ) :
    Option (Except Err (Float64 K)) := do
  let n : ℤ := smoothed.length
  let tail ← smoothed[(n - 1).toNat]?
  let first ← smoothed[0]?
  let totalSpan := tail.timestamp - first.timestamp
  if totalSpan ≤ 0 then return .error (.ofSentinel .invalidInterval)
  let step := totalSpan.tdiv (n - 1)
  if step = 0 then none
  let k := min (max (horizon.tdiv step) 1) (n - 1)
  let previous ← smoothed[(n - 1 - k).toNat]?
  let slopePerSample := (tail.value.sub previous.value).scale (1 / (k : K))
  let stepsAhead := (horizon : K) / (step : K)
  let dampedSteps := trendDampingFactor * (1 - pow trendDampingFactor stepsAhead) /
    (1 - trendDampingFactor)
  return .ok (tail.value.add (slopePerSample.scale dampedSteps))

/-- `Predict`; `none` is a panic. -/
def predict (pow : K → K → K) (samples : List (Sample K)) (cfg : EWMAConfig K) :
    Option (Except Err (Float64 K)) :=
  if cfg.horizon < 0 then some (.error (.ofSentinel .invalidHorizon))
  else if samples.length < 2 then some (.error (.ofSentinel .insufficientData))
  else
    match smooth samples cfg.alpha with
    | .error e => some (.error e)
    | .ok smoothed => predict.extrapolate pow smoothed cfg.horizon

theorem smooth.loop_timestamps (alpha previous : Float64 K) (samples : List (Sample K)) :
    (loop alpha previous samples).map Sample.timestamp = samples.map Sample.timestamp := by
  induction samples generalizing previous with
  | nil => rfl
  | cons sample rest ih => exact congrArg (sample.timestamp :: ·) (ih _)

theorem smooth_timestamps {samples smoothed : List (Sample K)} {alpha : Float64 K}
    (h : smooth samples alpha = .ok smoothed) :
    smoothed.map Sample.timestamp = samples.map Sample.timestamp := by
  unfold smooth at h
  split_ifs at h
  cases samples with
  | nil => cases h
  | cons first rest =>
    cases h
    exact congrArg (first.timestamp :: ·) (smooth.loop_timestamps alpha first.value rest)

/-! The quantities a forecast is read from, and what `extrapolate` makes of them. -/

def totalSpan (series : List (Sample K)) : ℤ :=
  match series.getLast?, series.head? with
  | some tail, some first => tail.timestamp - first.timestamp
  | _, _ => 0

def inferredStep (series : List (Sample K)) : ℤ :=
  (totalSpan series).tdiv ((series.length : ℤ) - 1)

def lookBack (series : List (Sample K)) (horizon : ℤ) : ℤ :=
  min (max (horizon.tdiv (inferredStep series)) 1) ((series.length : ℤ) - 1)

/-- The value at an index, which the callers keep in range. -/
def valueAt (series : List (Sample K)) (i : ℤ) : Float64 K :=
  (series[i.toNat]?.map Sample.value).getD .nan

def slope (smoothed : List (Sample K)) (horizon : ℤ) : Float64 K :=
  ((valueAt smoothed ((smoothed.length : ℤ) - 1)).sub
    (valueAt smoothed ((smoothed.length : ℤ) - 1 - lookBack smoothed horizon))).scale
      (1 / (lookBack smoothed horizon : K))

def dampedSteps (pow : K → K → K) (stepsAhead : K) : K :=
  trendDampingFactor * (1 - pow trendDampingFactor stepsAhead) / (1 - trendDampingFactor)

def forecast (pow : K → K → K) (smoothed : List (Sample K)) (horizon : ℤ) : Float64 K :=
  (valueAt smoothed ((smoothed.length : ℤ) - 1)).add ((slope smoothed horizon).scale
    (dampedSteps pow ((horizon : K) / (inferredStep smoothed : K))))

omit [Field K] [LinearOrder K] in
theorem totalSpan_of_timestamps {series series' : List (Sample K)}
    (h : series.map Sample.timestamp = series'.map Sample.timestamp) :
    totalSpan series = totalSpan series' := by
  have hlast := congrArg List.getLast? h
  have hhead := congrArg List.head? h
  rw [List.getLast?_map, List.getLast?_map] at hlast
  rw [List.head?_map, List.head?_map] at hhead
  unfold totalSpan
  cases hl : series.getLast? <;> cases hl' : series'.getLast? <;> cases hf : series.head? <;>
    cases hf' : series'.head? <;> simp_all

theorem smooth_length {samples smoothed : List (Sample K)} {alpha : Float64 K}
    (h : smooth samples alpha = .ok smoothed) : smoothed.length = samples.length := by
  simpa using congrArg List.length (smooth_timestamps h)

theorem smooth_totalSpan {samples smoothed : List (Sample K)} {alpha : Float64 K}
    (h : smooth samples alpha = .ok smoothed) : totalSpan smoothed = totalSpan samples :=
  totalSpan_of_timestamps (smooth_timestamps h)

theorem smooth_inferredStep {samples smoothed : List (Sample K)} {alpha : Float64 K}
    (h : smooth samples alpha = .ok smoothed) : inferredStep smoothed = inferredStep samples := by
  unfold inferredStep
  rw [smooth_totalSpan h, smooth_length h]

def ValidAlpha (alpha : Float64 K) : Prop := ∃ value, alpha = .finite value ∧ 0 < value ∧ value < 1

def Smooths (alpha : Float64 K) : Prop := alpha = .nan ∨ ValidAlpha alpha

theorem smooths_iff {alpha : Float64 K} :
    Smooths alpha ↔ ¬ (alpha.le (.finite 0) = true ∨ (Float64.finite 1).le alpha = true) := by
  rw [not_or, Bool.not_eq_true, Bool.not_eq_true]
  exact Float64.not_le_and_not_le_iff.symm

theorem smooth_isOk {samples : List (Sample K)} {alpha : Float64 K} (hne : samples ≠ [])
    (halpha : Smooths alpha) : ∃ smoothed, smooth samples alpha = .ok smoothed := by
  unfold smooth
  rw [if_neg (smooths_iff.mp halpha)]
  cases samples with
  | nil => exact absurd rfl hne
  | cons first rest => exact ⟨_, rfl⟩

omit [Field K] [LinearOrder K] in
theorem lookBack_pos {series : List (Sample K)} (hlen : 2 ≤ series.length) (horizon : ℤ) :
    1 ≤ lookBack series horizon :=
  le_min (le_max_right _ _) (by omega)

omit [Field K] [LinearOrder K] in
theorem lookBack_le (series : List (Sample K)) (horizon : ℤ) :
    lookBack series horizon ≤ (series.length : ℤ) - 1 :=
  min_le_right _ _

omit [Field K] [LinearOrder K] in
theorem totalSpan_eq {series : List (Sample K)} (h : 0 < series.length) :
    totalSpan series = (series[series.length - 1]).timestamp - (series[0]).timestamp := by
  unfold totalSpan
  rw [List.head?_eq_getElem?, List.getLast?_eq_getElem?, List.getElem?_eq_getElem h,
    List.getElem?_eq_getElem (by omega)]

/-- With two samples no index is out of range, and the only panic is a division by a zero step. -/
theorem predict.extrapolate_eq (pow : K → K → K) {smoothed : List (Sample K)}
    (hlen : 2 ≤ smoothed.length) (horizon : ℤ) :
    extrapolate pow smoothed horizon =
      if totalSpan smoothed ≤ 0 then some (.error (.ofSentinel .invalidInterval))
      else if inferredStep smoothed = 0 then none
      else some (.ok (forecast pow smoothed horizon)) := by
  have hzero : 0 < smoothed.length := by omega
  have htailIndex : ((smoothed.length : ℤ) - 1).toNat = smoothed.length - 1 := by omega
  have hfirst : smoothed[0]? = some smoothed[0] := List.getElem?_eq_getElem hzero
  have htail : smoothed[((smoothed.length : ℤ) - 1).toNat]? =
      some smoothed[smoothed.length - 1] := by
    rw [htailIndex]
    exact List.getElem?_eq_getElem (by omega)
  have hk := lookBack_pos hlen horizon
  obtain ⟨previous, hprevious⟩ : ∃ previous,
      smoothed[((smoothed.length : ℤ) - 1 - lookBack smoothed horizon).toNat]? = some previous :=
    ⟨_, List.getElem?_eq_getElem (by omega)⟩
  have hvalue : valueAt smoothed ((smoothed.length : ℤ) - 1) =
      (smoothed[smoothed.length - 1]).value := by
    rw [valueAt, htail]
    rfl
  have hvalue' : valueAt smoothed ((smoothed.length : ℤ) - 1 - lookBack smoothed horizon) =
      previous.value := by
    rw [valueAt, hprevious]
    rfl
  unfold extrapolate forecast slope dampedSteps
  rw [hvalue, hvalue']
  unfold lookBack inferredStep at hprevious ⊢
  rw [totalSpan_eq hzero] at hprevious ⊢
  simp only [hfirst, htail, hprevious, Option.bind_eq_bind, Option.bind_some,
    Option.bind_none, Option.pure_def]

/-- Instants spaced by `d` drift apart at least as fast as their indices. -/
theorem add_index_mul_le {times : List ℤ} {d : ℤ} (h : times.Pairwise fun a b => a + d ≤ b)
    (i : ℕ) (hi : i < times.length) : times[0] + i * d ≤ times[i] := by
  induction i with
  | zero => simp
  | succ i ih =>
    have hstep := List.pairwise_iff_getElem.mp h i (i + 1) (by omega) hi (by omega)
    have hprevious := ih (by omega)
    push_cast
    linarith

omit [Field K] [LinearOrder K] in
/-- Spaced samples have a step of at least their spacing. -/
theorem le_inferredStep {series : List (Sample K)} (hlen : 2 ≤ series.length) {d : ℤ}
    (hd : 0 ≤ d) (h : (series.map Sample.timestamp).Pairwise fun a b => a + d ≤ b) :
    d ≤ inferredStep series := by
  have hspan := add_index_mul_le h (series.length - 1) (by rw [List.length_map]; omega)
  rw [List.getElem_map, List.getElem_map] at hspan
  have htotal := totalSpan_eq (show 0 < series.length by omega)
  have hcount : ((series.length - 1 : ℕ) : ℤ) = (series.length : ℤ) - 1 := by omega
  have hbound : d * ((series.length : ℤ) - 1) ≤ totalSpan series := by
    rw [htotal, mul_comm, ← hcount]
    linarith
  have hnonneg : 0 ≤ d * ((series.length : ℤ) - 1) := mul_nonneg hd (by omega)
  unfold inferredStep
  rw [Int.tdiv_eq_ediv_of_nonneg (hnonneg.trans hbound)]
  exact (Int.le_ediv_iff_mul_le (by omega)).mpr hbound

omit [Field K] [LinearOrder K] in
theorem inferredStep_nonpos {series : List (Sample K)} (hlen : 2 ≤ series.length)
    (hspan : totalSpan series ≤ 0) : inferredStep series ≤ 0 := by
  have hneg := Int.tdiv_nonneg (show 0 ≤ -totalSpan series by omega)
    (show 0 ≤ (series.length : ℤ) - 1 by omega)
  rw [Int.neg_tdiv] at hneg
  unfold inferredStep
  omega

theorem predict.extrapolate_total (pow : K → K → K) {smoothed : List (Sample K)}
    (hlen : 2 ≤ smoothed.length)
    (hinc : (smoothed.map Sample.timestamp).Pairwise (· < ·)) (horizon : ℤ) :
    ∃ outcome, extrapolate pow smoothed horizon = some outcome := by
  have hstep : 1 ≤ inferredStep smoothed := le_inferredStep hlen zero_le_one (hinc.imp fun h => h)
  have hspan : ¬ totalSpan smoothed ≤ 0 := by
    intro h
    have hnonpos := inferredStep_nonpos hlen h
    omega
  rw [extrapolate_eq pow hlen, if_neg hspan, if_neg (by omega)]
  exact ⟨_, rfl⟩

/-- On increasing timestamps no index is out of range and no division is by zero. -/
theorem predict_total (pow : K → K → K) {samples : List (Sample K)}
    (h : (samples.map Sample.timestamp).Pairwise (· < ·)) (cfg : EWMAConfig K) :
    ∃ outcome, predict pow samples cfg = some outcome := by
  unfold predict
  split_ifs with hhorizon hlen
  · exact ⟨_, rfl⟩
  · exact ⟨_, rfl⟩
  · cases hsmooth : smooth samples cfg.alpha with
    | error err => exact ⟨_, rfl⟩
    | ok smoothed =>
      have htimes := smooth_timestamps hsmooth
      have hsame : smoothed.length = samples.length := by
        simpa using congrArg List.length htimes
      exact predict.extrapolate_total pow (by omega) (htimes ▸ h) cfg.horizon

end Autoscaler.Predictor
