import Autoscaler.Controller.ScaleHistory
import Mathlib.Algebra.Order.Floor.Ring
import Mathlib.Algebra.Order.Field.Basic
import Mathlib.Data.Rat.Floor
import Mathlib.Tactic.FieldSimp
import Mathlib.Tactic.Positivity

/-! The replica arithmetic. CPU percentages range over any ordered field with a floor, so the
definitions run on rationals and reason about reals; the arithmetic is exact. -/
namespace Autoscaler.Controller

section Definitions

variable {K : Type*} [Field K] [LinearOrder K]

/-- Modes select only the signal; they share readiness and every later rule. -/
def selectDecisionSignal (mode : DecisionMode) (current predicted : K) (target : ℤ) :
    DecisionMode × K :=
  let mode := if mode = .unset then .predictive else mode
  match mode with
  | .current => (mode, current)
  | .hybrid => (mode, max current (min predicted (target : K)))
  | _ => (mode, predicted)

def tolerance : K := 1 / 10

/-- The ceiling is clamped before it is converted to an integer. -/
def computeDesiredReplicas [FloorRing K] (currentReplicas : ℤ) (decisionCPU : K)
    (targetCPU minReplicas maxReplicas : ℤ) : ℤ :=
  let decisionCPU := if decisionCPU < 0 then 0 else decisionCPU
  let desiredRaw : K := ⌈(currentReplicas : K) * decisionCPU / (targetCPU : K)⌉
  let minReplicas := if minReplicas < 1 then 1 else minReplicas
  ⌊min (max desiredRaw (minReplicas : K)) (maxReplicas : K)⌋

def withinTolerance (decisionCPU : K) (targetCPU : ℤ) : Bool :=
  let decisionCPU := if decisionCPU < 0 then 0 else decisionCPU
  let ratio := decisionCPU / (targetCPU : K)
  decide (|ratio - 1| < tolerance)

def maxLeadFactor : K := 13 / 10

def capPrediction (predicted currentCPU : K) : K :=
  if predicted < 0 then 0
  else
    let ceiling := currentCPU * maxLeadFactor
    if predicted > ceiling then ceiling else predicted

/-- Keep the signal's direction relative to the live request when observed replicas lag. -/
def directedRecommendation [FloorRing K] (observed requested : ℤ) (decisionCPU : K)
    (target minimum maximum : ℤ) : ℤ :=
  let desired := computeDesiredReplicas observed decisionCPU target minimum maximum
  let desired :=
    if decisionCPU < (target : K) then min desired requested
    else if decisionCPU > (target : K) then max desired requested
    else desired
  clampReplicas minimum maximum desired

inductive SkipReason where
  | none
  | desiredEqualsCurrent
  | withinToleranceBand
  deriving DecidableEq, Repr

def SkipReason.text : SkipReason → String
  | .none => ""
  | .desiredEqualsCurrent => "DesiredEqualsCurrent"
  | .withinToleranceBand => "WithinToleranceBand"

def scalingSkipReason (finalDesired requested : ℤ) (decisionCPU : K)
    (target minimum maximum : ℤ) : SkipReason :=
  if finalDesired = requested then .desiredEqualsCurrent
  else if requested ≥ max minimum 1 ∧ requested ≤ maximum ∧
      withinTolerance decisionCPU target = true then .withinToleranceBand
  else .none

/-- Everything one reconciliation decides and logs before it touches the Scale. -/
structure ScalingDecision (K : Type*) where
  mode : DecisionMode
  decisionCPU : K
  rawPredictedCPU : K
  currentCPU : K
  predictedCPU : K
  currentReplicas : ℤ
  requestedReplicas : ℤ
  desiredReplicas : ℤ
  evaluatedAt : ℤ
  stabilization : StabilizationResult
  skipReason : SkipReason

def ScalingDecision.finalDesired (d : ScalingDecision K) : ℤ := d.stabilization.finalDesired

/-- A default or explicit zero means one. -/
def effectiveMinReplicas (spec : PredictiveHPASpec) : ℤ := max 1 (spec.minReplicas.getD 1)

/-- The policy of one cycle, from a verified CPU value and forecast to the skip reason. -/
def evaluateDecision [FloorRing K] (history : History) (phpa : PredictiveHPA)
    (deploy : Deployment) (scale : Scale) (now : ℤ) (currentCPU rawPredictedCPU : K) :
    ScalingDecision K × History :=
  let predictedCPU := capPrediction rawPredictedCPU currentCPU
  let target := phpa.spec.targetCPUUtilizationPercentage
  let (mode, decisionCPU) :=
    selectDecisionSignal phpa.spec.decisionMode currentCPU predictedCPU target
  let currentReplicas := scale.statusReplicas
  let requestedReplicas := scale.specReplicas
  let minReplicas := effectiveMinReplicas phpa.spec
  let desiredReplicas := directedRecommendation currentReplicas requestedReplicas decisionCPU
    target minReplicas phpa.spec.maxReplicas
  let (stabilization, history) := stabilizeRecommendation history phpa deploy now
    desiredReplicas requestedReplicas minReplicas
  let skipReason := scalingSkipReason stabilization.finalDesired requestedReplicas decisionCPU
    target minReplicas phpa.spec.maxReplicas
  ({ mode, decisionCPU, rawPredictedCPU, currentCPU, predictedCPU, currentReplicas,
     requestedReplicas, desiredReplicas, evaluatedAt := now, stabilization, skipReason }, history)

end Definitions

structure ValidPolicy (minimum maximum target windowSeconds : ℤ) : Prop where
  minimum_nonneg : 0 ≤ minimum
  minimum_le : minimum ≤ maximum
  maximum_pos : 1 ≤ maximum
  target_pos : 1 ≤ target
  target_le : target ≤ 100
  window_nonneg : 0 ≤ windowSeconds

section Directed

variable {K : Type*} [Field K] [LinearOrder K] [FloorRing K]

theorem directedRecommendation_of_lt {cpu : K} {target : ℤ} (h : cpu < target)
    (observed requested minimum maximum : ℤ) :
    directedRecommendation observed requested cpu target minimum maximum =
      clampReplicas minimum maximum
        (min (computeDesiredReplicas observed cpu target minimum maximum) requested) := by
  simp only [directedRecommendation, if_pos h]

theorem directedRecommendation_of_gt {cpu : K} {target : ℤ} (h : (target : K) < cpu)
    (observed requested minimum maximum : ℤ) :
    directedRecommendation observed requested cpu target minimum maximum =
      clampReplicas minimum maximum
        (max (computeDesiredReplicas observed cpu target minimum maximum) requested) := by
  simp only [directedRecommendation, if_neg h.not_gt, if_pos h]

end Directed

section Arithmetic

variable {K : Type*} [Field K] [LinearOrder K] [IsStrictOrderedRing K] [FloorRing K]

/-- Clamping before the conversion loses nothing: the result is the clamped integer ceiling. -/
theorem computeDesiredReplicas_eq (observed : ℤ) (cpu : K) (target minimum maximum : ℤ) :
    computeDesiredReplicas observed cpu target minimum maximum =
      clampReplicas minimum maximum ⌈(observed : K) * max cpu 0 / (target : K)⌉ := by
  have hcpu : (if cpu < 0 then 0 else cpu) = max cpu 0 := by
    split_ifs with h
    · exact (max_eq_right h.le).symm
    · exact (max_eq_left (not_lt.mp h)).symm
  have hmin : (if minimum < 1 then 1 else minimum) = max minimum 1 := by omega
  unfold computeDesiredReplicas clampReplicas
  simp only [hcpu, hmin]
  rw [← Int.cast_max, ← Int.cast_min, Int.floor_intCast]

theorem computeDesiredReplicas_target (observed : ℤ) {target : ℤ} (ht : 1 ≤ target)
    (minimum maximum : ℤ) :
    computeDesiredReplicas observed (target : K) target minimum maximum =
      clampReplicas minimum maximum observed := by
  have hpos : (0 : K) < target := by exact_mod_cast ht
  rw [computeDesiredReplicas_eq, max_eq_left hpos.le, mul_div_cancel_right₀ _ hpos.ne',
    Int.ceil_intCast]

theorem withinTolerance_target {target : ℤ} (ht : 1 ≤ target) :
    withinTolerance (target : K) target = true := by
  have hpos : (0 : K) < target := by exact_mod_cast ht
  unfold withinTolerance tolerance
  simp only [if_neg hpos.not_gt, div_self hpos.ne', sub_self, abs_zero, decide_eq_true_eq]
  positivity

theorem directedRecommendation_target (observed requested : ℤ) {target : ℤ} (ht : 1 ≤ target)
    (minimum maximum : ℤ) :
    directedRecommendation observed requested (target : K) target minimum maximum =
      clampReplicas minimum maximum observed := by
  simp only [directedRecommendation, gt_iff_lt, lt_self_iff_false, if_false,
    computeDesiredReplicas_target observed ht, clampReplicas_idem]

variable (minimum maximum : ℤ) {observed target : ℤ} {cpu cpu' : K}

theorem computeDesiredReplicas_mono (hobserved : 0 ≤ observed) (htarget : 1 ≤ target)
    (h : cpu ≤ cpu') :
    computeDesiredReplicas observed cpu target minimum maximum ≤
      computeDesiredReplicas observed cpu' target minimum maximum := by
  have hobserved : (0 : K) ≤ observed := by exact_mod_cast hobserved
  have htarget : (0 : K) ≤ target := by exact_mod_cast (le_trans (by decide) htarget)
  rw [computeDesiredReplicas_eq, computeDesiredReplicas_eq]
  refine clampReplicas_mono _ _ (Int.ceil_le_ceil (div_le_div_of_nonneg_right ?_ htarget))
  exact mul_le_mul_of_nonneg_left (max_le_max_right 0 h) hobserved

/-- A larger signal never lowers the recommendation, also where it changes the direction rule. -/
theorem directedRecommendation_mono (hobserved : 0 ≤ observed) (htarget : 1 ≤ target)
    (requested : ℤ) (h : cpu ≤ cpu') :
    directedRecommendation observed requested cpu target minimum maximum ≤
      directedRecommendation observed requested cpu' target minimum maximum := by
  have hmono := computeDesiredReplicas_mono minimum maximum hobserved htarget h
  refine clampReplicas_mono _ _ ?_
  rcases lt_trichotomy cpu target with hlt | heq | hgt
  · rw [if_pos hlt]
    split_ifs
    · exact min_le_min_right _ hmono
    · exact (min_le_left _ _).trans (hmono.trans (le_max_left _ _))
    · exact (min_le_left _ _).trans hmono
  · -- at the target the observed replicas decide, whatever was requested
    rw [if_neg heq.not_lt, if_neg heq.not_gt, if_neg (heq ▸ h).not_gt]
    split_ifs
    · exact hmono.trans (le_max_left _ _)
    · exact hmono
  · have hgt' : (target : K) < cpu' := hgt.trans_le h
    rw [if_neg hgt.not_gt, if_pos hgt, if_neg hgt'.not_gt, if_pos hgt']
    exact max_le_max_right _ hmono

end Arithmetic

section Stabilized

variable (history : History) (phpa : PredictiveHPA) (deploy : Deployment)
  (now desired requested minimum : ℤ)

/-- The recommendation just recorded survives its own pruning. -/
theorem desired_le_peak (hw : 0 < stabilizationWindow phpa.spec) :
    desired ≤
      (advanceHistory (history phpa.metadata.key) phpa deploy now desired requested).1 := by
  obtain ⟨-, hpeak, -⟩ := advanceHistory_peak
    (history phpa.metadata.key) phpa deploy now desired requested
  obtain ⟨init, w, hpush, hle⟩ := RollingMax.push_getLast
    (fun t => Time.truncate t (bucketWidth (stabilizationWindow phpa.spec)))
    (historyInForce (history phpa.metadata.key) phpa deploy now requested).marks now desired
  refine hle.trans (hpeak (now, w) ?_)
  rw [advanceHistory_marks _ _ _ _ _ _ hw, hpush]
  exact RollingMax.getLast_mem_prune init (by simpa using hw.le)

/-- What stabilization returns: the recommendation itself, or a request that history retains. -/
theorem finalDesired_cases :
    let final := (stabilizeRecommendation history phpa deploy now desired requested
      minimum).1.finalDesired
    final = clampReplicas minimum phpa.spec.maxReplicas desired ∨
      ∃ retained, desired ≤ retained ∧ retained ≤ requested ∧
        final = clampReplicas minimum phpa.spec.maxReplicas retained := by
  intro final
  have hfinal := stabilizeRecommendation_finalDesired history phpa deploy now desired requested
    minimum
  by_cases h : stabilizationWindow phpa.spec > 0 ∧ desired < requested
  · right
    have hpeak := desired_le_peak history phpa deploy now desired requested h.1
    dsimp only at hfinal
    rw [if_pos h] at hfinal
    refine ⟨_, le_min h.2.le ?_, min_le_left requested _, hfinal⟩
    split_ifs
    · exact hpeak.trans (le_max_left _ _)
    · exact hpeak
  · left
    dsimp only at hfinal
    rw [if_neg h] at hfinal
    exact hfinal

end Stabilized

end Autoscaler.Controller
