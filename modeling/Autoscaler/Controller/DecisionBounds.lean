import Autoscaler.Controller.ScalingDecision
import Mathlib.Tactic.NormNum

/-! Direction and bounds of a whole decision: formula, lagging replicas, clamps, history peaks
and the cold-start guard together. -/
namespace Autoscaler.Controller

theorem ValidPolicy.lower_le {minimum maximum target windowSeconds : ℤ}
    (h : ValidPolicy minimum maximum target windowSeconds) : max minimum 1 ≤ maximum :=
  max_le h.minimum_le h.maximum_pos

theorem clampReplicas_le_max (minimum maximum x : ℤ) :
    clampReplicas minimum maximum x ≤ max x (max minimum 1) := min_le_left _ _

theorem min_le_clampReplicas (minimum maximum x : ℤ) :
    min x maximum ≤ clampReplicas minimum maximum x :=
  min_le_min_right _ (le_max_left _ _)

section Direction

variable {K : Type*} [Field K] [LinearOrder K] [FloorRing K]
  {minimum maximum target windowSeconds : ℤ}

theorem directedRecommendation_le {cpu : K} (hcpu : cpu < target) (observed requested : ℤ) :
    directedRecommendation observed requested cpu target minimum maximum ≤
      clampReplicas minimum maximum requested := by
  rw [directedRecommendation_of_lt hcpu]
  exact clampReplicas_mono _ _ (min_le_right _ _)

theorem le_directedRecommendation {cpu : K} (hcpu : (target : K) < cpu)
    (observed requested : ℤ) :
    clampReplicas minimum maximum requested ≤
      directedRecommendation observed requested cpu target minimum maximum := by
  rw [directedRecommendation_of_gt hcpu]
  exact clampReplicas_mono _ _ (le_max_right _ _)

theorem directedRecommendation_clamped (observed requested : ℤ) (cpu : K) :
    clampReplicas minimum maximum
        (directedRecommendation observed requested cpu target minimum maximum) =
      directedRecommendation observed requested cpu target minimum maximum :=
  clampReplicas_idem _ _ _

end Direction

section Whole

variable {K : Type*} [Field K] [LinearOrder K] [FloorRing K]

/-- The final value stays in bounds and never crosses the live request against the signal. -/
theorem decision_direction_bounds (history : History) (phpa : PredictiveHPA)
    (deploy : Deployment) (now observed requested minimum : ℤ) (cpu : K)
    (h : ValidPolicy minimum phpa.spec.maxReplicas phpa.spec.targetCPUUtilizationPercentage
      (stabilizationWindowSeconds phpa.spec)) :
    let maximum := phpa.spec.maxReplicas
    let target := phpa.spec.targetCPUUtilizationPercentage
    let desired := directedRecommendation observed requested cpu target minimum maximum
    let final := (stabilizeRecommendation history phpa deploy now desired requested
      minimum).1.finalDesired
    (max minimum 1 ≤ final ∧ final ≤ maximum) ∧
      (cpu < target → final ≤ max requested (max minimum 1)) ∧
      ((target : K) < cpu → min requested maximum ≤ final) := by
  intro maximum target desired final
  have hlo : max minimum 1 ≤ maximum := h.lower_le
  have hclamped : clampReplicas minimum maximum desired = desired :=
    directedRecommendation_clamped observed requested cpu
  rcases finalDesired_cases history phpa deploy now desired requested minimum with
    hfinal | ⟨retained, hge, hle, hfinal⟩
  · have hfinal : final = desired := hfinal.trans hclamped
    refine ⟨?_, fun hcpu => ?_, fun hcpu => ?_⟩
    · rw [hfinal, ← hclamped]
      exact ⟨le_clampReplicas _ _ hlo _, clampReplicas_le _ _ _⟩
    · rw [hfinal]
      exact (directedRecommendation_le hcpu _ _).trans (clampReplicas_le_max _ _ _)
    · rw [hfinal]
      exact (min_le_clampReplicas _ _ _).trans (le_directedRecommendation hcpu _ _)
  · have hfinal : final = clampReplicas minimum maximum retained := hfinal
    rw [hfinal]
    refine ⟨⟨le_clampReplicas _ _ hlo _, clampReplicas_le _ _ _⟩, fun hcpu => ?_, fun hcpu => ?_⟩
    · exact (clampReplicas_mono _ _ hle).trans (clampReplicas_le_max _ _ _)
    · calc min requested maximum
          ≤ clampReplicas minimum maximum requested := min_le_clampReplicas _ _ _
        _ ≤ desired := le_directedRecommendation hcpu _ _
        _ = clampReplicas minimum maximum desired := hclamped.symm
        _ ≤ clampReplicas minimum maximum retained := clampReplicas_mono _ _ hge

/-- A lagging observed count under the safety fixture's policy, with an idle CPU. -/
theorem decision_direction_bounds_idle :
    let final := (stabilizeRecommendation (fun _ => none) safetyPHPA safetyDeployment 100
      (directedRecommendation 5 3 (0 : ℚ) 50 1 10) 3 1).1.finalDesired
    (1 ≤ final ∧ final ≤ 10) ∧ final ≤ 3 := by
  have h := decision_direction_bounds (fun _ => none) safetyPHPA safetyDeployment 100 5 3 1
    (0 : ℚ) (by constructor <;> decide)
  exact ⟨h.1, h.2.1 (by norm_num [safetyPHPA, safetySpec])⟩

end Whole

section Signal

variable {K : Type*} [Field K] [LinearOrder K]

/-- The Hybrid signal of a CPU at most the target saturates at the target. -/
theorem hybridSignal_eq_target_iff {current predicted : K} {target : ℤ} (h : current ≤ target) :
    max current (min predicted (target : K)) = target ↔
      current = target ∨ (target : K) ≤ predicted := by
  constructor
  · intro heq
    rcases max_choice current (min predicted (target : K)) with hc | hp
    · exact Or.inl (hc.symm.trans heq)
    · exact Or.inr (min_eq_right_iff.mp (hp.symm.trans heq))
  · rintro (rfl | hp)
    · exact max_eq_left (min_le_right _ _)
    · rw [min_eq_right hp, max_eq_right h]

/-- The inputs on which a Hybrid cycle without demand above the target still expands: the
request is under the lower bound, a lagging observed count is over it, and the signal sits
exactly on the target, where no direction rule applies. -/
def hybridExpands (phpa : PredictiveHPA) (scale : Scale) (currentCPU rawPredictedCPU : K) : Prop :=
  let lower := effectiveMinReplicas phpa.spec
  let target := phpa.spec.targetCPUUtilizationPercentage
  scale.specReplicas < lower ∧ lower < min scale.statusReplicas phpa.spec.maxReplicas ∧
    (currentCPU = target ∨ (target : K) ≤ capPrediction rawPredictedCPU currentCPU)

variable [FloorRing K]

/-- A request within bounds, or over them, is never raised by a signal at the target. -/
theorem le_request_of_target [IsStrictOrderedRing K] {minimum maximum target requested final : ℤ}
    (ht : 1 ≤ target) (hlo : max minimum 1 ≤ requested) (hmax : final ≤ maximum)
    (hskip : scalingSkipReason final requested (target : K) target minimum maximum = .none) :
    final ≤ requested := by
  by_contra hlt
  have hne : ¬ final = requested := by omega
  have hin : requested ≥ max minimum 1 ∧ requested ≤ maximum ∧
      withinTolerance (target : K) target = true :=
    ⟨hlo, by omega, withinTolerance_target ht⟩
  rw [scalingSkipReason, if_neg hne, if_pos hin] at hskip
  cases hskip

theorem evaluateDecision_hybrid (history : History) (phpa : PredictiveHPA)
    (deploy : Deployment) (scale : Scale) (now : ℤ) (currentCPU rawPredictedCPU : K)
    (hmode : phpa.spec.decisionMode = .hybrid) :
    let decision :=
      (evaluateDecision history phpa deploy scale now currentCPU rawPredictedCPU).1
    let target := phpa.spec.targetCPUUtilizationPercentage
    let lower := effectiveMinReplicas phpa.spec
    let signal := max currentCPU (min (capPrediction rawPredictedCPU currentCPU) (target : K))
    decision.finalDesired = (stabilizeRecommendation history phpa deploy now
        (directedRecommendation scale.statusReplicas scale.specReplicas signal target lower
          phpa.spec.maxReplicas) scale.specReplicas lower).1.finalDesired ∧
      decision.skipReason = scalingSkipReason decision.finalDesired scale.specReplicas signal
        target lower phpa.spec.maxReplicas := by
  simp only [evaluateDecision, selectDecisionSignal, hmode]
  exact ⟨rfl, rfl⟩

theorem ValidPolicy.effective {spec : PredictiveHPASpec} {target windowSeconds : ℤ}
    (h : ValidPolicy (spec.minReplicas.getD 1) spec.maxReplicas target windowSeconds) :
    ValidPolicy (effectiveMinReplicas spec) spec.maxReplicas target windowSeconds :=
  { h with
    minimum_nonneg := le_trans (by decide) (le_max_left _ _)
    minimum_le := max_le h.maximum_pos h.minimum_le }

theorem one_le_effectiveMinReplicas (spec : PredictiveHPASpec) :
    1 ≤ effectiveMinReplicas spec := le_max_left _ _

/-- In Hybrid mode a CPU at most the target leads to a write above the request and the lower
bound exactly on the inputs of `hybridExpands`. -/
theorem hybrid_no_expansion_iff [IsStrictOrderedRing K] (history : History)
    (phpa : PredictiveHPA) (deploy : Deployment) (scale : Scale) (now : ℤ)
    (currentCPU rawPredictedCPU : K)
    (h : ValidPolicy (phpa.spec.minReplicas.getD 1) phpa.spec.maxReplicas
      phpa.spec.targetCPUUtilizationPercentage (stabilizationWindowSeconds phpa.spec))
    (hmode : phpa.spec.decisionMode = .hybrid)
    (hcpu : currentCPU ≤ phpa.spec.targetCPUUtilizationPercentage) :
    let decision :=
      (evaluateDecision history phpa deploy scale now currentCPU rawPredictedCPU).1
    (decision.skipReason = .none →
        decision.finalDesired ≤ max scale.specReplicas (effectiveMinReplicas phpa.spec)) ↔
      ¬ hybridExpands phpa scale currentCPU rawPredictedCPU := by
  intro decision
  have hlower := one_le_effectiveMinReplicas phpa.spec
  obtain ⟨hfinal, hskip⟩ := evaluateDecision_hybrid history phpa deploy scale now currentCPU
    rawPredictedCPU hmode
  have hbounds := decision_direction_bounds history phpa deploy now scale.statusReplicas
    scale.specReplicas (effectiveMinReplicas phpa.spec)
    (max currentCPU (min (capPrediction rawPredictedCPU currentCPU)
      (phpa.spec.targetCPUUtilizationPercentage : K))) h.effective
  dsimp only at hbounds
  rw [← hfinal, max_eq_left hlower] at hbounds
  obtain ⟨⟨-, hmaximum⟩, hbelow, -⟩ := hbounds
  rcases (max_le hcpu (min_le_right _ _) : max currentCPU
    (min (capPrediction rawPredictedCPU currentCPU)
      (phpa.spec.targetCPUUtilizationPercentage : K)) ≤ _).lt_or_eq with hlt | heq
  · refine iff_of_true (fun _ => hbelow hlt) fun ⟨_, _, hsat⟩ => ?_
    exact hlt.ne ((hybridSignal_eq_target_iff hcpu).mpr hsat)
  have hsat := (hybridSignal_eq_target_iff hcpu).mp heq
  by_cases hreq : effectiveMinReplicas phpa.spec ≤ scale.specReplicas
  · refine iff_of_true (fun hnone => ?_) fun ⟨hlt, _⟩ => absurd hreq (not_le.mpr hlt)
    rw [hskip, heq] at hnone
    refine (le_request_of_target h.target_pos ?_ hmaximum hnone).trans (le_max_left _ _)
    rwa [max_eq_left hlower]
  · -- Under the lower bound nothing is skipped, and the observed count decides.
    have hlo : max (effectiveMinReplicas phpa.spec) 1 ≤ phpa.spec.maxReplicas :=
      h.effective.lower_le
    rw [heq, directedRecommendation_target _ _ h.target_pos] at hfinal
    have hobserved : decision.finalDesired = clampReplicas (effectiveMinReplicas phpa.spec)
        phpa.spec.maxReplicas scale.statusReplicas := by
      rw [hfinal]
      rcases finalDesired_cases history phpa deploy now (clampReplicas
        (effectiveMinReplicas phpa.spec) phpa.spec.maxReplicas scale.statusReplicas)
        scale.specReplicas (effectiveMinReplicas phpa.spec) with hc | ⟨retained, hge, hle, -⟩
      · exact hc.trans (clampReplicas_idem _ _ _)
      · have := le_clampReplicas (effectiveMinReplicas phpa.spec) phpa.spec.maxReplicas hlo
          scale.statusReplicas
        omega
    have hnone : decision.skipReason = .none := by
      rw [hskip, scalingSkipReason, if_neg, if_neg]
      · rintro ⟨hge, -⟩
        omega
      · rw [hobserved, clampReplicas]
        omega
    simp only [hnone, forall_const, hobserved, hybridExpands, hsat, and_true, clampReplicas]
    omega

def laggingPHPA : PredictiveHPA :=
  { safetyPHPA with spec :=
    { safetySpec with minReplicas := some 3, decisionMode := .hybrid } }

def laggingScale : Scale := ⟨"deployment-one", 2, 1, 5⟩

theorem hybrid_no_expansion_iff_retained :
    (evaluateDecision (fun _ => none) laggingPHPA safetyDeployment laggingScale 100
      (30 : ℚ) 60).1.finalDesired ≤ 3 := by
  refine (hybrid_no_expansion_iff (fun _ => none) laggingPHPA safetyDeployment laggingScale 100
    (30 : ℚ) 60 (by constructor <;> decide) rfl (by norm_num [laggingPHPA, safetySpec])).mpr ?_
    (by decide +kernel)
  rintro ⟨-, -, h⟩
  norm_num [laggingPHPA, safetySpec, capPrediction, maxLeadFactor] at h

/-- With a CPU of 40 the capped forecast of 52 lifts the signal to the target of 50, and the
request of one is raised to five although the lower bound is three. -/
theorem hybrid_forecast_expands :
    ¬ ∀ (history : History) (phpa : PredictiveHPA) (deploy : Deployment) (scale : Scale)
      (now : ℤ) (currentCPU rawPredictedCPU : ℚ),
      ValidPolicy (phpa.spec.minReplicas.getD 1) phpa.spec.maxReplicas
        phpa.spec.targetCPUUtilizationPercentage (stabilizationWindowSeconds phpa.spec) →
      phpa.spec.decisionMode = .hybrid → 0 ≤ scale.statusReplicas → 0 ≤ scale.specReplicas →
      currentCPU ≤ phpa.spec.targetCPUUtilizationPercentage →
      let decision :=
        (evaluateDecision history phpa deploy scale now currentCPU rawPredictedCPU).1
      decision.skipReason = .none →
        decision.finalDesired ≤ max scale.specReplicas (effectiveMinReplicas phpa.spec) := by
  intro h
  have h := h (fun _ => none) laggingPHPA safetyDeployment laggingScale 100 40 60
    (by constructor <;> decide) rfl (by decide) (by decide)
    (by norm_num [laggingPHPA, safetySpec])
  revert h
  decide +kernel

end Signal

end Autoscaler.Controller
