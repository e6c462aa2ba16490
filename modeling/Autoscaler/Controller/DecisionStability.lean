import Autoscaler.Controller.DecisionBounds

/-! A written decision is a fixed point: repeating the evaluation at the same time writes
nothing. -/
namespace Autoscaler.Controller

/-- The same policy and target, as far as stabilization looks at them. Status writes, rollouts
and new resource versions do not matter. -/
structure SameIncarnation (phpa phpa' : PredictiveHPA) (deploy deploy' : Deployment) : Prop where
  key : phpa'.metadata.key = phpa.metadata.key
  phpaUID : phpa'.metadata.uid = phpa.metadata.uid
  spec : phpa'.spec = phpa.spec
  targetUID : deploy'.metadata.uid = deploy.metadata.uid
  targetName : deploy'.metadata.name = deploy.metadata.name

section Retained

variable (history : History) (phpa : PredictiveHPA) (deploy : Deployment)
  (now desired requested minimum : ℤ)

/-- What history lets a reduction keep: the peak, and under the guard the protected request. -/
def retainedPeak : ℤ :=
  let advanced := advanceHistory (history phpa.metadata.key) phpa deploy now desired requested
  if now ≤ advanced.2.protectedAt + stabilizationWindow phpa.spec then
    max advanced.1 advanced.2.protectedReplicas
  else advanced.1

theorem finalDesired_eq_retained :
    (stabilizeRecommendation history phpa deploy now desired requested minimum).1.finalDesired =
      clampReplicas minimum phpa.spec.maxReplicas
        (if 0 < stabilizationWindow phpa.spec ∧ desired < requested then
          min requested (retainedPeak history phpa deploy now desired requested)
        else desired) := by
  have hfinal := stabilizeRecommendation_finalDesired history phpa deploy now desired requested
    minimum
  dsimp only at hfinal
  rw [hfinal]
  by_cases h : 0 < stabilizationWindow phpa.spec ∧ desired < requested
  · have hguard : (stabilizeRecommendation history phpa deploy now desired requested
        minimum).1.coldStart = true ↔ now ≤ (advanceHistory (history phpa.metadata.key) phpa
          deploy now desired requested).2.protectedAt + stabilizationWindow phpa.spec := by
      simp only [stabilizeRecommendation, gt_iff_lt, decide_eq_true h.1, Bool.true_and,
        Bool.not_eq_true', decide_eq_false_iff_not, not_lt]
    rw [if_pos h, if_pos h]
    unfold retainedPeak
    by_cases hcold : (stabilizeRecommendation history phpa deploy now desired requested
      minimum).1.coldStart = true
    · rw [if_pos hcold, if_pos (hguard.mp hcold)]
      rfl
    · rw [if_neg hcold, if_neg (hguard.not.mp hcold)]
  · rw [if_neg h, if_neg h]

theorem desired_le_retained (hw : 0 < stabilizationWindow phpa.spec) :
    desired ≤ retainedPeak history phpa deploy now desired requested := by
  have hpeak := desired_le_peak history phpa deploy now desired requested hw
  unfold retainedPeak
  dsimp only
  split_ifs
  · exact hpeak.trans (le_max_left _ _)
  · exact hpeak

theorem finalDesired_of_le (h : requested ≤ desired) :
    (stabilizeRecommendation history phpa deploy now desired requested minimum).1.finalDesired =
      clampReplicas minimum phpa.spec.maxReplicas desired := by
  rw [finalDesired_eq_retained, if_neg fun hlt => not_lt.mpr h hlt.2]

end Retained

section Again

variable (history : History) {phpa phpa' : PredictiveHPA} {deploy deploy' : Deployment}
  (now desired requested minimum : ℤ)

/-- A call right after another one finds the entry that one left. -/
theorem historyInForce_again (stored : Option ScaleHistory)
    (h : SameIncarnation phpa phpa' deploy deploy') (requested' : ℤ) :
    historyInForce (some (advanceHistory stored phpa deploy now desired requested).2) phpa' deploy'
        now requested' =
      (advanceHistory stored phpa deploy now desired requested).2 := by
  obtain ⟨huid, htarget, hname, hwindow⟩ :=
    historyInForce_matches stored phpa deploy now requested
  refine historyInForce_of_kept ((rebuilds_some_eq_false _ _ _ _).mpr ⟨?_, ?_, ?_, ?_, ?_⟩) _
  · exact huid.trans h.phpaUID.symm
  · exact htarget.trans h.targetUID.symm
  · exact hname.trans h.targetName.symm
  · exact hwindow.trans (by rw [h.spec])
  · exact le_refl now

/-- A second recommendation at the same time never lowers what history retains. -/
theorem retainedPeak_again (h : SameIncarnation phpa phpa' deploy deploy')
    (hw : 0 < stabilizationWindow phpa.spec) (desired' requested' : ℤ) :
    retainedPeak history phpa deploy now desired requested ≤
      retainedPeak (stabilizeRecommendation history phpa deploy now desired requested minimum).2
        phpa' deploy' now desired' requested' := by
  set first := advanceHistory (history phpa.metadata.key) phpa deploy now desired requested
    with hfirst
  have hforce : historyInForce (some first.2) phpa' deploy' now requested' = first.2 :=
    historyInForce_again now desired requested _ h requested'
  set second := advanceHistory (some first.2) phpa' deploy' now desired' requested' with hsecond
  have hprotected : second.2.protectedAt = first.2.protectedAt ∧
      second.2.protectedReplicas = first.2.protectedReplicas := by
    rw [← hforce]
    exact ⟨rfl, rfl⟩
  have hpeak : first.1 ≤ second.1 := by
    obtain ⟨-, -, hattained⟩ :=
      advanceHistory_peak (history phpa.metadata.key) phpa deploy now desired requested
    obtain ⟨hnonneg, hbound, -⟩ :=
      advanceHistory_peak (some first.2) phpa' deploy' now desired' requested'
    rcases hattained with hzero | ⟨m, hm, hpeak⟩
    · exact hzero.le.trans hnonneg
    · have hmarks := advanceHistory_marks (history phpa.metadata.key) phpa deploy now desired
        requested hw
      have hmarks' := advanceHistory_marks (some first.2) phpa' deploy' now desired' requested'
        (by rw [h.spec]; exact hw)
      rw [hforce, h.spec, hfirst, hmarks] at hmarks'
      rw [hmarks] at hm
      obtain ⟨m', hm', hle⟩ := RollingMax.rerecord_dominates _ _
        (show now - stabilizationWindow phpa.spec ≤ now by omega) desired desired' m hm
      rw [← hpeak]
      exact hle.trans (hbound m' (hmarks' ▸ hm'))
  have hstored : (stabilizeRecommendation history phpa deploy now desired requested minimum).2
      phpa'.metadata.key = some first.2 := by
    rw [stabilizeRecommendation_snd, h.key, Function.update_self]
  unfold retainedPeak
  rw [hstored, ← hfirst, ← hsecond]
  dsimp only
  rw [hprotected.1, hprotected.2, h.spec]
  split_ifs
  · exact max_le_max_right _ hpeak
  · exact hpeak

end Again

section Directed

variable {K : Type*} [Field K] [LinearOrder K] [IsStrictOrderedRing K] [FloorRing K]
  {minimum maximum target : ℤ} (observed : ℤ)

theorem computeDesiredReplicas_clamped (cpu : K) :
    clampReplicas minimum maximum (computeDesiredReplicas observed cpu target minimum maximum) =
      computeDesiredReplicas observed cpu target minimum maximum := by
  rw [computeDesiredReplicas_eq, clampReplicas_idem]

theorem directedRecommendation_le_formula {cpu : K} (hcpu : cpu < target) (requested : ℤ) :
    directedRecommendation observed requested cpu target minimum maximum ≤
      computeDesiredReplicas observed cpu target minimum maximum := by
  rw [directedRecommendation_of_lt hcpu]
  exact (clampReplicas_mono _ _ (min_le_left _ _)).trans_eq
    (computeDesiredReplicas_clamped observed cpu)

theorem formula_le_directedRecommendation {cpu : K} (hcpu : (target : K) < cpu) (requested : ℤ) :
    computeDesiredReplicas observed cpu target minimum maximum ≤
      directedRecommendation observed requested cpu target minimum maximum := by
  rw [directedRecommendation_of_gt hcpu]
  exact (computeDesiredReplicas_clamped observed cpu).symm.trans_le
    (clampReplicas_mono _ _ (le_max_left _ _))

omit [IsStrictOrderedRing K] in
/-- Above the target a request that covers the formula is its own recommendation. -/
theorem directedRecommendation_self_of_gt {cpu : K} (hcpu : (target : K) < cpu) {requested : ℤ}
    (hclamped : clampReplicas minimum maximum requested = requested)
    (hge : computeDesiredReplicas observed cpu target minimum maximum ≤ requested) :
    directedRecommendation observed requested cpu target minimum maximum = requested := by
  rw [directedRecommendation_of_gt hcpu, max_eq_right hge, hclamped]

/-- Below the target a request in bounds is lowered to the formula, if at all. -/
theorem directedRecommendation_eq_min_of_lt {cpu : K} (hcpu : cpu < target) {requested : ℤ}
    (hclamped : clampReplicas minimum maximum requested = requested) :
    directedRecommendation observed requested cpu target minimum maximum =
      min (computeDesiredReplicas observed cpu target minimum maximum) requested := by
  rw [directedRecommendation_of_lt hcpu]
  rcases min_choice (computeDesiredReplicas observed cpu target minimum maximum) requested with
    h | h
  · rw [h, computeDesiredReplicas_clamped]
  · rw [h, hclamped]

end Directed

section Stable

variable {K : Type*} [Field K] [LinearOrder K] [IsStrictOrderedRing K] [FloorRing K]
  {phpa phpa' : PredictiveHPA} {deploy deploy' : Deployment} {minimum : ℤ} {cpu : K}
  (history : History) (now observed requested : ℤ)

/-- Off the target the second evaluation decides the request it finds. -/
theorem finalDesired_again (h : SameIncarnation phpa phpa' deploy deploy')
    (hlo : max minimum 1 ≤ phpa.spec.maxReplicas)
    (hcpu : cpu ≠ phpa.spec.targetCPUUtilizationPercentage) :
    let directed := fun requested => directedRecommendation observed requested cpu
      phpa.spec.targetCPUUtilizationPercentage minimum phpa.spec.maxReplicas
    let first := stabilizeRecommendation history phpa deploy now (directed requested) requested
      minimum
    (stabilizeRecommendation first.2 phpa' deploy' now (directed first.1.finalDesired)
      first.1.finalDesired minimum).1.finalDesired = first.1.finalDesired := by
  intro directed first
  have hmax : phpa'.spec.maxReplicas = phpa.spec.maxReplicas := by rw [h.spec]
  have hfirst := finalDesired_eq_retained history phpa deploy now (directed requested) requested
    minimum
  have hdirected : clampReplicas minimum phpa.spec.maxReplicas (directed requested) =
      directed requested := directedRecommendation_clamped observed requested cpu
  have hclamped : clampReplicas minimum phpa.spec.maxReplicas first.1.finalDesired =
      first.1.finalDesired := by
    rw [hfirst, clampReplicas_idem]
  have hge : directed requested ≤ first.1.finalDesired := by
    rcases finalDesired_cases history phpa deploy now (directed requested) requested minimum with
      hfinal | ⟨retained, hle, -, hfinal⟩
    · rw [hfinal, hdirected]
    · rw [hfinal, ← hdirected]
      exact clampReplicas_mono _ _ hle
  -- a second recommendation that equals the request is written back unchanged
  have hself : directed first.1.finalDesired = first.1.finalDesired →
      (stabilizeRecommendation first.2 phpa' deploy' now (directed first.1.finalDesired)
        first.1.finalDesired minimum).1.finalDesired = first.1.finalDesired := by
    intro heq
    rw [heq, finalDesired_of_le _ _ _ _ _ _ _ le_rfl, hmax, hclamped]
  rcases lt_or_gt_of_ne hcpu with hlt | hgt
  · have hmin : directed first.1.finalDesired = min (computeDesiredReplicas observed cpu
        phpa.spec.targetCPUUtilizationPercentage minimum phpa.spec.maxReplicas)
          first.1.finalDesired :=
      directedRecommendation_eq_min_of_lt observed hlt hclamped
    by_cases hreduce : 0 < stabilizationWindow phpa.spec ∧ directed requested < requested
    · rw [if_pos hreduce] at hfirst
      have hagain := retainedPeak_again history now (directed requested) requested minimum h
        hreduce.1 (directed first.1.finalDesired) first.1.finalDesired
      have hpeak := desired_le_retained history phpa deploy now (directed requested) requested
        hreduce.1
      rw [finalDesired_eq_retained, hmax]
      split_ifs with hsecond
      · -- the retained capacity still covers the request just written
        have hcover : first.1.finalDesired ≤ retainedPeak first.2 phpa' deploy' now
            (directed first.1.finalDesired) first.1.finalDesired := by
          refine le_trans ?_ hagain
          rw [hfirst]
          have hlower := le_clampReplicas minimum phpa.spec.maxReplicas hlo (directed requested)
          rw [hdirected] at hlower
          unfold clampReplicas
          omega
        rw [min_eq_left hcover, hclamped]
      · have hfixed : directed first.1.finalDesired = first.1.finalDesired := by
          have hle : first.1.finalDesired ≤ directed first.1.finalDesired := by
            by_contra hless
            exact hsecond ⟨by rw [h.spec]; exact hreduce.1, not_le.mp hless⟩
          exact le_antisymm (hmin.trans_le (min_le_right _ _)) hle
        rw [hfixed, hclamped]
    · rw [if_neg hreduce, hdirected] at hfirst
      refine hself (hmin.trans (min_eq_right (hfirst.trans_le ?_)))
      exact directedRecommendation_le_formula observed hlt requested
  · refine hself (directedRecommendation_self_of_gt observed hgt hclamped (le_trans ?_ hge))
    exact formula_le_directedRecommendation observed hgt requested

theorem skips_of_target {minimum maximum target final requested : ℤ} (ht : 1 ≤ target)
    (hlo : max minimum 1 ≤ requested) (hhi : requested ≤ maximum) :
    scalingSkipReason final requested (target : K) target minimum maximum ≠ .none := by
  unfold scalingSkipReason
  by_cases heq : final = requested
  · simp [heq]
  · simp [heq, hlo, hhi, withinTolerance_target ht]

/-- Whatever an evaluation decides, evaluating again at the same time for the same observed
replicas and decision CPU, with that decision as the request, is skipped. -/
theorem decision_stable (history : History) (scale scale' : Scale)
    (currentCPU rawPredictedCPU currentCPU' rawPredictedCPU' : K)
    (hvalid : ValidPolicy (phpa.spec.minReplicas.getD 1) phpa.spec.maxReplicas
      phpa.spec.targetCPUUtilizationPercentage (stabilizationWindowSeconds phpa.spec))
    (h : SameIncarnation phpa phpa' deploy deploy') :
    let first := evaluateDecision history phpa deploy scale now currentCPU rawPredictedCPU
    let second := evaluateDecision first.2 phpa' deploy' scale' now currentCPU' rawPredictedCPU'
    scale'.statusReplicas = scale.statusReplicas →
    scale'.specReplicas = first.1.finalDesired →
    second.1.decisionCPU = first.1.decisionCPU →
    second.1.skipReason ≠ .none := by
  intro first second hobserved hrequested hcpu
  have hlo : max (effectiveMinReplicas phpa.spec) 1 ≤ phpa.spec.maxReplicas :=
    hvalid.effective.lower_le
  have hclamped : clampReplicas (effectiveMinReplicas phpa.spec) phpa.spec.maxReplicas
      first.1.finalDesired = first.1.finalDesired := by
    have hfirst := finalDesired_eq_retained history phpa deploy now first.1.desiredReplicas
      scale.specReplicas (effectiveMinReplicas phpa.spec)
    have hdef : first.1.finalDesired = (stabilizeRecommendation history phpa deploy now
        first.1.desiredReplicas scale.specReplicas
          (effectiveMinReplicas phpa.spec)).1.finalDesired := rfl
    rw [hdef, hfirst, clampReplicas_idem]
  have hskip : second.1.skipReason = scalingSkipReason second.1.finalDesired scale'.specReplicas
      second.1.decisionCPU phpa'.spec.targetCPUUtilizationPercentage
        (effectiveMinReplicas phpa'.spec) phpa'.spec.maxReplicas := rfl
  rw [hskip, hcpu, hrequested, h.spec]
  by_cases heq : first.1.decisionCPU = phpa.spec.targetCPUUtilizationPercentage
  · rw [heq]
    refine skips_of_target hvalid.target_pos ?_ ?_
    · rw [← hclamped]
      exact le_clampReplicas _ _ hlo _
    · rw [← hclamped]
      exact clampReplicas_le _ _ _
  · have hagain := finalDesired_again history now scale.statusReplicas scale.specReplicas h hlo heq
    have hsecond : second.1.finalDesired = first.1.finalDesired := by
      have hdef : second.1.finalDesired = (stabilizeRecommendation first.2 phpa' deploy' now
          (directedRecommendation scale'.statusReplicas scale'.specReplicas second.1.decisionCPU
            phpa'.spec.targetCPUUtilizationPercentage (effectiveMinReplicas phpa'.spec)
            phpa'.spec.maxReplicas) scale'.specReplicas
          (effectiveMinReplicas phpa'.spec)).1.finalDesired := rfl
      rw [hdef, hobserved, hrequested, hcpu, h.spec]
      exact hagain
    simp [hsecond, scalingSkipReason]

/-- A guarded reduction under the safety fixture: the request of five at an idle CPU. -/
theorem decision_stable_idle :
    let first := evaluateDecision (fun _ => none) safetyPHPA safetyDeployment
      ⟨"deployment-one", 2, 20, 5⟩ (100 * second) (0 : ℚ) 0
    first.1.skipReason = .none ∧ first.1.finalDesired = 10 ∧
      (evaluateDecision first.2 safetyPHPA safetyDeployment ⟨"deployment-one", 3, 10, 5⟩
        (100 * second) (0 : ℚ) 0).1.skipReason ≠ .none := by
  refine ⟨by decide +kernel, by decide +kernel, ?_⟩
  exact decision_stable (100 * second) (fun _ => none) ⟨"deployment-one", 2, 20, 5⟩
    ⟨"deployment-one", 3, 10, 5⟩ 0 0 0 0 (by constructor <;> decide)
    ⟨rfl, rfl, rfl, rfl, rfl⟩ rfl (by decide +kernel) (by decide +kernel)

end Stable

end Autoscaler.Controller
