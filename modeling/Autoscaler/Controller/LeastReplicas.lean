import Autoscaler.Controller.ScalingDecision

/-! The recommendation as the least sufficient replica count. -/
namespace Autoscaler.Controller

variable {K : Type*} [Field K] [LinearOrder K]

/-- `r` replicas at the target carry the load that the observed replicas carry now; a negative
signal counts as no load. -/
def Sufficient (observed : ℤ) (cpu : K) (target r : ℤ) : Prop :=
  (observed : K) * max cpu 0 ≤ (r : K) * (target : K)

def sufficientReplicas (observed : ℤ) (cpu : K) (target minimum maximum : ℤ) : Set ℤ :=
  {r | max minimum 1 ≤ r ∧ r ≤ maximum ∧ Sufficient observed cpu target r}

variable [IsStrictOrderedRing K] [FloorRing K] {observed target minimum maximum : ℤ}

theorem sufficient_iff (cpu : K) (htarget : 1 ≤ target) (r : ℤ) :
    Sufficient observed cpu target r ↔ ⌈(observed : K) * max cpu 0 / (target : K)⌉ ≤ r := by
  have hpos : (0 : K) < target := by exact_mod_cast htarget
  rw [Int.ceil_le, div_le_iff₀ hpos]
  exact Iff.rfl

theorem computeDesiredReplicas_isLeast (cpu : K) (htarget : 1 ≤ target)
    (hbounds : max minimum 1 ≤ maximum)
    (hsome : (sufficientReplicas observed cpu target minimum maximum).Nonempty) :
    IsLeast (sufficientReplicas observed cpu target minimum maximum)
      (computeDesiredReplicas observed cpu target minimum maximum) := by
  obtain ⟨r, hlo, hhi, hr⟩ := hsome
  rw [sufficient_iff cpu htarget] at hr
  rw [computeDesiredReplicas_eq]
  refine ⟨⟨le_clampReplicas _ _ hbounds _, clampReplicas_le _ _ _, ?_⟩, ?_⟩
  · rw [sufficient_iff cpu htarget]
    exact le_min (le_max_left _ _) (hr.trans hhi)
  · rintro s ⟨hslo, -, hs⟩
    rw [sufficient_iff cpu htarget] at hs
    exact (min_le_left _ _).trans (max_le hs hslo)

theorem computeDesiredReplicas_insufficient (cpu : K) (htarget : 1 ≤ target)
    (hbounds : max minimum 1 ≤ maximum)
    (hnone : sufficientReplicas observed cpu target minimum maximum = ∅) :
    computeDesiredReplicas observed cpu target minimum maximum = maximum := by
  have hlt : maximum < ⌈(observed : K) * max cpu 0 / (target : K)⌉ := by
    by_contra hle
    have hmem : maximum ∈ sufficientReplicas observed cpu target minimum maximum :=
      ⟨hbounds, le_rfl, (sufficient_iff cpu htarget maximum).mpr (not_lt.mp hle)⟩
    rw [hnone] at hmem
    exact hmem
  rw [computeDesiredReplicas_eq]
  exact min_eq_right (hlt.le.trans (le_max_left _ _))

/-- The formula recommends the least sufficient replicas within the bounds, or all of them; the
directed recommendation never falls as the signal rises. -/
theorem least_sufficient_recommendation (hobserved : 0 ≤ observed) (htarget : 1 ≤ target)
    (hbounds : max minimum 1 ≤ maximum) :
    (∀ cpu : K,
      ((sufficientReplicas observed cpu target minimum maximum).Nonempty →
        IsLeast (sufficientReplicas observed cpu target minimum maximum)
          (computeDesiredReplicas observed cpu target minimum maximum)) ∧
      (sufficientReplicas observed cpu target minimum maximum = ∅ →
        computeDesiredReplicas observed cpu target minimum maximum = maximum)) ∧
    ∀ (requested : ℤ) (cpu cpu' : K), cpu ≤ cpu' →
      directedRecommendation observed requested cpu target minimum maximum ≤
        directedRecommendation observed requested cpu' target minimum maximum :=
  ⟨fun cpu => ⟨computeDesiredReplicas_isLeast cpu htarget hbounds,
      computeDesiredReplicas_insufficient cpu htarget hbounds⟩,
    fun requested _ _ h =>
      directedRecommendation_mono minimum maximum hobserved htarget requested h⟩

/-- Four observed replicas at 75% of a 50% target need six; a lagging request of three is kept
below the target and left above it. -/
theorem least_sufficient_recommendation_lagging :
    IsLeast (sufficientReplicas 4 (75 : ℚ) 50 1 10) 6 ∧
      directedRecommendation 4 3 (49 : ℚ) 50 1 10 = 3 ∧
      directedRecommendation 4 3 (49 : ℚ) 50 1 10 ≤
        directedRecommendation 4 3 (51 : ℚ) 50 1 10 := by
  have h := @least_sufficient_recommendation ℚ _ _ _ _ 4 50 1 10 (by decide) (by decide)
    (by decide)
  have hsix : computeDesiredReplicas 4 (75 : ℚ) 50 1 10 = 6 := by decide +kernel
  refine ⟨hsix ▸ (h.1 75).1 ⟨6, by decide, by decide, ?_⟩, by decide +kernel,
    h.2 3 49 51 (by norm_num)⟩
  norm_num [Sufficient]

end Autoscaler.Controller
