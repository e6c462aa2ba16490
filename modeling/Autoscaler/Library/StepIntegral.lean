import Mathlib.MeasureTheory.Integral.IntervalIntegral.Basic

/-! The integral of a function that is constant on each of finitely many half-open intervals. -/
namespace StepIntegral

open MeasureTheory

variable {S : Type*} (lo hi value : S → ℝ)

def cover (l : List S) : Set ℝ := {t | ∃ s ∈ l, lo s ≤ t ∧ t < hi s}

theorem cover_cons (s : S) (l : List S) :
    cover lo hi (s :: l) = Set.Ico (lo s) (hi s) ∪ cover lo hi l := by
  ext t
  simp [cover]

theorem measurableSet_cover (l : List S) : MeasurableSet (cover lo hi l) := by
  induction l with
  | nil =>
    have hnil : cover lo hi [] = ∅ := by
      ext t
      simp [cover]
    rw [hnil]
    exact MeasurableSet.empty
  | cons s l ih =>
    rw [cover_cons]
    exact measurableSet_Ico.union ih

variable {lo hi value} {l : List S}

theorem notMem_cover {s : S} (h : ∀ later ∈ l, hi s ≤ lo later) {t : ℝ} (ht : t < hi s) :
    t ∉ cover lo hi l := by
  rintro ⟨later, hmem, hlow, -⟩
  exact ht.not_ge ((h later hmem).trans hlow)

variable {f : ℝ → ℝ}

theorem integral_segment {s : S} (hs : lo s ≤ hi s)
    (hf : ∀ t, lo s ≤ t → t < hi s → f t = value s) :
    IntegrableOn f (Set.Ico (lo s) (hi s)) ∧
      ∫ t in Set.Ico (lo s) (hi s), f t = value s * (hi s - lo s) := by
  have heq : Set.EqOn (fun _ => value s) f (Set.Ico (lo s) (hi s)) :=
    fun t ht => (hf t ht.1 ht.2).symm
  have hconst : IntegrableOn (fun _ : ℝ => value s) (Set.Ico (lo s) (hi s)) :=
    integrableOn_const measure_Ico_lt_top.ne
  constructor
  · exact hconst.congr_fun heq measurableSet_Ico
  · rw [← setIntegral_congr_fun measurableSet_Ico heq, setIntegral_const, smul_eq_mul,
      Measure.real, Real.volume_Ico, ENNReal.toReal_ofReal (sub_nonneg.mpr hs), mul_comm]

variable (lo hi value f)

/-- The integral over segments one after another adds up theirs. -/
theorem integral_cover (hnonempty : ∀ s ∈ l, lo s ≤ hi s)
    (hdisjoint : l.Pairwise fun s later => hi s ≤ lo later)
    (hf : ∀ s ∈ l, ∀ t, lo s ≤ t → t < hi s → f t = value s) :
    IntegrableOn f (cover lo hi l) ∧
      ∫ t in cover lo hi l, f t = (l.map fun s => value s * (hi s - lo s)).sum := by
  induction l with
  | nil =>
    have hnil : cover lo hi [] = ∅ := by
      ext t
      simp [cover]
    simp [hnil]
  | cons s l ih =>
    obtain ⟨hs, hl⟩ := List.forall_mem_cons.mp hnonempty
    obtain ⟨hfs, hfl⟩ := List.forall_mem_cons.mp hf
    obtain ⟨hlater, hdisjoint⟩ := List.pairwise_cons.mp hdisjoint
    obtain ⟨hinteg, hsum⟩ := ih hl hdisjoint hfl
    obtain ⟨hintegs, hsums⟩ := integral_segment hs hfs
    rw [cover_cons, List.map_cons, List.sum_cons]
    constructor
    · exact hintegs.union hinteg
    · rw [setIntegral_union ?_ (measurableSet_cover lo hi l) hintegs hinteg, hsums, hsum]
      exact Set.disjoint_left.mpr fun t ht => notMem_cover hlater ht.2

/-- From `cut` on, segments are left out or clipped. -/
theorem cover_inter_Ici (l : List S) (cut : ℝ) : cover lo hi l ∩ Set.Ici cut =
    cover (fun s => max (lo s) cut) (fun s => max (max (lo s) cut) (hi s)) l := by
  ext t
  constructor
  · rintro ⟨⟨s, hs, hlow, hhigh⟩, hcut⟩
    exact ⟨s, hs, max_le hlow hcut, lt_max_of_lt_right hhigh⟩
  · rintro ⟨s, hs, hlow, hhigh⟩
    have hclip := max_le_iff.mp hlow
    have hend : t < hi s := (lt_max_iff.mp hhigh).resolve_left hlow.not_gt
    exact ⟨⟨s, hs, hclip.1, hend⟩, hclip.2⟩

/-- From `cut` on, the integral adds up what is left of the segments. -/
theorem integral_cover_Ici (hnonempty : ∀ s ∈ l, lo s ≤ hi s)
    (hdisjoint : l.Pairwise fun s later => hi s ≤ lo later) (cut : ℝ)
    (hf : ∀ s ∈ l, ∀ t, lo s ≤ t → t < hi s → cut ≤ t → f t = value s) :
    ∫ t in cover lo hi l ∩ Set.Ici cut, f t =
      (l.map fun s => value s * max 0 (hi s - max (lo s) cut)).sum := by
  have hclipped := (integral_cover (fun s => max (lo s) cut)
    (fun s => max (max (lo s) cut) (hi s)) value f (l := l) ?_ ?_ ?_).2
  · have hlength : ∀ s, max (max (lo s) cut) (hi s) - max (lo s) cut =
        max 0 (hi s - max (lo s) cut) := by
      intro s
      rw [← max_sub_sub_right, sub_self]
    rw [cover_inter_Ici, hclipped]
    simp only [hlength]
  · exact fun s _ => le_max_left _ _
  · refine hdisjoint.imp_of_mem fun {s later} hs _ hle => ?_
    have hstart := (hnonempty s hs).trans hle
    exact max_le (max_le_max_right cut hstart) (hle.trans (le_max_left _ _))
  · intro s hs t hlow hhigh
    have hend : t < hi s := (lt_max_iff.mp hhigh).resolve_left hlow.not_gt
    exact hf s hs t ((le_max_left _ _).trans hlow) hend ((le_max_right _ _).trans hlow)

end StepIntegral
