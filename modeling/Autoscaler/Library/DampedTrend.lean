import Mathlib.Analysis.SpecialFunctions.Pow.Real

/-! Exponential smoothing and damped trends: a smoothed value stays among the values it was made
of, and a damped number of steps never exceeds the number of steps or its limit. -/
namespace DampedTrend

section Among

variable {K : Type*} [LinearOrder K]

def Among (values : List K) (x : K) : Prop := ∃ lo ∈ values, ∃ hi ∈ values, lo ≤ x ∧ x ≤ hi

theorem Among.eq_of_const {values : List K} {x c : K} (hx : Among values x)
    (hc : ∀ v ∈ values, v = c) : x = c := by
  obtain ⟨lo, hlo, hi, hhi, hle⟩ := hx
  have hlower : c ≤ x := (hc lo hlo) ▸ hle.1
  have hupper : x ≤ c := (hc hi hhi) ▸ hle.2
  exact le_antisymm hupper hlower

end Among

section Smoothing

variable {K : Type*} [Field K]

/-- Each smoothed value mixes the next value into the previous smoothed one. -/
def smooth (alpha : K) : K → List K → List K
  | _, [] => []
  | previous, value :: rest =>
    (alpha * value + (1 - alpha) * previous) ::
      smooth alpha (alpha * value + (1 - alpha) * previous) rest

@[simp] theorem length_smooth (alpha previous : K) (values : List K) :
    (smooth alpha previous values).length = values.length := by
  induction values generalizing previous with
  | nil => rfl
  | cons value rest ih => simp [smooth, ih]

variable [LinearOrder K] [IsStrictOrderedRing K]

theorem Among.mix {values : List K} {alpha x : K} (hlo : 0 ≤ alpha) (hhi : alpha ≤ 1)
    (hx : Among values x) (value : K) :
    Among (values ++ [value]) (alpha * value + (1 - alpha) * x) := by
  obtain ⟨lo, hlomem, hi, hhimem, hle⟩ := hx
  have hvalue : value ∈ values ++ [value] := List.mem_append_right _ List.mem_cons_self
  have hlo' : lo ∈ values ++ [value] := List.mem_append_left _ hlomem
  have hhi' : hi ∈ values ++ [value] := List.mem_append_left _ hhimem
  have hbeta : 0 ≤ 1 - alpha := sub_nonneg.mpr hhi
  rcases le_total value x with h | h
  · have hleft : 0 ≤ (1 - alpha) * (x - value) := mul_nonneg hbeta (sub_nonneg.mpr h)
    have hright : 0 ≤ alpha * (x - value) := mul_nonneg hlo (sub_nonneg.mpr h)
    exact ⟨value, hvalue, hi, hhi', by linarith, by linarith⟩
  · have hleft : 0 ≤ alpha * (value - x) := mul_nonneg hlo (sub_nonneg.mpr h)
    have hright : 0 ≤ (1 - alpha) * (value - x) := mul_nonneg hbeta (sub_nonneg.mpr h)
    exact ⟨lo, hlo', value, hvalue, by linarith, by linarith⟩

/-- Every smoothed value lies among the values seen so far. -/
theorem among_smooth {alpha : K} (hlo : 0 ≤ alpha) (hhi : alpha ≤ 1) (seen values : List K)
    {previous : K} (hprevious : Among seen previous) (i : ℕ)
    (hi : i < (smooth alpha previous values).length) :
    Among (seen ++ values.take (i + 1)) (smooth alpha previous values)[i] := by
  induction values generalizing seen previous i with
  | nil => exact absurd hi (Nat.not_lt_zero i)
  | cons value rest ih =>
    have hmix := hprevious.mix hlo hhi value
    cases i with
    | zero => simpa [smooth] using hmix
    | succ i =>
      have hrest := ih (seen ++ [value]) hmix i (by simpa [smooth] using hi)
      simpa [smooth] using hrest

end Smoothing

section Damping

/-- The geometric sum of `phi` up to a possibly fractional number of steps. -/
noncomputable def damped (phi steps : ℝ) : ℝ := phi * (1 - phi ^ steps) / (1 - phi)

variable {phi : ℝ}

@[simp] theorem damped_zero (phi : ℝ) : damped phi 0 = 0 := by
  simp [damped]

theorem damped_strictMono (hpos : 0 < phi) (hlt : phi < 1) : StrictMono (damped phi) := by
  intro s t h
  have hpow : phi ^ t < phi ^ s := Real.rpow_lt_rpow_of_exponent_gt hpos hlt h
  have hden : 0 < 1 - phi := sub_pos.mpr hlt
  unfold damped
  apply div_lt_div_of_pos_right _ hden
  exact mul_lt_mul_of_pos_left (by linarith) hpos

theorem damped_pos (hpos : 0 < phi) (hlt : phi < 1) {s : ℝ} (hs : 0 < s) : 0 < damped phi s := by
  have h := damped_strictMono hpos hlt hs
  rwa [damped_zero] at h

theorem damped_nonneg (hpos : 0 < phi) (hlt : phi < 1) {s : ℝ} (hs : 0 ≤ s) :
    0 ≤ damped phi s := by
  have h := (damped_strictMono hpos hlt).monotone hs
  rwa [damped_zero] at h

/-- The sum never reaches its limit. -/
theorem damped_le_limit (hpos : 0 < phi) (hlt : phi < 1) (s : ℝ) :
    damped phi s ≤ phi / (1 - phi) := by
  have hpow : 0 < phi ^ s := Real.rpow_pos_of_pos hpos s
  have hden : 0 ≤ 1 - phi := sub_nonneg.mpr hlt.le
  unfold damped
  apply div_le_div_of_nonneg_right _ hden
  have := mul_pos hpos hpow
  linarith

/-- A convex exponential lies above its tangent, so damping shortens every number of steps. -/
theorem damped_le_steps (hpos : 0 < phi) (hlt : phi < 1) {s : ℝ} (hs : 0 ≤ s) :
    damped phi s ≤ s := by
  have hden : 0 < 1 - phi := sub_pos.mpr hlt
  have htangent : Real.log phi * s + 1 ≤ phi ^ s := by
    rw [Real.rpow_def_of_pos hpos]
    exact Real.add_one_le_exp _
  have hlog : -Real.log phi ≤ phi⁻¹ - 1 := by
    rw [← Real.log_inv]
    exact Real.log_le_sub_one_of_pos (inv_pos.mpr hpos)
  have hscaled : phi * -Real.log phi ≤ 1 - phi := by
    have h := mul_le_mul_of_nonneg_left hlog hpos.le
    rwa [mul_sub, mul_inv_cancel₀ hpos.ne', mul_one] at h
  have hsteps : phi * -Real.log phi * s ≤ (1 - phi) * s := mul_le_mul_of_nonneg_right hscaled hs
  have hgap : phi * (1 - phi ^ s) ≤ phi * (-(Real.log phi * s)) :=
    mul_le_mul_of_nonneg_left (by linarith) hpos.le
  unfold damped
  rw [div_le_iff₀ hden]
  linarith

/-- A damped trend ends between its start and the undamped projection. -/
theorem damped_between (hpos : 0 < phi) (hlt : phi < 1) {s : ℝ} (hs : 0 ≤ s) (tail slope : ℝ) :
    min tail (tail + slope * s) ≤ tail + slope * damped phi s ∧
      tail + slope * damped phi s ≤ max tail (tail + slope * s) := by
  have hnonneg := damped_nonneg hpos hlt hs
  have hle := damped_le_steps hpos hlt hs
  rcases le_total 0 slope with h | h
  · have hzero : 0 ≤ slope * damped phi s := mul_nonneg h hnonneg
    have hlinear : slope * damped phi s ≤ slope * s := mul_le_mul_of_nonneg_left hle h
    exact ⟨(min_le_left _ _).trans (by linarith), le_trans (by linarith) (le_max_right _ _)⟩
  · have hzero : slope * damped phi s ≤ 0 := mul_nonpos_of_nonpos_of_nonneg h hnonneg
    have hlinear : slope * s ≤ slope * damped phi s := mul_le_mul_of_nonpos_left hle h
    exact ⟨(min_le_right _ _).trans (by linarith), le_trans (by linarith) (le_max_left _ _)⟩

theorem abs_damped_le (hpos : 0 < phi) (hlt : phi < 1) {s : ℝ} (hs : 0 ≤ s) (slope : ℝ) :
    |slope * damped phi s| ≤ phi / (1 - phi) * |slope| := by
  rw [abs_mul, abs_of_nonneg (damped_nonneg hpos hlt hs), mul_comm]
  exact mul_le_mul_of_nonneg_right (damped_le_limit hpos hlt s) (abs_nonneg slope)

end Damping

end DampedTrend
