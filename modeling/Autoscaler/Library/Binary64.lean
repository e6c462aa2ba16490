import Mathlib.Algebra.Order.Floor.Ring
import Mathlib.Data.Int.Log
import Mathlib.Data.Rat.Floor
import Mathlib.Tactic.Linarith
import Mathlib.Tactic.Ring

/-! Rounding of rational numbers to the precision of binary64, to the nearest value with ties to
even. The exponents are unbounded: overflow and subnormal values are left out. -/
namespace Binary64

/-- The nearest integer, and the even one of two. -/
def toEven (x : ℚ) : ℤ :=
  if Int.fract x < 1 / 2 then ⌊x⌋
  else if 1 / 2 < Int.fract x then ⌊x⌋ + 1
  else ⌊x⌋ + ⌊x⌋ % 2

/-- The distance of neighbours at the magnitude of `x`. -/
def ulp (x : ℚ) : ℚ := 2 ^ (Int.log 2 |x| - 52)

def round (x : ℚ) : ℚ := toEven (x / ulp x) * ulp x

def sub (a b : ℚ) : ℚ := round (a - b)

section ToEven

theorem floor_le_toEven (x : ℚ) : ⌊x⌋ ≤ toEven x := by
  have hparity := Int.emod_nonneg ⌊x⌋ (two_ne_zero : (2 : ℤ) ≠ 0)
  unfold toEven
  split_ifs <;> omega

theorem toEven_le_floor_succ (x : ℚ) : toEven x ≤ ⌊x⌋ + 1 := by
  have hparity := Int.emod_lt_of_pos ⌊x⌋ (two_pos : (0 : ℤ) < 2)
  unfold toEven
  split_ifs <;> omega

theorem toEven_mono {x y : ℚ} (h : x ≤ y) : toEven x ≤ toEven y := by
  have hfloor : ⌊x⌋ ≤ ⌊y⌋ := Int.floor_le_floor h
  rcases hfloor.lt_or_eq with hlt | heq
  · exact (toEven_le_floor_succ x).trans (hlt.trans_le (floor_le_toEven y))
  · have hfract : Int.fract x ≤ Int.fract y := by
      unfold Int.fract
      rw [heq]
      linarith
    have hparity := Int.emod_nonneg ⌊y⌋ (two_ne_zero : (2 : ℤ) ≠ 0)
    have hodd := Int.emod_lt_of_pos ⌊y⌋ (two_pos : (0 : ℤ) < 2)
    unfold toEven
    rw [heq]
    split_ifs <;> first | omega | (exfalso; linarith)

@[simp] theorem toEven_intCast (n : ℤ) : toEven n = n := by
  simp [toEven]

/-- A shift by an even number does not change which neighbour is even. -/
theorem toEven_sub_even (x : ℚ) (m : ℤ) : toEven (x - (2 * m : ℤ)) = toEven x - 2 * m := by
  unfold toEven
  rw [Int.fract_sub_intCast, Int.floor_sub_intCast]
  split_ifs <;> omega

theorem abs_toEven_sub_le (x : ℚ) : |(toEven x : ℚ) - x| ≤ 1 / 2 := by
  have hsplit := Int.floor_add_fract x
  have hnonneg := Int.fract_nonneg x
  have hlt := Int.fract_lt_one x
  unfold toEven
  rw [abs_le]
  split_ifs with hlow hhigh
  · constructor <;> linarith
  · push_cast
    constructor <;> linarith
  · -- in the middle, the floor or its successor
    have hhalf : Int.fract x = 1 / 2 := le_antisymm (not_lt.mp hhigh) (not_lt.mp hlow)
    rcases Int.emod_two_eq_zero_or_one ⌊x⌋ with hparity | hparity <;> rw [hparity] <;> push_cast <;>
      constructor <;> linarith

theorem toEven_lt_toEven {x y : ℚ} (h : x + 1 < y) : toEven x < toEven y := by
  have hx := (abs_le.mp (abs_toEven_sub_le x)).2
  have hy := (abs_le.mp (abs_toEven_sub_le y)).1
  have hlt : (toEven x : ℚ) < toEven y := by linarith
  exact_mod_cast hlt

theorem toEven_le_iff {x y : ℚ} (h : y < x → y + 1 < x) : toEven x ≤ toEven y ↔ x ≤ y := by
  constructor
  · intro hle
    by_contra hlt
    exact absurd (toEven_lt_toEven (h (not_le.mp hlt))) (not_lt.mpr hle)
  · exact fun hle => toEven_mono hle

end ToEven

section Round

theorem ulp_pos (x : ℚ) : 0 < ulp x := by
  exact zpow_pos two_pos _

theorem round_nonpos {x : ℚ} (h : x ≤ 0) : round x ≤ 0 := by
  have hquotient : x / ulp x ≤ ((0 : ℤ) : ℚ) := by
    rw [Int.cast_zero]
    exact div_nonpos_of_nonpos_of_nonneg h (ulp_pos x).le
  have hrounded := toEven_mono hquotient
  rw [toEven_intCast] at hrounded
  exact mul_nonpos_of_nonpos_of_nonneg (by exact_mod_cast hrounded) (ulp_pos x).le

theorem round_eq_of_ulp {x : ℚ} {n : ℤ} (h : x = n * ulp x) : round x = x := by
  have hquotient : x / ulp x = n := by
    rw [div_eq_iff (ulp_pos x).ne']
    exact h
  rw [round, hquotient, toEven_intCast]
  exact h.symm

/-- Integers of up to 53 bits, scaled by a power of two, are exact. -/
theorem round_of_grid {n e : ℤ} (hn : |n| ≤ 2 ^ 53) : round (n * 2 ^ e) = n * 2 ^ e := by
  rcases eq_or_ne n 0 with rfl | hne
  · simp [round, toEven]
  have hscale : (0 : ℚ) < 2 ^ e := zpow_pos two_pos e
  have habs : |(n : ℚ) * 2 ^ e| = (|n| : ℤ) * 2 ^ e := by
    rw [abs_mul, abs_of_pos hscale, Int.cast_abs]
  have hpos : (0 : ℚ) < |(n : ℚ) * 2 ^ e| :=
    abs_pos.mpr (mul_ne_zero (Int.cast_ne_zero.mpr hne) hscale.ne')
  have hle : |(n : ℚ) * 2 ^ e| ≤ 2 ^ (53 + e) := by
    rw [habs, zpow_add₀ two_ne_zero]
    exact mul_le_mul_of_nonneg_right (by exact_mod_cast hn) hscale.le
  set l := Int.log 2 |(n : ℚ) * 2 ^ e| with hl
  have hlow : (2 : ℚ) ^ l ≤ |(n : ℚ) * 2 ^ e| := Int.zpow_log_le_self one_lt_two hpos
  have hlog : l ≤ 53 + e := (zpow_le_zpow_iff_right₀ one_lt_two).mp (hlow.trans hle)
  have hulp : ulp ((n : ℚ) * 2 ^ e) = 2 ^ (l - 52) := rfl
  rcases hlog.lt_or_eq with hlt | heq
  · -- the neighbours are no further apart than the scale
    obtain ⟨k, hk⟩ := Int.eq_ofNat_of_zero_le (show 0 ≤ e - (l - 52) by omega)
    apply round_eq_of_ulp (n := n * 2 ^ k)
    rw [hulp, show e = (k : ℤ) + (l - 52) by omega, zpow_add₀ two_ne_zero, zpow_natCast]
    push_cast
    ring
  · -- the magnitude is the power of two itself
    have hbound : (2 : ℚ) ^ (53 : ℤ) ≤ (|n| : ℤ) := by
      rw [heq, habs, zpow_add₀ two_ne_zero] at hlow
      exact le_of_mul_le_mul_right hlow hscale
    have hexact : |n| = 2 ^ 53 := le_antisymm hn (by exact_mod_cast hbound)
    obtain ⟨half, hhalf⟩ : ∃ half : ℤ, n = half * 2 := by
      rcases abs_choice n with h | h
      · exact ⟨2 ^ 52, by omega⟩
      · exact ⟨-2 ^ 52, by omega⟩
    apply round_eq_of_ulp (n := half)
    rw [hulp, heq, hhalf, show 53 + e - 52 = 1 + e by ring, zpow_add₀ two_ne_zero, zpow_one]
    push_cast
    ring

theorem pow_mul_scale {k : ℕ} {e f : ℤ} (h : f = k + (e - 52)) :
    ((2 ^ k : ℤ) : ℚ) * 2 ^ (e - 52) = 2 ^ f := by
  rw [h, zpow_add₀ two_ne_zero, zpow_natCast, Int.cast_pow, Int.cast_ofNat]

/-- The values from one power of two to the next, which are evenly spaced. -/
def InBinade (e : ℤ) (x : ℚ) : Prop := 2 ^ e ≤ x ∧ x < 2 ^ (e + 1)

variable {e : ℤ} {x y : ℚ}

theorem InBinade.pos (h : InBinade e x) : 0 < x := (zpow_pos two_pos e).trans_le h.1

theorem InBinade.round_eq (h : InBinade e x) :
    round x = toEven (x / 2 ^ (e - 52)) * 2 ^ (e - 52) := by
  have hlog : Int.log 2 |x| = e := by
    rw [abs_of_pos h.pos]
    apply le_antisymm
    · have hlt := (Int.lt_zpow_iff_log_lt one_lt_two h.pos).mp h.2
      omega
    · exact (Int.zpow_le_iff_le_log one_lt_two h.pos).mp h.1
  rw [round, ulp, hlog]

/-- The integer that a value of the binade is rounded to. -/
theorem InBinade.toEven_bounds (h : InBinade e x) :
    2 ^ 52 ≤ toEven (x / 2 ^ (e - 52)) ∧ toEven (x / 2 ^ (e - 52)) ≤ 2 ^ 53 := by
  have hscale : (0 : ℚ) < 2 ^ (e - 52) := zpow_pos two_pos _
  have hlow : ((2 ^ 52 : ℤ) : ℚ) ≤ x / 2 ^ (e - 52) := by
    rw [le_div_iff₀ hscale, pow_mul_scale (f := e) (by push_cast; ring)]
    exact h.1
  have hhigh : x / 2 ^ (e - 52) ≤ ((2 ^ 53 : ℤ) : ℚ) := by
    rw [div_le_iff₀ hscale, pow_mul_scale (f := e + 1) (by push_cast; ring)]
    exact h.2.le
  have hfirst := toEven_mono hlow
  have hlast := toEven_mono hhigh
  rw [toEven_intCast] at hfirst hlast
  exact ⟨hfirst, hlast⟩

/-- Rounded values of one binade are subtracted exactly. -/
theorem sub_round (hx : InBinade e x) (hy : InBinade e y) :
    sub (round x) (round y) = round x - round y := by
  have hxbounds := hx.toEven_bounds
  have hybounds := hy.toEven_bounds
  rw [sub, hx.round_eq, hy.round_eq, ← sub_mul, ← Int.cast_sub]
  exact round_of_grid (abs_le.mpr ⟨by omega, by omega⟩)

/-- Values further apart than their neighbours are compared as their rounded values, also after a
shift by an even multiple of the distance. -/
theorem round_sub_le_round_iff (hx : InBinade e x) (hy : InBinade e y) (m : ℤ)
    (hsep : y < x - (2 * m : ℤ) * 2 ^ (e - 52) →
      y + 2 ^ (e - 52) < x - (2 * m : ℤ) * 2 ^ (e - 52)) :
    round x - (2 * m : ℤ) * 2 ^ (e - 52) ≤ round y ↔ x - (2 * m : ℤ) * 2 ^ (e - 52) ≤ y := by
  have hscale : (0 : ℚ) < 2 ^ (e - 52) := zpow_pos two_pos _
  have hshift : x / 2 ^ (e - 52) - (2 * m : ℤ) =
      (x - (2 * m : ℤ) * 2 ^ (e - 52)) / 2 ^ (e - 52) := by
    rw [sub_div, mul_div_cancel_right₀ _ hscale.ne']
  have hcompare := toEven_le_iff (x := x / 2 ^ (e - 52) - (2 * m : ℤ)) (y := y / 2 ^ (e - 52)) (by
    intro hlt
    rw [hshift, div_lt_div_iff_of_pos_right hscale] at hlt
    rw [hshift, lt_div_iff₀ hscale, add_mul, one_mul, div_mul_cancel₀ _ hscale.ne']
    exact hsep hlt)
  rw [hx.round_eq, hy.round_eq, ← sub_mul, mul_le_mul_iff_left₀ hscale, ← Int.cast_sub, Int.cast_le,
    ← toEven_sub_even, hcompare, hshift, div_le_div_iff_of_pos_right hscale]

/-- So is the rounded difference, for a shift forwards. -/
theorem sub_le_round_iff (hx : InBinade e x) (hy : InBinade e y) {m : ℤ} (hm : 0 ≤ m)
    (hsep : y < x - (2 * m : ℤ) * 2 ^ (e - 52) →
      y + 2 ^ (e - 52) < x - (2 * m : ℤ) * 2 ^ (e - 52)) :
    sub (round x) ((2 * m : ℤ) * 2 ^ (e - 52)) ≤ round y ↔ x - (2 * m : ℤ) * 2 ^ (e - 52) ≤ y := by
  have hscale : (0 : ℚ) < 2 ^ (e - 52) := zpow_pos two_pos _
  have hxbounds := hx.toEven_bounds
  by_cases hfar : 2 ^ 53 ≤ 2 * m
  · -- the shift goes past zero
    have hshift : (2 : ℚ) ^ (e + 1) ≤ (2 * m : ℤ) * 2 ^ (e - 52) := by
      rw [← pow_mul_scale (k := 53) (f := e + 1) (by push_cast; ring)]
      exact mul_le_mul_of_nonneg_right (by exact_mod_cast hfar) hscale.le
    have hpositive : 0 ≤ round y := by
      rw [hy.round_eq]
      have hybounds := hy.toEven_bounds
      exact mul_nonneg (by exact_mod_cast (show (0 : ℤ) ≤ toEven (y / 2 ^ (e - 52)) by omega))
        hscale.le
    refine iff_of_true ((round_nonpos ?_).trans hpositive) ?_
    · rw [hx.round_eq, ← sub_mul, ← Int.cast_sub]
      refine mul_nonpos_of_nonpos_of_nonneg ?_ hscale.le
      exact_mod_cast (show toEven (x / 2 ^ (e - 52)) - 2 * m ≤ 0 by omega)
    · have := hx.2
      have := hy.pos
      linarith
  · have hexact : sub (round x) ((2 * m : ℤ) * 2 ^ (e - 52)) =
        round x - (2 * m : ℤ) * 2 ^ (e - 52) := by
      rw [sub, hx.round_eq, ← sub_mul, ← Int.cast_sub]
      exact round_of_grid (abs_le.mpr ⟨by omega, by omega⟩)
    rw [hexact]
    exact round_sub_le_round_iff hx hy m hsep

end Round

end Binary64
