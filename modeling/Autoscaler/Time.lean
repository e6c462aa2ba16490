import Mathlib.Algebra.Order.Field.Rat
import Mathlib.Data.Int.Basic
import Mathlib.Tactic.Linarith

/-! Instants and durations of the `time` package. A duration is an integer number of
nanoseconds; an instant counts nanoseconds since the zero `time.Time`, 1 January of year 1. -/
namespace Autoscaler

def millisecond : ℤ := 1000000

def second : ℤ := 1000000000

def hour : ℤ := 3600 * second

namespace Time

def unixEpoch : ℤ := 62135596800 * second

def isZero (t : ℤ) : Bool := t == 0

/-- `Truncate` rounds down to a multiple of `d` since the zero time. -/
def truncate (t : ℤ) (d : ℤ) : ℤ := if d ≤ 0 then t else t - t % d

def unixMilli (t : ℤ) : ℤ := (t - unixEpoch) / millisecond

/-- `float64(t.UnixNano()) / float64(time.Second)`. -/
def unixSeconds (t : ℤ) : ℚ := (t - unixEpoch : ℤ) / (second : ℚ)

theorem unixSeconds_le_iff (s t : ℤ) : unixSeconds s ≤ unixSeconds t ↔ s ≤ t := by
  have hsecond : (0 : ℚ) < second := by decide +kernel
  unfold unixSeconds
  rw [div_le_div_iff_of_pos_right hsecond, Int.cast_le]
  omega

theorem unixEpoch_le_of_unixSeconds {t : ℤ} (h : 0 ≤ unixSeconds t) : unixEpoch ≤ t := by
  have hzero : unixSeconds unixEpoch = 0 := by simp [unixSeconds]
  exact (unixSeconds_le_iff _ _).mp (hzero ▸ h)

theorem truncate_of_pos (t : ℤ) {d : ℤ} (hd : 0 < d) : truncate t d = t - t % d :=
  if_neg (not_le.mpr hd)

theorem truncate_le (t : ℤ) (d : ℤ) : truncate t d ≤ t := by
  unfold truncate
  split_ifs with hd
  · exact le_rfl
  · have := Int.emod_nonneg t (by omega : d ≠ 0)
    omega

theorem lt_truncate_add (t : ℤ) {d : ℤ} (hd : 0 < d) : t < truncate t d + d := by
  rw [truncate_of_pos t hd]
  have := Int.emod_lt_of_pos t hd
  omega

theorem truncate_eq_mul (t : ℤ) {d : ℤ} (hd : 0 < d) : truncate t d = d * (t / d) := by
  rw [truncate_of_pos t hd, Int.emod_def]
  omega

theorem truncate_le_truncate {d : ℤ} (hd : 0 < d) {s t : ℤ} (h : s ≤ t) :
    truncate s d ≤ truncate t d := by
  rw [truncate_eq_mul s hd, truncate_eq_mul t hd]
  exact Int.mul_le_mul_of_nonneg_left (Int.ediv_le_ediv hd h) hd.le

/-- Two instants in one truncation bucket are less than a bucket apart. -/
theorem lt_add_of_truncate_eq {d : ℤ} (hd : 0 < d) (s t : ℤ)
    (h : truncate s d = truncate t d) : t < s + d := by
  have hs := truncate_le s d
  have ht := lt_truncate_add t hd
  omega

end Time

end Autoscaler
