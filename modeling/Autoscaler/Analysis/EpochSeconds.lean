import Autoscaler.Library.Binary64
import Autoscaler.Time

/-! Unix seconds as binary64 numbers, and when they compare as the instants they stand for. -/
namespace Autoscaler.Analysis

/-- `epoch` of a printed time: whole microseconds, divided as floats. -/
def epochSeconds (t : ℤ) : ℚ := Binary64.round (((t - Time.unixEpoch) / 1000 : ℤ) / 1000000)

/-- A time of whole milliseconds between two neighbouring powers of two of Unix seconds. -/
structure Dated (k : ℕ) (t : ℤ) : Prop where
  millis : millisecond ∣ t - Time.unixEpoch
  low : 2 ^ k * second ≤ t - Time.unixEpoch
  high : t - Time.unixEpoch < 2 ^ (k + 1) * second

theorem truncate_dated {k : ℕ} {now : ℤ}
    (hlow : 2 ^ k * second ≤ Time.truncate now millisecond - Time.unixEpoch)
    (hhigh : Time.truncate now millisecond - Time.unixEpoch < 2 ^ (k + 1) * second) :
    Dated k (Time.truncate now millisecond) where
  millis := by
    rw [Time.truncate_eq_mul now (by decide)]
    exact dvd_sub (dvd_mul_right _ _) (by decide)
  low := hlow
  high := hhigh

namespace Dated

variable {k : ℕ} {s t : ℤ}

theorem epochSeconds_eq (h : Dated k t) : epochSeconds t = Binary64.round (Time.unixSeconds t) := by
  obtain ⟨i, hi⟩ := h.millis
  unfold epochSeconds Time.unixSeconds
  rw [hi, show millisecond * i = 1000 * (1000 * i) by unfold millisecond; ring,
    Int.mul_ediv_cancel_left _ (by decide)]
  congr 1
  simp only [second]
  push_cast
  ring

theorem inBinade (h : Dated k t) : Binary64.InBinade k (Time.unixSeconds t) := by
  have hsecond : (0 : ℚ) < second := by decide +kernel
  have hlow : ((2 ^ k * second : ℤ) : ℚ) ≤ (t - Time.unixEpoch : ℤ) := by exact_mod_cast h.low
  have hhigh : ((t - Time.unixEpoch : ℤ) : ℚ) < (2 ^ (k + 1) * second : ℤ) := by
    exact_mod_cast h.high
  push_cast at hlow hhigh
  unfold Time.unixSeconds
  push_cast
  constructor
  · rw [zpow_natCast, le_div_iff₀ hsecond]
    exact hlow
  · rw [← Nat.cast_add_one, zpow_natCast, div_lt_iff₀ hsecond]
    exact hhigh

/-- The numbers of the binade are closer to each other than a millisecond. -/
theorem scale_lt (hk : k ≤ 37) : (2 : ℚ) ^ ((k : ℤ) - 52) < 1 / 1000 := by
  have hle : (2 : ℚ) ^ ((k : ℤ) - 52) ≤ 2 ^ (-15 : ℤ) :=
    zpow_le_zpow_right₀ one_le_two (by omega)
  exact hle.trans_lt (by norm_num)

theorem seconds_eq (hk : k ≤ 37) (w : ℤ) :
    (w : ℚ) = (2 * (w * 2 ^ (51 - k)) : ℤ) * 2 ^ ((k : ℤ) - 52) := by
  have hexponent : (k : ℤ) - 52 = -((51 - k + 1 : ℕ) : ℤ) := by omega
  rw [hexponent, zpow_neg, zpow_natCast, pow_succ]
  push_cast
  field_simp

/-- Times that differ, differ by a millisecond. -/
theorem separated (hk : k ≤ 37) (hs : Dated k s) (ht : Dated k t) (w : ℤ)
    (h : Time.unixSeconds s < Time.unixSeconds t - w) :
    Time.unixSeconds s + 2 ^ ((k : ℤ) - 52) < Time.unixSeconds t - w := by
  obtain ⟨i, hi⟩ := hs.millis
  obtain ⟨j, hj⟩ := ht.millis
  have hseconds : ∀ n : ℤ, ((millisecond * n : ℤ) : ℚ) / (second : ℚ) = n / 1000 := by
    intro n
    simp only [millisecond, second]
    push_cast
    ring
  have hscale := scale_lt hk
  unfold Time.unixSeconds at h ⊢
  rw [hi, hj, hseconds, hseconds] at h ⊢
  have hlt : (i : ℚ) < j - 1000 * w := by linarith
  have hnext : i + 1 ≤ j - 1000 * w := by exact_mod_cast hlt
  have hnext' : (i : ℚ) + 1 ≤ j - 1000 * w := by exact_mod_cast hnext
  linarith

/-- A shift by whole seconds compares seconds as it compares times. -/
theorem shifted_iff (s t w : ℤ) :
    Time.unixSeconds t - w ≤ Time.unixSeconds s ↔ t - w * second ≤ s := by
  have hsecond : (0 : ℚ) < second := by decide +kernel
  have hshift : Time.unixSeconds t - w = Time.unixSeconds (t - w * second) := by
    unfold Time.unixSeconds
    rw [eq_div_iff hsecond.ne', sub_mul, div_mul_cancel₀ _ hsecond.ne']
    push_cast
    ring
  rw [hshift, Time.unixSeconds_le_iff]

theorem epochSeconds_sub_le_iff (hk : k ≤ 37) (hs : Dated k s) (ht : Dated k t) (w : ℤ) :
    epochSeconds t - w ≤ epochSeconds s ↔ t - w * second ≤ s := by
  rw [hs.epochSeconds_eq, ht.epochSeconds_eq, ← shifted_iff, seconds_eq hk w]
  refine Binary64.round_sub_le_round_iff ht.inBinade hs.inBinade _ fun h => ?_
  rw [← seconds_eq hk w] at h ⊢
  exact separated hk hs ht w h

theorem epochSeconds_lt_iff (hk : k ≤ 37) (hs : Dated k s) (ht : Dated k t) :
    epochSeconds s < epochSeconds t ↔ s < t := by
  have h := epochSeconds_sub_le_iff hk hs ht 0
  rw [Int.cast_zero, sub_zero, zero_mul, sub_zero] at h
  rw [← not_le, ← not_le, h]

/-- The start of a window, computed in binary64, cuts where the exact one does. -/
theorem window_iff (hk : k ≤ 37) (hs : Dated k s) (ht : Dated k t) {w : ℤ} (hw : 0 ≤ w)
    (hbound : w ≤ 2 ^ 53) :
    Binary64.sub (epochSeconds t) (Binary64.round w) ≤ epochSeconds s ↔ t - w * second ≤ s := by
  have hexact : Binary64.round w = w := by
    have h := Binary64.round_of_grid (n := w) (e := 0) (abs_le.mpr ⟨by omega, hbound⟩)
    rwa [zpow_zero, mul_one] at h
  rw [hexact, hs.epochSeconds_eq, ht.epochSeconds_eq, ← shifted_iff, seconds_eq hk w]
  refine Binary64.sub_le_round_iff ht.inBinade hs.inBinade (by positivity) fun h => ?_
  rw [← seconds_eq hk w] at h ⊢
  exact separated hk hs ht w h

theorem distance_iff (hk : k ≤ 37) (hs : Dated k s) (ht : Dated k t) (w : ℤ) :
    (w : ℚ) ≤ Binary64.sub (epochSeconds t) (epochSeconds s) ↔ w * second ≤ t - s := by
  have hexact : Binary64.sub (epochSeconds t) (epochSeconds s) =
      epochSeconds t - epochSeconds s := by
    rw [hs.epochSeconds_eq, ht.epochSeconds_eq]
    exact Binary64.sub_round ht.inBinade hs.inBinade
  have hreversed := epochSeconds_sub_le_iff hk ht hs (-w)
  rw [hexact]
  constructor
  · intro h
    have := hreversed.mp (by push_cast; linarith)
    linarith
  · intro h
    have := hreversed.mpr (by linarith)
    push_cast at this
    linarith

end Dated

end Autoscaler.Analysis
