import Mathlib.Algebra.Order.Field.Basic

/-! Floating-point numbers whose finite values are exact. -/
namespace Autoscaler

inductive Float64 (K : Type*) where
  | finite (value : K)
  | nan
  | inf (negative : Bool)
  deriving DecidableEq, Repr

namespace Float64

variable {K : Type*}

/-- The value of a finite number. -/
def exact [Zero K] : Float64 K → K
  | .finite value => value
  | _ => 0

def add [Add K] : Float64 K → Float64 K → Float64 K
  | .finite a, .finite b => .finite (a + b)
  | .nan, _ => .nan
  | _, .nan => .nan
  | .inf s, .inf t => if s = t then .inf s else .nan
  | .inf s, .finite _ => .inf s
  | .finite _, .inf t => .inf t

@[simp] theorem nan_add [Add K] (b : Float64 K) : add .nan b = .nan := by
  cases b <;> rfl

@[simp] theorem exact_finite [Zero K] (a : K) : exact (.finite a) = a := rfl

variable [Field K] [LinearOrder K]

def scale (k : K) : Float64 K → Float64 K
  | .finite a => .finite (k * a)
  | .nan => .nan
  | .inf s => if k = 0 then .nan else .inf (xor s (decide (k < 0)))

def sub (a b : Float64 K) : Float64 K := a.add (b.scale (-1))

def mul : Float64 K → Float64 K → Float64 K
  | .finite a, b => b.scale a
  | a, .finite b => a.scale b
  | .inf s, .inf t => .inf (xor s t)
  | .nan, _ | _, .nan => .nan

/-- Nothing compares with a NaN. -/
def le : Float64 K → Float64 K → Bool
  | .finite a, .finite b => decide (a ≤ b)
  | .inf s, .inf t => s || !t
  | .inf s, .finite _ => s
  | .finite _, .inf t => !t
  | .nan, _ | _, .nan => false

@[simp] theorem finite_mul (a : K) (b : Float64 K) : (finite a).mul b = b.scale a := rfl

@[simp] theorem finite_sub (a b : K) : (finite a).sub (.finite b) = .finite (a - b) := by
  simp [sub, scale, add, sub_eq_add_neg]

@[simp] theorem nan_mul (b : Float64 K) : mul .nan b = .nan := by
  cases b <;> rfl

theorem not_le_and_not_le_iff {a b : K} {x : Float64 K} :
    (x.le (.finite a) = false ∧ (finite b).le x = false) ↔
      x = .nan ∨ ∃ value, x = .finite value ∧ a < value ∧ value < b := by
  cases x with
  | finite value => simp [le]
  | nan => simp [le]
  | inf negative => cases negative <;> simp [le]

end Float64

end Autoscaler
