import AnswerCheck.Search.Scan
import Mathlib

/-! # Exact numbers

The rational numbers, two infinities, and a value that is not a number. They are computed with as
floating-point numbers are, but without rounding, without a largest number and with a single zero. A
search on them shows what the steps of the search do by themselves.
-/

set_option autoImplicit false

namespace AnswerCheck.Search

/-- A number that is computed with exactly. -/
inductive Exact where
  | finite (q : ℚ)
  | infinity (negative : Bool)
  | notANumber
deriving DecidableEq

namespace Exact

instance : Coe ℚ Exact := ⟨finite⟩

/-! ## Operations -/

def neg : Exact → Exact
  | finite q => finite (-q)
  | infinity s => infinity (!s)
  | notANumber => notANumber

def add : Exact → Exact → Exact
  | finite p, finite q => finite (p + q)
  | finite _, infinity s => infinity s
  | infinity s, finite _ => infinity s
  | infinity s, infinity t => if s = t then infinity s else notANumber
  | _, _ => notANumber

/-- Zero times infinity is not a number. -/
def mul : Exact → Exact → Exact
  | finite p, finite q => finite (p * q)
  | finite p, infinity s => if p = 0 then notANumber else infinity (s != decide (p < 0))
  | infinity s, finite p => if p = 0 then notANumber else infinity (s != decide (p < 0))
  | infinity s, infinity t => infinity (s != t)
  | _, _ => notANumber

/-- Zero divided by zero, and infinity by infinity, is not a number. -/
def div : Exact → Exact → Exact
  | finite p, finite q =>
    if q ≠ 0 then finite (p / q) else if p = 0 then notANumber else infinity (decide (p < 0))
  | finite _, infinity _ => finite 0
  | infinity s, finite q => infinity (s != decide (q < 0))
  | _, _ => notANumber

/-- What is not a number is neither less than anything nor greater. -/
def less : Exact → Exact → Bool
  | finite p, finite q => p < q
  | finite _, infinity s => !s
  | infinity s, finite _ => s
  | infinity s, infinity t => s && !t
  | _, _ => false

def same : Exact → Exact → Bool
  | finite p, finite q => p = q
  | infinity s, infinity t => s = t
  | _, _ => false

/-- A function of rational numbers that leaves the other numbers as they are. -/
def onFinite (f : ℚ → ℚ) : Exact → Exact
  | finite q => finite (f q)
  | x => x

def abs : Exact → Exact
  | infinity _ => infinity false
  | x => onFinite (|·|) x

instance : Scalar Exact where
  add := add
  sub x y := add x (neg y)
  mul := mul
  div := div
  ofNat n := finite n
  less := less
  same := same
  abs := abs
  floor := onFinite fun q => ⌊q⌋
  ceil := onFinite fun q => ⌈q⌉
  isFinite
    | finite _ => true
    | _ => false
  isNumber x := x != notANumber

/-! ## Rational numbers among them -/

variable {p q : ℚ} {x : Exact}

theorem isFinite_iff : Scalar.isFinite x = true ↔ ∃ q : ℚ, x = q := by
  cases x with
  | finite q => exact iff_of_true rfl ⟨q, rfl⟩
  | _ => exact iff_of_false Bool.false_ne_true (by rintro ⟨q, hq⟩; cases hq)

theorem less_finite : Search.less (p : Exact) (q : Exact) = true ↔ p < q := decide_eq_true_iff

theorem same_finite : Search.same (p : Exact) (q : Exact) = true ↔ p = q := decide_eq_true_iff

theorem isZero_finite : isZero (q : Exact) = true ↔ q = 0 := by
  rw [isZero]
  exact_mod_cast same_finite (p := q) (q := 0)

theorem isNegative_finite : isNegative (q : Exact) = true ↔ q < 0 := by
  rw [isNegative]
  exact_mod_cast less_finite (p := q) (q := 0)

theorem ofNat_finite (n : Nat) : (Scalar.ofNat n : Exact) = (n : ℚ) := rfl

theorem add_finite (p q : ℚ) : (p : Exact) + (q : Exact) = (p + q : ℚ) := rfl

theorem sub_finite (p q : ℚ) : (p : Exact) - (q : Exact) = (p - q : ℚ) :=
  congrArg finite (sub_eq_add_neg p q).symm

theorem mul_finite (p q : ℚ) : (p : Exact) * (q : Exact) = (p * q : ℚ) := rfl

theorem div_finite (p : ℚ) (hq : q ≠ 0) : (p : Exact) / (q : Exact) = (p / q : ℚ) := if_pos hq

theorem midpoint_finite (p q : ℚ) : midpoint (p : Exact) (q : Exact) = ((p + q) / 2 : ℚ) := by
  rw [midpoint, ofNat_finite, ofNat_finite, div_finite _ (by norm_num), add_finite, mul_finite]
  congr 1
  push_cast
  ring

end Exact

end AnswerCheck.Search
