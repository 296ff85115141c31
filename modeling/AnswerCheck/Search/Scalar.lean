import AnswerCheck.Decimal.Whole

/-! # Numbers to search among

The search for roots adds, multiplies, halves and compares points and residuals. It needs no more
than that, so it runs on any type with these operations: on floating-point numbers when an answer is
checked, and on exact rationals where rounding is to be left out of an argument.
-/

set_option autoImplicit false

namespace AnswerCheck.Search

/-- The operations on points and residuals that the search uses. -/
class Scalar (α : Type) extends Add α, Sub α, Mul α, Div α where
  ofNat : Nat → α
  less : α → α → Bool
  same : α → α → Bool
  abs : α → α
  floor : α → α
  ceil : α → α
  isFinite : α → Bool
  isNumber : α → Bool

export Scalar (less same)

variable {α : Type} [Scalar α]

def isZero (y : α) : Bool :=
  same y (Scalar.ofNat 0)

def isNegative (y : α) : Bool :=
  less y (Scalar.ofNat 0)

/-- The greater of two numbers: the first if they are equal, and the other one if one is not a
number. -/
def greater (a b : α) : α :=
  if Scalar.isNumber a && !less a b then a else if Scalar.isNumber b then b else a

/-- The lesser of two numbers: the first if they are equal, and the other one if one is not a
number. -/
def lesser (a b : α) : α :=
  if Scalar.isNumber a && !less b a then a else if Scalar.isNumber b then b else a

def midpoint (a b : α) : α :=
  Scalar.ofNat 1 / Scalar.ofNat 2 * (a + b)

/-- The floating-point numbers. -/
instance : Scalar Float where
  ofNat := Float.ofNat
  less a b := a < b
  same a b := a == b
  abs := Float.abs
  floor := Decimal.roundDown
  ceil := Decimal.roundUp
  isFinite := Float.isFinite
  isNumber a := !a.isNaN

end AnswerCheck.Search
