import AnswerCheck.Decimal.OfFloat
import AnswerCheck.Expr.Basic
import AnswerCheck.Proofs.Decimal.Value
import Mathlib.Analysis.SpecialFunctions.Pow.Real

/-! # The exact value of an expression

The value at a real point, with every operation done on real numbers. There is none where an operand
of a quotient, a power or a square root is outside the domain. Which real number a literal stands
for is a parameter.
-/

set_option autoImplicit false

namespace AnswerCheck

noncomputable section

def Operator.onReals? (op : Operator) (a b : ℝ) : Option ℝ :=
  match op with
  | add => some (a + b)
  | sub => some (a - b)
  | mul => some (a * b)
  | div => if b = 0 then none else some (a / b)

/-- A power of real numbers; a negative base has powers with integer exponents only, and zero has
none with a negative exponent. -/
def exactPower? (base exponent : ℝ) : Option ℝ :=
  if (base < 0 ∧ Int.fract exponent ≠ 0) ∨ (base = 0 ∧ exponent < 0) then none
  else some (base ^ exponent)

def Function.onReal? (f : Function) (v : ℝ) : Option ℝ :=
  match f with
  | sqrt => if v < 0 then none else some √v
  | abs => some |v|

/-- The number that a literal is; literals carry no sign. -/
def exactLiteral (value : Float) : ℝ :=
  (Decimal.ofFloat value).value

/-- The exact value at a point, if there is one. -/
def Expr.exactValue? (literal : Float → ℝ) (x : ℝ) : Expr → Option ℝ
  | number value => some (literal value)
  | var => some x
  | pi => some Real.pi
  | arith op left right => do
    op.onReals? (← left.exactValue? literal x) (← right.exactValue? literal x)
  | power base exponent => do
    exactPower? (← base.exactValue? literal x) (← exponent.exactValue? literal x)
  | neg operand => do
    some (-(← operand.exactValue? literal x))
  | call function argument => do
    function.onReal? (← argument.exactValue? literal x)

end

/-- A product with a quotient is the quotient of the product. -/
theorem Operator.onReals?_mul_div (a b c : Option ℝ) :
    ((do Operator.mul.onReals? (← a) (← b)) >>= fun ab => c >>= fun c => Operator.div.onReals? ab c) =
      a >>= fun a => (do Operator.div.onReals? (← b) (← c)) >>= fun bc => Operator.mul.onReals? a bc := by
  cases a with
  | none => rfl
  | some a =>
    cases b with
    | none => rfl
    | some b =>
      cases c with
      | none => rfl
      | some c =>
        by_cases hc : c = 0
        · simp [Operator.onReals?, hc]
        · simp [Operator.onReals?, hc, mul_div_assoc]

end AnswerCheck
