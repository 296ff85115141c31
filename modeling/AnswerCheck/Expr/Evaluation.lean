import AnswerCheck.Decimal.Layout
import AnswerCheck.Expr.Basic

/-! # Evaluating expressions

The value of an expression at a point, or the cause why it has none. Every subexpression that stands
on its own needs a finite value. Inside an arithmetic chain only the end of the chain is looked at:
the running value may leave the finite range and is caught there. The number of levels that may be
nested is limited.
-/

set_option autoImplicit false

namespace AnswerCheck

/-- Levels of nesting that evaluation enters. -/
def maxEvalNesting : Nat := 512

/-- Why an expression has no value at a point. -/
inductive EvalError where
  | divisionByZero
  /-- An operation on a real number outside its domain. -/
  | domain (operation : String) (argument : Float)
  | nonFinite
  | tooDeep
deriving Repr

def EvalError.message : EvalError → String
  | divisionByZero => "division by zero"
  | domain operation argument =>
    operation ++ " undefined at " ++ Decimal.Layout.inline.text argument
  | nonFinite => "non-finite result"
  | tooDeep => "expression nested deeper than " ++ toString maxEvalNesting

def piValue : Float := 3.141592653589793

def finiteValue (value : Float) : Except EvalError Float :=
  if value.isFinite then .ok value else .error .nonFinite

/-- The operator applied to the running value of a chain and the next operand. -/
def Operator.apply (op : Operator) (a b : Float) : Except EvalError Float :=
  match op with
  | add => .ok (a + b)
  | sub => .ok (a - b)
  | mul => .ok (a * b)
  | div => if b == 0 then .error .divisionByZero else .ok (a / b)

/-- A power of zero with an exponent that is not zero. Only an odd exponent keeps the sign, and below
zero the power is infinite. -/
def zeroPower (base exponent : Float) : Float :=
  let power := if (Binary.ofFloat exponent).isOdd then base else 0
  if exponent < 0 then 1 / power else power

/-- A power of finite numbers; a negative base has powers with integer exponents only. -/
def powerValue (base exponent : Float) : Except EvalError Float :=
  if base < 0 && !(Binary.ofFloat exponent).isInteger then .error (.domain "pow" base)
  else if exponent == 0 then .ok 1
  else if base == 0 then .ok (zeroPower base exponent)
  else .ok (base.pow exponent)

def Function.apply (f : Function) (v : Float) : Except EvalError Float :=
  match f with
  | sqrt => if v < 0 then .error (.domain sqrt.name v) else .ok v.sqrt
  | abs => .ok v.abs

namespace Expr

/-- The value at a point with at most `levels` levels of nesting. `inChain` tells that the
expression is the left operand of an arithmetic chain: a chain that continues there stays on its
level, and its value is not looked at. -/
def evalWithin (point : Float) (inChain : Bool) : Expr → Nat → Except EvalError Float
  | arith op left right, levels =>
    if inChain then do
      let a ← left.evalWithin point true levels
      let b ← right.evalWithin point false levels
      op.apply a b
    else
      match levels with
      | 0 => .error .tooDeep
      | below + 1 => do
        let a ← left.evalWithin point true below
        let b ← right.evalWithin point false below
        finiteValue (← op.apply a b)
  | _, 0 => .error .tooDeep
  | number value, _ + 1 => finiteValue value
  | var, _ + 1 => finiteValue point
  | pi, _ + 1 => finiteValue piValue
  | power base exponent, below + 1 => do
    let b ← base.evalWithin point false below
    let e ← exponent.evalWithin point false below
    finiteValue (← powerValue b e)
  | neg operand, below + 1 => do
    finiteValue (-(← operand.evalWithin point false below))
  | call function argument, below + 1 => do
    finiteValue (← function.apply (← argument.evalWithin point false below))

def eval (e : Expr) (point : Float) : Except EvalError Float :=
  e.evalWithin point false maxEvalNesting

/-- The value at a point; not a number where there is none. -/
def value (e : Expr) (point : Float) : Float :=
  match e.eval point with
  | .ok v => v
  | .error _ => 0.0 / 0.0

end Expr

end AnswerCheck
