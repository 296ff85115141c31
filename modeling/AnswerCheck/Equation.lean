import AnswerCheck.Expr.Compile
import AnswerCheck.Expr.Evaluation
import AnswerCheck.Expr.Printer

/-! # Equations and their residuals

An equation is two expressions around one equals sign. Its residual at a point is the difference of
the sides; a root is a point where the residual is zero.
-/

set_option autoImplicit false

namespace AnswerCheck

/-- Two expressions that are claimed to be equal. -/
structure Equation where
  left : Expr
  right : Expr
deriving Repr

namespace Equation

/-- The equation that a text denotes. It has exactly one equals sign; a left side that cannot be
read is reported before the right one. -/
def ofText (s : List Char) : Except CompileError Equation :=
  match s.splitOn '=' with
  | [left, right] => do
    let left ← Expr.ofText left
    let right ← Expr.ofText right
    .ok ⟨left, right⟩
  | parts => .error (.notAnEquation parts.length)

def toText (e : Equation) : String :=
  e.left.toText ++ " = " ++ e.right.toText

/-- Left side minus right side; not a number unless both sides have a value. -/
def residual (e : Equation) (point : Float) : Float :=
  let left := e.left.value point
  let right := e.right.value point
  if left.isFinite && right.isFinite then left - right else 0.0 / 0.0

def residual? (e : Equation) (point : Float) : Option Float :=
  let r := e.residual point
  if r.isFinite then some r else none

end Equation

end AnswerCheck
