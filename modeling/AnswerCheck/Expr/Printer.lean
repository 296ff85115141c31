import AnswerCheck.Decimal.Layout
import AnswerCheck.Expr.Basic

/-! # Printing expressions

An expression is printed with as few parentheses as its operators allow: operands that bind less
tightly than their operator get them, and so do the right operand of `-` and `/` and the base of a
power when they bind equally tightly. A negative number reads like a negation and is wrapped where a
negation would be.
-/

set_option autoImplicit false

namespace AnswerCheck

/-- How tightly an operator binds its operands. -/
def Operator.binding : Operator → Nat
  | add => 1
  | sub => 1
  | mul => 2
  | div => 2

/-- Whether regrouping to the left changes the value, so that a right operand of equal binding
needs parentheses. -/
def Operator.isStrict : Operator → Bool
  | add => false
  | sub => true
  | mul => false
  | div => true

def Operator.symbol : Operator → Char
  | add => '+'
  | sub => '-'
  | mul => '*'
  | div => '/'

namespace Expr

def negBinding : Nat := 3

def powerBinding : Nat := 4

/-- How tightly the outermost operator of an expression binds. -/
def binding : Expr → Nat
  | arith op _ _ => op.binding
  | neg _ => negBinding
  | power _ _ => powerBinding
  | _ => 5

/-- Whether the expression reads like a negation although it is a number. -/
def isNegativeNumber : Expr → Bool
  | number value => value < 0
  | _ => false

/-- Whether an operand is wrapped in parentheses under an operator that binds with `parent`. -/
def isWrapped (operand : Expr) (parent : Nat) (strict : Bool) : Bool :=
  operand.binding < parent || (strict && operand.binding == parent) ||
    (operand.isNegativeNumber && negBinding ≤ parent)

def wrapIf (wrapped : Bool) (s : List Char) : List Char :=
  if wrapped then '(' :: s ++ [')'] else s

def print : Expr → List Char
  | number value => (Decimal.Layout.inline.text value).toList
  | var => ['x']
  | pi => ['p', 'i']
  | arith op left right =>
    wrapIf (left.isWrapped op.binding false) left.print ++ [' ', op.symbol, ' '] ++
      wrapIf (right.isWrapped op.binding op.isStrict) right.print
  | power base exponent =>
    wrapIf (base.isWrapped powerBinding true) base.print ++ '^' ::
      wrapIf (exponent.isWrapped powerBinding false) exponent.print
  | neg operand => '-' :: wrapIf (operand.isWrapped negBinding false) operand.print
  | call function argument => function.name.toList ++ '(' :: argument.print ++ [')']

def toText (e : Expr) : String :=
  String.ofList e.print

end Expr

end AnswerCheck
