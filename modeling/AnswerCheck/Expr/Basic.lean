/-! # Expressions in one variable

The tree of one side of an equation: numbers, the variable `x`, the constant pi, the four
arithmetic operators, powers, negation and two functions. Sums, differences, products and quotients
share one constructor, because a chain of them along the left operands is one level of nesting.
-/

set_option autoImplicit false

namespace AnswerCheck

inductive Operator where
  | add
  | sub
  | mul
  | div
deriving Repr, DecidableEq

inductive Function where
  | sqrt
  | abs
deriving Repr, DecidableEq

def Function.name : Function → String
  | sqrt => "sqrt"
  | abs => "abs"

def Function.ofName? (name : List Char) : Option Function :=
  [.sqrt, .abs].find? fun f => f.name.toList == name

/-- An expression in the variable `x`. -/
inductive Expr where
  | number (value : Float)
  | var
  | pi
  | arith (op : Operator) (left right : Expr)
  | power (base exponent : Expr)
  | neg (operand : Expr)
  | call (function : Function) (argument : Expr)
deriving Repr

namespace Expr

/-! ## Sizes -/

def nodeCount : Expr → Nat
  | number _ => 1
  | var => 1
  | pi => 1
  | arith _ left right => 1 + left.nodeCount + right.nodeCount
  | power base exponent => 1 + base.nodeCount + exponent.nodeCount
  | neg operand => 1 + operand.nodeCount
  | call _ argument => 1 + argument.nodeCount

/-- Height of the tree; a leaf has height one. -/
def depth : Expr → Nat
  | number _ => 1
  | var => 1
  | pi => 1
  | arith _ left right => 1 + max left.depth right.depth
  | power base exponent => 1 + max base.depth exponent.depth
  | neg operand => 1 + operand.depth
  | call _ argument => 1 + argument.depth

/-- Levels of nesting, with a chain of arithmetic operators along the left operands as one level.
`inChain` tells that the expression is the left operand of such a chain, whose level it shares if it
continues the chain. -/
def nestingIn (inChain : Bool) : Expr → Nat
  | number _ => 1
  | var => 1
  | pi => 1
  | arith _ left right =>
    let operands := max (left.nestingIn true) (right.nestingIn false)
    if inChain then operands else 1 + operands
  | power base exponent => 1 + max (base.nestingIn false) (exponent.nestingIn false)
  | neg operand => 1 + operand.nestingIn false
  | call _ argument => 1 + argument.nestingIn false

/-- Levels of nesting of an expression that stands on its own. -/
def nesting (e : Expr) : Nat :=
  e.nestingIn false

def hasVariable : Expr → Bool
  | number _ => false
  | var => true
  | pi => false
  | arith _ left right => left.hasVariable || right.hasVariable
  | power base exponent => base.hasVariable || exponent.hasVariable
  | neg operand => operand.hasVariable
  | call _ argument => argument.hasVariable

end Expr

end AnswerCheck
