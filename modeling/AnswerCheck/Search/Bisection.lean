import AnswerCheck.Search.Scalar

/-! # Halving a bracket

A bracket is a pair of points where the residual has opposite signs. It is halved, always keeping
the half with the sign change, until the residual at a midpoint is small enough or the halvings are
used up. The residual is a partial function: where it has no finite value it gives nothing.
-/

set_option autoImplicit false

namespace AnswerCheck.Search

variable {α : Type} [Scalar α]

/-- When halving stops. -/
structure BisectionLimits (α : Type) where
  /-- A midpoint is a root when the magnitude of its residual is below this. -/
  tolerance : α
  maxIterations : Nat
deriving Repr

/-- Halves the bracket from `low` to `high` at most as often as given. `lowNegative` tells the sign
at the lower end. When the halvings are used up, the midpoint of the last bracket is the answer. -/
def halve (f : α → Option α) (tolerance : α) : Nat → α → α → Bool → Option α
  | 0, low, high, _ => some (midpoint low high)
  | more + 1, low, high, lowNegative =>
    let middle := midpoint low high
    match f middle with
    | none => none
    | some y =>
      if less (Scalar.abs y) tolerance then some middle
      else if lowNegative != isNegative y then halve f tolerance more low middle lowNegative
      else halve f tolerance more middle high (isNegative y)

/-- A root between two points where the residual is finite, not zero and of opposite sign; nothing
for other points, and nothing if a midpoint has no residual. -/
def bisect (f : α → Option α) (low high : α) (limits : BisectionLimits α) : Option α :=
  match f low, f high with
  | some y, some z =>
    if isZero y || isZero z || isNegative y == isNegative z then none
    else halve f limits.tolerance limits.maxIterations low high (isNegative y)
  | _, _ => none

end AnswerCheck.Search
