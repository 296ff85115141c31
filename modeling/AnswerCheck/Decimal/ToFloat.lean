import AnswerCheck.Decimal.Basic

/-! # The floating-point number nearest to a decimal

Magnitudes far outside the range of binary64 are settled before any power of ten is formed, so that
a numeral with an absurd exponent costs nothing.
-/

set_option autoImplicit false

namespace AnswerCheck.Decimal

/-- Values whose leading digit stands above this exponent are beyond the largest finite number. -/
def greatestLead : Int := 309

/-- Values whose leading digit stands below this exponent are nearer to zero than to any other
number. -/
def leastLead : Int := -330

/-- The nearest floating-point number; infinity when the value is beyond the finite ones. -/
def toFloat (d : Decimal) : Float :=
  if d.coefficient = 0 ∨ d.lead < leastLead then 0
  else if greatestLead < d.lead then 1.0 / 0.0
  else Float.ofScientific d.coefficient (d.exponent < 0) d.exponent.natAbs

end AnswerCheck.Decimal
