import AnswerCheck.Decimal.OfFloat

/-! # Rounding to integers

The integers next to a floating-point number, read off its exact value. Integers, infinities and
what is not a number stay as they are, and a result of zero keeps the sign of the number.
-/

set_option autoImplicit false

namespace AnswerCheck.Decimal

/-- The greatest integer that is not above a number. -/
def roundDown (x : Float) : Float :=
  let b := Binary.ofFloat x
  if !x.isFinite || b.isInteger then x
  else if b.negative then -Float.ofNat (b.wholePart + 1)
  else Float.ofNat b.wholePart

/-- The least integer that is not below a number. -/
def roundUp (x : Float) : Float :=
  let b := Binary.ofFloat x
  if !x.isFinite || b.isInteger then x
  else if b.negative then -Float.ofNat b.wholePart
  else Float.ofNat (b.wholePart + 1)

end AnswerCheck.Decimal
