import AnswerCheck.Decimal.Basic

/-! # The exact value of a floating-point number

Every finite binary64 number is a decimal with finitely many places, because each power of two in
its denominator becomes a power of ten after multiplication by as many fives. The integer part and
the test for integers are read off the same fields.
-/

set_option autoImplicit false

namespace AnswerCheck

/-- The number `mantissa * 2 ^ exponent` with a sign. -/
structure Binary where
  negative : Bool
  mantissa : Nat
  exponent : Int
deriving Repr, DecidableEq

namespace Binary

/-- Whether the sign bit of a bit pattern is set. -/
def signBit (bits : UInt64) : Bool :=
  0x8000000000000000 ≤ bits.toNat

/-- Sign, mantissa and exponent of a finite number. -/
def ofFloat (x : Float) : Binary :=
  let bits : Nat := x.toBits.toNat
  let scale : Nat := bits / Nat.pow 2 52 % Nat.pow 2 11
  let fraction : Nat := bits % Nat.pow 2 52
  if scale = 0 then ⟨signBit x.toBits, fraction, -1074⟩
  else ⟨signBit x.toBits, fraction + Nat.pow 2 52, (scale : Int) - 1075⟩

def isInteger (b : Binary) : Bool :=
  0 ≤ b.exponent || b.mantissa % Nat.pow 2 (-b.exponent).toNat == 0

/-- The magnitude of the number without its fraction. -/
def wholePart (b : Binary) : Nat :=
  if 0 ≤ b.exponent then b.mantissa * Nat.pow 2 b.exponent.toNat
  else b.mantissa / Nat.pow 2 (-b.exponent).toNat

def isOdd (b : Binary) : Bool :=
  b.isInteger && b.wholePart % 2 == 1

/-- The magnitude of the number as a decimal. -/
def toDecimal (b : Binary) : Decimal :=
  if 0 ≤ b.exponent then ⟨b.mantissa * Nat.pow 2 b.exponent.toNat, 0⟩
  else ⟨b.mantissa * Nat.pow 5 (-b.exponent).toNat, b.exponent⟩

end Binary

def Decimal.ofFloat (x : Float) : Decimal :=
  (Binary.ofFloat x).toDecimal

/-- Whether the number carries a minus sign; minus zero does. -/
def Decimal.isNegative (x : Float) : Bool :=
  Binary.signBit x.toBits

end AnswerCheck
