/-! # Digit strings

Natural numbers as runs of decimal digits, written and read.
-/

set_option autoImplicit false

namespace AnswerCheck.Decimal

/-- The decimal digits of a number, most significant first; zero has one digit. -/
def digits (n : Nat) : List Char :=
  Nat.toDigits 10 n

def digitCount (n : Nat) : Nat :=
  (digits n).length

/-- The digits of a number, with zeros in front up to `width` places. -/
def paddedDigits (width n : Nat) : List Char :=
  (digits n).leftpad width '0'

def digitValue (c : Char) : Nat :=
  c.toNat - '0'.toNat

def valueOf (ds : List Char) : Nat :=
  Nat.ofDigitChars 10 ds 0

end AnswerCheck.Decimal
