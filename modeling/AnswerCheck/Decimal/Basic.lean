import AnswerCheck.Decimal.Digits

/-! # Decimal numbers

A non-negative decimal is a coefficient times a power of ten. It is rounded to a multiple of a power
of ten, hence to a number of places or of significant digits; what happens to a value that lies
exactly between two multiples is a parameter.
-/

set_option autoImplicit false

namespace AnswerCheck

/-- The number `coefficient * 10 ^ exponent`. -/
structure Decimal where
  coefficient : Nat
  exponent : Int
deriving Repr, DecidableEq

namespace Decimal

/-- Where a value goes that lies exactly between two neighbours. -/
inductive Tie where
  | toEven
  | awayFromZero
deriving Repr, DecidableEq

/-- The integer nearest to `num / den`. -/
def roundDiv (num den : Nat) (tie : Tie) : Nat :=
  let q := num / den
  let r := num % den
  if 2 * r < den then q
  else if den < 2 * r then q + 1
  else
    match tie with
    | .awayFromZero => q + 1
    | .toEven => q + q % 2

/-- The exponent of the leading digit: `10 ^ d.lead` is the largest power of ten not above a value
that is not zero. -/
def lead (d : Decimal) : Int :=
  d.exponent + digitCount d.coefficient - 1

/-- The value in units of `10 ^ k`, rounded to an integer. -/
def inUnits (d : Decimal) (k : Int) (tie : Tie) : Nat :=
  if k ≤ d.exponent then d.coefficient * Nat.pow 10 (d.exponent - k).toNat
  else roundDiv d.coefficient (Nat.pow 10 (k - d.exponent).toNat) tie

/-- The value rounded to `n` significant digits, as a coefficient of exactly `n` digits. A value
that rounds up to the next power of ten moves to its exponent. -/
def significant (d : Decimal) (n : Nat) (tie : Tie) : Decimal :=
  let k := d.lead - n + 1
  let c := d.inUnits k tie
  if c = Nat.pow 10 n then ⟨Nat.pow 10 (n - 1), k + 1⟩ else ⟨c, k⟩

/-- The same value with a coefficient that does not end in zero; at most `fuel` zeros are moved to
the exponent. -/
def trimZerosWithin : Nat → Decimal → Decimal
  | 0, d => d
  | fuel + 1, d =>
    if d.coefficient ≠ 0 ∧ d.coefficient % 10 = 0 then
      trimZerosWithin fuel ⟨d.coefficient / 10, d.exponent + 1⟩
    else d

/-- The same value with the shortest coefficient. -/
def trimZeros (d : Decimal) : Decimal :=
  trimZerosWithin (digitCount d.coefficient) d

/-! ## Positional notation -/

/-- The number `n / 10 ^ places` with all its places; without places there is no point. -/
def fixedText (n places : Nat) : List Char :=
  let whole := digits (n / Nat.pow 10 places)
  if places = 0 then whole else whole ++ '.' :: paddedDigits places (n % Nat.pow 10 places)

/-- The value in positional notation, with as many places as its exponent asks for. -/
def plainText (d : Decimal) : List Char :=
  if 0 ≤ d.exponent then digits (d.coefficient * Nat.pow 10 d.exponent.toNat)
  else fixedText d.coefficient (-d.exponent).toNat

end Decimal

end AnswerCheck
