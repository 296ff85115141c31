import AnswerCheck.Decimal.OfFloat
import AnswerCheck.Text.Blank

/-! # Numbers as a calculator shows them

With a fixed number of places the exact value is rounded to that many, halves away from zero.
Without, ten significant digits are shown and trailing zeros dropped; values that come out below
`10 ^ -6`, or at `10 ^ 10` and above, are shown as a mantissa with a power of ten after `E`. Zero
never has a sign, whether it was zero or was rounded to it.
-/

set_option autoImplicit false

namespace AnswerCheck.Decimal

open Text

/-- Largest number of places that is honoured; larger requests count as this many. -/
def maxPlaces : Nat := 100

/-- Significant digits shown when no number of places is asked for. -/
def shownDigits : Nat := 10

/-- The smallest exponent of the leading digit that is shown positionally. -/
def leastPositional : Int := -6

/-- Magnitudes from this one on have a power of ten. -/
def large : Float := 1e10

/-- Magnitudes below this one have a power of ten. -/
def small : Float := 1e-9

/-- Places enough to write every finite number in full. -/
def exactPlaces : Nat := 1100

/-! ## Trailing zeros -/

/-- Removes the zeros after the last digit of a fraction, then a point that has nothing after it. A
text without a point is left as it is, and one that loses everything is zero. -/
def stripZeros (s : List Char) : List Char :=
  if s.contains '.' then
    let shorter := dropEndWhile (· == '0') s
    let shorter := if shorter.getLast? = some '.' then shorter.dropLast else shorter
    if shorter.isEmpty then ['0'] else shorter
  else s

/-! ## Fixed places -/

/-- The digits before the point and the `exactPlaces` digits after it. -/
def expansion (d : Decimal) : List Char × List Char :=
  let n := d.inUnits (-(exactPlaces : Int)) .toEven
  (digits (n / Nat.pow 10 exactPlaces), paddedDigits exactPlaces (n % Nat.pow 10 exactPlaces))

/-- One more in the last place, for digits with the last place first. Nines become zeros, and a carry
out of the first digit puts a one in front. -/
def increaseReversed : List Char → List Char
  | [] => ['1']
  | c :: ds => if c = '9' then '0' :: increaseReversed ds else Char.ofNat (c.toNat + 1) :: ds

def increase (ds : List Char) : List Char :=
  (increaseReversed ds.reverse).reverse

/-- The digits before and after the point with so many places. The first digit that is dropped
decides whether one is added in the last place; a carry out of the first digit makes the digits before
the point one more. -/
def roundDigits (whole fraction : List Char) (places : Nat) : List Char × List Char :=
  let kept := whole ++ fraction.take places
  let rounded := if fraction[places]?.any ('5' ≤ ·) then increase kept else kept
  let point := whole.length + (rounded.length - kept.length)
  (rounded.take point, rounded.drop point)

def fixedPlaces (d : Decimal) (places : Nat) : List Char :=
  let (whole, fraction) := d.expansion
  let (whole, fraction) := roundDigits whole fraction places
  if places = 0 then whole else whole ++ '.' :: fraction

/-! ## Significant digits -/

/-- A coefficient of several digits as a mantissa with one digit before the point. -/
def mantissaText (coefficient : Nat) : List Char :=
  fixedText coefficient (digitCount coefficient - 1)

/-- An exponent with a minus sign where it is negative. -/
def exponentText (e : Int) : List Char :=
  (if e < 0 then ['-'] else []) ++ digits e.natAbs

/-- Significant digits as a mantissa, without zeros at its end, and a power of ten. -/
def scientificText (rounded : Decimal) : List Char :=
  stripZeros (mantissaText rounded.coefficient) ++ 'E' :: exponentText rounded.lead

/-- A magnitude with ten significant digits. The mantissa, whose halves go to the even digit, decides
between the two forms; the positional form rounds the magnitude anew, halves away from zero. -/
def precisionText (d : Decimal) : List Char :=
  if d.coefficient = 0 then stripZeros (fixedText 0 (shownDigits - 1))
  else
    let rounded := d.significant shownDigits .toEven
    if rounded.lead < leastPositional ∨ (shownDigits : Int) ≤ rounded.lead then scientificText rounded
    else stripZeros (d.fixedPlaces ((shownDigits : Int) - 1 - rounded.lead).toNat)

/-- The magnitude of a finite number with ten significant digits. -/
def shown (x : Float) : List Char :=
  let d := ofFloat x
  -- Beyond these thresholds the number itself decides on the form, and not its rounded digits.
  if x.abs != 0 && (large ≤ x.abs || x.abs < small) then
    scientificText (d.significant shownDigits .toEven)
  else d.precisionText

/-! ## Numbers -/

def isZeroText (s : List Char) : Bool :=
  s.all fun c => c == '0' || c == '.'

/-- A magnitude with the sign of its number, which zero does not take. -/
def withSign (negative : Bool) (s : List Char) : List Char :=
  if negative && !isZeroText s then '-' :: s else s

/-- The text of a number, with a fixed number of places or with ten significant digits. -/
def calculatorText (x : Float) (places : Option Nat) : String :=
  if x.isNaN then "NaN"
  else if x.isInf then (if isNegative x then "-Infinity" else "Infinity")
  else
    let magnitude :=
      match places with
      | some p => (ofFloat x).fixedPlaces (min p maxPlaces)
      | none => shown x
    String.ofList (withSign (isNegative x) magnitude)

end AnswerCheck.Decimal
