import AnswerCheck.Decimal.ToFloat
import AnswerCheck.Text.Recognizer

/-! # Reading numerals

Unsigned numerals with an optional fraction and an optional exponent, as the equation grammar has
them; signed numerals as they stand in prose; and whole texts that denote a number, with a sign or
one of the names of the non-finite values.
-/

set_option autoImplicit false

namespace AnswerCheck.Decimal

open Text

/-- The decimal with these digits before and after the point, times a power of ten. -/
def ofParts (whole fraction : List Char) (power : Int) : Decimal :=
  ⟨valueOf (whole ++ fraction), power - fraction.length⟩

/-- A sign and whether it is minus; without a sign nothing is read. -/
def sign (s : List Char) : Bool × List Char :=
  match s with
  | '-' :: rest => (true, rest)
  | '+' :: rest => (false, rest)
  | _ => (false, s)

/-- An exponent: the mark `e` or `E`, a sign or none, and at least one digit. -/
def exponent? : Recognizer Int
  | [] => none
  | mark :: s =>
    if mark = 'e' ∨ mark = 'E' then
      let signed := sign s
      match run? Char.isDigit signed.2 with
      | some (ds, rest) =>
        some (if signed.1 then -(valueOf ds : Int) else valueOf ds, rest)
      | none => none
    else none

/-- An exponent where there is one, else zero. -/
def exponentOrZero (s : List Char) : Int × List Char :=
  (exponent? s).getD (0, s)

/-- An unsigned numeral with digits before or after the point, or on both sides. -/
def unsigned? : Recognizer Decimal := fun s =>
  let whole := s.takeWhile Char.isDigit
  let rest := s.dropWhile Char.isDigit
  let (fraction, rest) :=
    match rest with
    | '.' :: r => (r.takeWhile Char.isDigit, r.dropWhile Char.isDigit)
    | _ => ([], rest)
  if whole.isEmpty && fraction.isEmpty then none
  else
    let (power, rest) := exponentOrZero rest
    some (ofParts whole fraction power, rest)

/-- Digits with a fraction, which needs digits on both sides of its point. -/
def mantissa? : Recognizer (List Char × List Char) := fun s =>
  match run? Char.isDigit s with
  | none => none
  | some (whole, '.' :: rest) =>
    match run? Char.isDigit rest with
    | some (fraction, rest') => some ((whole, fraction), rest')
    | none => some ((whole, []), '.' :: rest)
  | some (whole, rest) => some ((whole, []), rest)

/-- A decimal with a sign in front as a floating-point number. -/
def signedFloat (negative : Bool) (d : Decimal) : Float :=
  if negative then -d.toFloat else d.toFloat

/-- A numeral as it stands in prose: a minus sign or none, digits, a fraction or none, an exponent
or none. -/
def signed? : Recognizer Float := fun s =>
  let (negative, unsigned) :=
    match s with
    | '-' :: rest => (true, rest)
    | _ => (false, s)
  match mantissa? unsigned with
  | none => none
  | some ((whole, fraction), rest) =>
    let (power, rest) := exponentOrZero rest
    some (signedFloat negative (ofParts whole fraction power), rest)

/-- The number that a whole text denotes: a numeral, or the name of infinity or of no number at
all, with a sign or none. -/
def ofText? (s : List Char) : Option Float :=
  let (negative, unsigned) := sign s
  let name := unsigned.map Char.toLower
  let infinity : Float := 1.0 / 0.0
  if name = "inf".toList ∨ name = "infinity".toList then
    some (if negative then -infinity else infinity)
  else if name = "nan".toList then some (0.0 / 0.0)
  else
    match unsigned? unsigned with
    | some (d, []) => some (signedFloat negative d)
    | _ => none

end AnswerCheck.Decimal
