import AnswerCheck.Decimal.Calculator
import AnswerCheck.Text.Recognizer

/-! # Powers and scientific notation

Powers written with two stars get a caret. With blanks around the stars this is done between plain
numeric operands only, because two stars also mark bold text. Numbers with an exponent are written
with `E`, without a plus sign and without zeros at the end of the fraction.
-/

set_option autoImplicit false

namespace AnswerCheck.Spelling

open Text

/-! ## Powers -/

/-- The start of an exponent: one character that `accepts` takes, with a minus sign before it or
not. -/
def exponentStart? (accepts : Char → Bool) : Recognizer (List Char)
  | [] => none
  | c :: s =>
    if c = '-' then
      match s with
      | d :: rest => if accepts d then some ([c, d], rest) else none
      | [] => none
    else if accepts c then some ([c], s)
    else none

/-- An operand, two stars and the start of an exponent, with as many `gap` characters around the
stars as there are. -/
def starred? (base gap exponent : Char → Bool) : Recognizer (List Char)
  | [] => none
  | c :: s =>
    if base c then
      match s.dropWhile gap with
      | '*' :: '*' :: s => (exponentStart? exponent (s.dropWhile gap)).map
          fun (start, rest) => (c :: '^' :: start, rest)
      | _ => none
    else none

/-- Two stars with an operand on either side and nothing between. -/
def tightPower? : Recognizer (List Char) :=
  starred? (fun c => c.isAlphanum || c = ')' || c = ']') (fun _ => false)
    (fun c => c.isAlphanum || c = '(')

/-- Two stars between numeric operands, with blanks or without. -/
def spacedPower? : Recognizer (List Char) :=
  starred? (fun c => c.isDigit || c = 'x' || c = ')' || c = ']') isInlineBlank
    (fun c => c.isDigit || c = 'x' || c = '(')

/-- Writes the powers of a text with carets. -/
def replaceStars (s : List Char) : List Char :=
  replaceAll spacedPower? (replaceAll tightPower? s)

/-! ## Scientific notation -/

/-- A sign or none, as it is written. -/
def signText (signs : List Char) (s : List Char) : List Char × List Char :=
  match s with
  | c :: rest => if signs.contains c then ([c], rest) else ([], s)
  | [] => ([], [])

/-- A mantissa as it is written: digits, and a fraction if it has digits on both sides of its
point. -/
def mantissaText? : Recognizer (List Char) := fun s => do
  let (whole, rest) ← run? Char.isDigit s
  match rest with
  | '.' :: after =>
    match run? Char.isDigit after with
    | some (fraction, after) => some (whole ++ '.' :: fraction, after)
    | none => some (whole, rest)
  | _ => some (whole, rest)

/-- A mantissa without the zeros at the end of its fraction. -/
def shortMantissa (s : List Char) : List Char :=
  if s.contains '.' then dropEndWhile (· == '.') (dropEndWhile (· == '0') s) else s

/-- A number with an exponent. -/
def scientific? : Recognizer (List Char) := fun s => do
  let (sign, s) := signText ['-'] s
  let (mantissa, s) ← mantissaText? s
  match s with
  | c :: s =>
    if c = 'e' || c = 'E' then
      let (powerSign, s) := signText ['+', '-'] s
      let (power, rest) ← run? Char.isDigit s
      let powerSign := if powerSign = ['+'] then [] else powerSign
      some (sign ++ shortMantissa mantissa ++ 'E' :: powerSign ++ power, rest)
    else none
  | [] => none

/-- Writes all numbers with an exponent in one form. -/
def tidyScientific (s : List Char) : List Char :=
  replaceAll scientific? s

end AnswerCheck.Spelling
