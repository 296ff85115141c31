import AnswerCheck.Decimal.Shortest

/-! # Writing floating-point numbers

The places where a number is written in full, with the shortest digits that read back, differ in
four decisions: which exponents are written positionally, whether an integer keeps a point, where a
tie between two shortest digit strings goes, and what the two non-finite kinds are called. A layout
is a record of these decisions.
-/

set_option autoImplicit false

namespace AnswerCheck.Decimal

structure Layout where
  /-- Exponents of the leading digit that are written positionally; without bounds, all. -/
  positional : Option (Int × Int)
  /-- Whether an integer is written with a point and a zero. -/
  keepsPoint : Bool
  tie : Tie
  infinity : String
  notANumber : String

namespace Layout

/-- Numbers inside printed expressions and messages: always positional, integers without a point. -/
def inline : Layout := ⟨none, false, .awayFromZero, "inf", "NaN"⟩

/-- Numbers in JSON texts: positional from `0.00001` up to sixteen digits; there is no text for a
non-finite number but the null value. -/
def json : Layout := ⟨some (-5, 15), true, .toEven, "null", "null"⟩

/-- Numbers in TOML texts: always positional and always with a point. -/
def toml : Layout := ⟨none, true, .awayFromZero, "inf", "nan"⟩

def isPositional (l : Layout) (lead : Int) : Bool :=
  match l.positional with
  | none => true
  | some (least, greatest) => least ≤ lead && lead ≤ greatest

/-- The digits with a point after the first one and a power of ten, which always has a sign. -/
def powerText (d : Decimal) : List Char :=
  match digits d.coefficient with
  | [] => []
  | first :: rest =>
    let fraction := if rest.isEmpty then [] else '.' :: rest
    let power := d.lead
    let sign := if power < 0 then '-' else '+'
    first :: fraction ++ 'e' :: sign :: digits power.natAbs

def magnitude (l : Layout) (d : Decimal) : List Char :=
  if d.coefficient = 0 || l.isPositional d.lead then
    d.plainText ++ (if l.keepsPoint && 0 ≤ d.exponent then ['.', '0'] else [])
  else powerText d

/-- The text of a number. A sign is written before every number that carries one, but no text names
the sign of what is not a number. -/
def text (l : Layout) (x : Float) : String :=
  if x.isNaN then l.notANumber
  else
    let sign := if isNegative x then ['-'] else []
    String.ofList (sign ++ if x.isInf then l.infinity.toList else l.magnitude (shortest l.tie x))

end Layout

end AnswerCheck.Decimal
