import AnswerCheck.Decimal.OfFloat

/-! # The shortest decimal that reads back

The reals that round to a given binary64 number form an interval around it; its ends belong to it
when the mantissa is even. Of all decimals in that interval the ones with the fewest digits are
taken, and of those the nearest to the number. To find them it is enough to look, for one digit, two
digits and so on, at the two neighbours of the number on the grid of decimals with that many digits.
All comparisons are made between integers.
-/

set_option autoImplicit false

namespace AnswerCheck.Decimal

/-- Enough significant digits to tell any two binary64 numbers apart. -/
def digitsToSeparate : Nat := 17

/-- The interval of reals that round to a number, in quarters of its last binary place: the numbers
`below * 2 ^ exponent` and `above * 2 ^ exponent` around `centre * 2 ^ exponent`. -/
structure RoundingInterval where
  below : Nat
  centre : Nat
  above : Nat
  exponent : Int
  closed : Bool

/-- The rounding interval of a number that is not zero. Below a power of two the neighbours stand
twice as close, so the lower end is nearer. -/
def RoundingInterval.ofBinary (b : Binary) : RoundingInterval where
  below := 4 * b.mantissa - if b.mantissa = Nat.pow 2 52 ∧ -1074 < b.exponent then 1 else 2
  centre := 4 * b.mantissa
  above := 4 * b.mantissa + 2
  exponent := b.exponent - 2
  closed := b.mantissa % 2 = 0

/-- The factors that bring `a * 10 ^ k` and `n * 2 ^ q` to one denominator, for any `a` and `n`. -/
def commonFactors (k q : Int) : Nat × Nat :=
  (Nat.pow 10 k.toNat * Nat.pow 2 (-q).toNat, Nat.pow 2 q.toNat * Nat.pow 10 (-k).toNat)

/-- Whether `a * 10 ^ k` lies in the interval. -/
def RoundingInterval.holds (r : RoundingInterval) (a : Nat) (k : Int) : Bool :=
  let (f, g) := commonFactors k r.exponent
  if r.closed then r.below * g ≤ a * f && a * f ≤ r.above * g
  else r.below * g < a * f && a * f < r.above * g

/-- The neighbour of the centre on the grid of multiples of `10 ^ k` that lies in the interval; of
two such neighbours the nearer. -/
def RoundingInterval.onGrid? (r : RoundingInterval) (tie : Tie) (k : Int) : Option Decimal :=
  let (f, g) := commonFactors k r.exponent
  let a := r.centre * g / f
  match r.holds a k, r.holds (a + 1) k with
  | true, false => some ⟨a, k⟩
  | false, true => some ⟨a + 1, k⟩
  | true, true => some ⟨roundDiv (r.centre * g) f tie, k⟩
  | false, false => none

/-- The first grid that meets the interval, among those of `n`, `n + 1`, ... digits for a number
whose leading digit has exponent `lead`. -/
def RoundingInterval.firstGrid? (r : RoundingInterval) (tie : Tie) (lead : Int) :
    Nat → Nat → Option Decimal
  | 0, _ => none
  | more + 1, n =>
    match r.onGrid? tie (lead - n + 1) with
    | some d => some d
    | none => r.firstGrid? tie lead more (n + 1)

/-- The shortest decimal that rounds to the magnitude of a finite number. -/
def shortest (tie : Tie) (x : Float) : Decimal :=
  let exact := ofFloat x
  if exact.coefficient = 0 then ⟨0, 0⟩
  else
    let r := RoundingInterval.ofBinary (Binary.ofFloat x)
    ((r.firstGrid? tie exact.lead digitsToSeparate 1).getD exact).trimZeros

end AnswerCheck.Decimal
