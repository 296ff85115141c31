import AnswerCheck.Decimal.Calculator
import AnswerCheck.Text.Letter
import AnswerCheck.Text.Pattern

/-! # Requests for a number of places

A question may ask for rounding, either with a count ("round to 2 decimal places") or by name
("nearest tenth", "two decimal places"). The count wins if it can be honoured; of the names the one
with the fewest places does.
-/

set_option autoImplicit false

namespace AnswerCheck.Answer

open Text

/-! ## Requests with a count -/

/-- Blanks, of which there has to be one. -/
def afterBlanks? (s : List Char) : Option (List Char) :=
  (run? isBlank s).map (·.2)

/-- A request of the form "round to 2 decimal" or "rounded to 2 decimal", in lower case: the digits
of its count. -/
def countedRequest? : Recognizer (List Char) := fun s => do
  let s ← after? "round".toList s
  let s := (after? "ed".toList s).getD s
  let s ← after? "to".toList (← afterBlanks? s)
  let (count, s) ← run? isDecimalDigit (← afterBlanks? s)
  let s ← after? "decimal".toList (← afterBlanks? s)
  some (count, s)

/-- The count of the first such request, if it is written in ASCII digits and can be honoured. -/
def countedPlaces? (s : List Char) : Option Nat := do
  let (_, count, _) ← findFirst? countedRequest? s
  let places := Decimal.valueOf count
  if count.all Char.isDigit && places ≤ Decimal.maxPlaces then some places else none

/-! ## Requests by name -/

def twoWords (first second : String) : Pattern :=
  .inOrder [.word first, .someBlanks, .word second]

/-- The patterns for one place up to five. -/
def namedRequests : List (Pattern × Nat) := [
  (.anyOf (twoWords "nearest" "tenth") [twoWords "one" "decimal", twoWords "1" "decimal"], 1),
  (.anyOf (twoWords "nearest" "hundredth") [twoWords "two" "decimal", twoWords "2" "decimal"], 2),
  (.anyOf (twoWords "nearest" "thousandth")
    [twoWords "three" "decimal", twoWords "3" "decimal"], 3),
  (.anyOf (twoWords "four" "decimal") [twoWords "4" "decimal"], 4),
  (.anyOf (twoWords "five" "decimal") [twoWords "5" "decimal"], 5)]

def namedPlaces? (s : List Char) : Option Nat :=
  (namedRequests.find? fun request => request.1.occursIn s).map (·.2)

def requestedPlaces? (s : List Char) : Option Nat :=
  let s := lower s
  (countedPlaces? s).or (namedPlaces? s)

end AnswerCheck.Answer
