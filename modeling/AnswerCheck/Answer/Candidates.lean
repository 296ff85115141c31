import AnswerCheck.Decimal.Numeral
import AnswerCheck.Text.Letter

/-! # The roots that an answer claims

An answer claims roots by assigning them to `x`, `x1` or `x2` anywhere in the text, and by naming
them after `Final Answer`. They are listed in that order, each number once.
-/

set_option autoImplicit false

namespace AnswerCheck.Answer

open Text

/-- An assignment of a number to the variable of this name. -/
def assignment? (name : String) : Recognizer Float := fun s => do
  match (← afterCaseless? name.toList s).dropWhile isBlank with
  | '=' :: rest => Decimal.signed? (rest.dropWhile isBlank)
  | _ => none

def rootNames : List String := ["x", "x1", "x2"]

/-- The text after the last colon that has a text after it. -/
def afterLastColon? : List Char → Option (List Char)
  | [] => none
  | c :: s =>
    (afterLastColon? s).or (if c = ':' && !s.isEmpty then some s else none)

/-- The words that announce the final answer, with what stands after the last colon of their line.
-/
def finalAnswer? : Recognizer (List Char) := fun s => do
  let rest ← afterCaseless? "final answer".toList s
  let answer ← afterLastColon? (rest.takeWhile (· != '\n'))
  some (answer, rest.dropWhile (· != '\n'))

/-- The numbers that the first final answer names. -/
def finalNumbers (s : List Char) : List Float :=
  match findFirst? finalAnswer? s with
  | some (_, answer, _) => findAll Decimal.signed? answer
  | none => []

/-- All numbers that the text claims as roots, in order, with repetitions. -/
def claims (s : List Char) : List Float :=
  rootNames.flatMap (fun name => findAll (assignment? name) s) ++ finalNumbers s

/-- A list with a number added at its end, unless it holds an equal one. -/
def addNew (known : List Float) (value : Float) : List Float :=
  if known.any (· == value) then known else known ++ [value]

/-- The numbers that the text claims as roots, each once. -/
def candidates (s : List Char) : List Float :=
  (claims s).foldl addNew []

end AnswerCheck.Answer
