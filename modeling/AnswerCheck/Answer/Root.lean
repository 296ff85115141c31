import AnswerCheck.Decimal.Calculator
import AnswerCheck.Text.Letter
import AnswerCheck.Text.Recognizer

/-! # Roots and the line that states them

A root is a number with the text that shows it. Roots are listed by ascending value, and texts that
show the same are shown once. The line of the final answer names them `x`, or `x1`, `x2` and so on.
Putting it on top of an answer replaces all lines of the answer that state a final answer.
-/

set_option autoImplicit false

namespace AnswerCheck.Answer

open Text

/-- A root and the text that shows it. The number is kept as its bit pattern, because the order of
listing tells all bit patterns apart. -/
structure Root where
  bits : UInt64
  shown : String
deriving Repr, DecidableEq

def Root.value (r : Root) : Float :=
  Float.ofBits r.bits

/-- The place of a bit pattern in the total order of floating-point numbers, which agrees with the
order of values and puts minus zero before zero and everything else outside the infinities. -/
def rank (bits : UInt64) : Int :=
  if Binary.signBit bits then 0x7FFFFFFFFFFFFFFF - (bits.toNat : Int) else bits.toNat

/-! ## Roots of a list of values -/

def ascending (values : List Float) : List Float :=
  values.mergeSort fun v w => rank v.toBits ≤ rank w.toBits

/-- A list of roots with one more at its end, unless the list has one that is shown the same. -/
def addShown (roots : List Root) (r : Root) : List Root :=
  if roots.any (·.shown == r.shown) then roots else roots ++ [r]

/-- The roots for a list of values: ascending, each value once, each text once. -/
def rootsOf (values : List Float) (places : Option Nat) : List Root :=
  ((ascending values).eraseReps.map fun v => ⟨v.toBits, Decimal.calculatorText v places⟩).foldl
    addShown []

/-! ## The line of the final answer -/

/-- The texts of the roots by ascending value, each once. -/
def shownTexts (roots : List Root) : List String :=
  ((roots.mergeSort fun r s => rank r.bits ≤ rank s.bits).foldl addShown []).map (·.shown)

/-- The roots as assignments to `x1`, `x2` and so on, starting with `number`. -/
def assignmentsFrom (number : Nat) : List String → List String
  | [] => []
  | shown :: more => ("x" ++ toString number ++ "=" ++ shown) :: assignmentsFrom (number + 1) more

def finalLine (roots : List Root) : String :=
  match shownTexts roots with
  | [only] => "Final Answer: x=" ++ only
  | several => "Final Answer: " ++ String.intercalate ", " (assignmentsFrom 1 several)

/-! ## Putting the line on top -/

/-- A character that may stand before the words of a final answer: blanks, and marks of lists,
quotations, headings and emphasis. -/
def isDecoration (c : Char) : Bool :=
  c = ' ' || c = '\t' || c = '>' || c = '*' || c = '_' || c = '#' || c = '\u2022' || c = '-'

/-- Whether a line states a final answer, or the first line of a text. -/
def statesFinalAnswer (line : List Char) : Bool :=
  match afterCaseless? "final answer".toList (line.dropWhile isDecoration) with
  | none => false
  | some rest =>
    let rest := rest.dropWhile fun c => c = '*' || c = '_'
    (rest.dropWhile fun c => c = ' ' || c = '\t').head? = some ':'

/-- What stands from a final answer that is stated here to the end of its line, with the line feed;
nothing is written for it. -/
def statedLine? : Recognizer (List Char) := fun s =>
  if statesFinalAnswer s then some ([], (s.dropWhile (· != '\n')).drop 1) else none

/-- The text without the lines that state a final answer, and without blanks at both ends. -/
def withoutFinalLines (s : List Char) : List Char :=
  trim (replaceLines statedLine? s)

/-- The text with the line that states the roots on top, in place of the lines that stated a final
answer before. Without roots the text stays. -/
def restate (text : String) (roots : List Root) : String :=
  if roots.isEmpty then text
  else
    let others := withoutFinalLines text.toList
    if others.isEmpty then finalLine roots
    else finalLine roots ++ "\n\n" ++ String.ofList others

end AnswerCheck.Answer
