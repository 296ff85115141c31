import AnswerCheck.Text.Letter
import AnswerCheck.Text.Recognizer

/-! # The equation that an answer states

A line labelled `Normalized Equation:` states the equation, whatever it holds. Without one, the
first line with an equals sign is taken that has nothing but plain mathematics up to a square root.
-/

set_option autoImplicit false

namespace AnswerCheck.Answer

open Text

/-- A mark of emphasis that may surround a label. -/
def isMark (c : Char) : Bool :=
  c = '*' || c = '_'

/-! ## Labelled equations -/

/-- What a label announces: the rest of the first line that is not blank. If there is none, a last
underscore before the line end is what remains to be announced. -/
def announced? (s : List Char) : Option (List Char) :=
  match (s.dropWhile isMark).dropWhile isBlank with
  | c :: rest => some (c :: rest.takeWhile (· != '\n'))
  | [] =>
    if (s.dropWhile isMark).all (· = '\n') && (s.takeWhile isMark).getLast? = some '_' then
      some ['_']
    else none

/-- The label of an equation with what it announces. Marks may stand on both sides of its colon. -/
def label? : Recognizer (Option (List Char)) := fun s => do
  let s ← afterCaseless? "normalized equation".toList s
  match s.dropWhile isMark with
  | ':' :: rest => some (announced? rest, rest)
  | _ => none

/-- The equation behind the first label, without blanks, stars and code marks around it. -/
def labelled? (s : List Char) : Option (List Char) := do
  let (_, announced, _) ← findFirst? label? s
  let equation := trimWhile (fun c => isBlank c || c = '*' || c = '\x60') (← announced)
  if equation.isEmpty then none else some equation

/-! ## Equations without a label -/

/-- A call of the square root; the name may be in capitals. -/
def rootCall? : Recognizer Unit := fun s => do
  match (← afterCaseless? "sqrt".toList s).dropWhile isBlank with
  | '(' :: rest => some ((), rest)
  | _ => none

def isQuote (c : Char) : Bool :=
  c = '\x60' || c = '\x27' || c = '\x22' || c = '\u201c' || c = '\u201d'

def isPunctuation (c : Char) : Bool :=
  c = '.' || c = ';' || c = ':' || c = ','

def isPlain (c : Char) : Bool :=
  c.isDigit || isBlank c || "xX+-*/^().=".toList.contains c

/-- The equation of a line: without quotation marks and final punctuation, with the variable in
lower case. -/
def ofLine? (line : List Char) : Option (List Char) := do
  if line.contains '=' && (line.contains 'x' || (findFirst? rootCall? line).isSome) then
    let cleaned := dropEndWhile isPunctuation (line.filter (!isQuote ·))
    let (before, _) ← findFirst? rootCall? cleaned
    -- Only what stands before the first root has to be plain.
    if before.all isPlain then some (cleaned.map fun c => if c = 'X' then 'x' else c) else none
  else none

def equation? (s : List Char) : Option (List Char) :=
  (labelled? s).or ((lines s).findSome? fun line => ofLine? (trim line))

end AnswerCheck.Answer
