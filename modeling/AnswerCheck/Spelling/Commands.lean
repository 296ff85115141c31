import AnswerCheck.Text.Recognizer
import AnswerCheck.Text.Word

/-! # Typesetting commands

Fractions and radicals are written with operators, innermost first, until none with brace-free
arguments is left. Commands for the size of a delimiter leave the delimiter alone, and the commands
for operators, relations and constants become their ASCII spelling.
-/

set_option autoImplicit false

namespace AnswerCheck.Spelling

open Text

/-! ## Fractions and radicals -/

/-- Blanks or none, and an argument between braces that is not empty and has no braces inside. -/
def argument? : Recognizer (List Char) := fun s =>
  match s.dropWhile isBlank with
  | '\x7b' :: inside =>
    match run? (fun c => c != '\x7b' && c != '\x7d') inside with
    | some (argument, '\x7d' :: rest) => some (argument, rest)
    | _ => none
  | _ => none

/-- A fraction, written as a quotient of two parenthesized terms. -/
def fraction? : Recognizer (List Char) := fun s => do
  let s ← after? "\\frac".toList s
  let (numerator, s) ← argument? s
  let (denominator, s) ← argument? s
  some ('(' :: numerator ++ [')', '/', '('] ++ denominator ++ [')'], s)

/-- A radical, written as a call of the square root. -/
def radical? : Recognizer (List Char) := fun s => do
  let s ← after? "\\sqrt".toList s
  let (radicand, s) ← argument? s
  some ("sqrt(".toList ++ radicand ++ [')'], s)

/-- Spells the fractions and then the radicals that have brace-free arguments. -/
def argumentRound (s : List Char) : List Char :=
  replaceAll radical? (replaceAll fraction? s)

/-- Spells fractions and radicals nested to any depth. Every round that changes the text makes it
shorter. -/
def spellArguments (s : List Char) : List Char :=
  settle List.length argumentRound s

/-! ## Sized delimiters -/

/-- The text after the command for the size of a left or right delimiter. -/
def afterSize? (s : List Char) : Option (List Char) :=
  (after? "\\left".toList s).or (after? "\\right".toList s)

/-- A delimiter with its size command, written without it. -/
def sized? : Recognizer (List Char) := fun s => do
  match (← afterSize? s).dropWhile isBlank with
  | c :: rest =>
    if c = '(' || c = ')' || c = '[' || c = ']' || c = '|' then some ([c], rest) else none
  | [] => none

/-- The size command of a delimiter that is not shown, for which nothing is written. -/
def hidden? : Recognizer (List Char) := fun s => do
  match ← afterSize? s with
  | '.' :: rest => some ([], rest)
  | _ => none

/-! ## Operators, relations and constants -/

/-- The first command of the table that starts the text and after which `ends` holds. -/
def command? (table : List (String × String)) (ends : List Char → Bool) : Recognizer (List Char) :=
  fun s => table.findSome? fun (name, spelling) =>
    match after? ('\\' :: name.toList) s with
    | some rest => if ends rest then some (spelling.toList, rest) else none
    | none => none

/-- Commands for operators; a letter may follow at once. -/
def operatorTable : List (String × String) :=
  [("cdot", "*"), ("times", "*"), ("div", "/")]

/-- Commands that end where their word ends. -/
def symbolTable : List (String × String) :=
  [("pi", "pi"), ("pm", "+/-"), ("mp", "-/+"), ("leq", "<="), ("le", "<="), ("geq", ">="),
    ("ge", ">="), ("neq", "!="), ("ne", "!="), ("infty", "infinity")]

def operator? : Recognizer (List Char) :=
  command? operatorTable fun _ => true

/-- A command for a relation or a constant, up to the end of its word. -/
def symbol? : Recognizer (List Char) :=
  command? symbolTable fun rest => !isWordAt rest.head?

/-- Spells all commands that have an ASCII spelling; the others stay. -/
def spellCommands (s : List Char) : List Char :=
  replaceAll symbol? (replaceAll operator? (replaceAll hidden? (replaceAll sized?
    (spellArguments s))))

end AnswerCheck.Spelling
