import AnswerCheck.Text.Recognizer

/-! # Mathematical characters

Characters beyond ASCII that have an ASCII spelling in formulas, and superscripts, which become
powers of the letter, digit or bracket before them.
-/

set_option autoImplicit false

namespace AnswerCheck.Spelling

open Text

/-! ## Symbols -/

/-- The ASCII spelling of a mathematical character. -/
def symbolSpelling? (c : Char) : Option String :=
  match c with
  | '×' | '∙' | '•' => some "*"
  | '÷' => some "/"
  | '√' => some "sqrt"
  | 'π' => some "pi"
  | '\u2212' | '\u2013' | '\u2014' | '\u2012' => some "-"
  | '\u201c' | '\u201d' | '\u2033' => some "\""
  | '\u2018' | '\u2019' | '\u2032' => some "'"
  | '≤' => some "<="
  | '≥' => some ">="
  | '≠' => some "!="
  | '±' => some "+/-"
  | '∓' => some "-/+"
  | '∪' => some "U"
  | '∩' => some "n"
  | '∞' => some "infinity"
  | _ => none

/-- The ASCII spelling of a character, which is the character itself where there is no other. -/
def spellSymbol (c : Char) : List Char :=
  match symbolSpelling? c with
  | some spelling => spelling.toList
  | none => [c]

/-- Spells all mathematical characters in ASCII. -/
def replaceSymbols (s : List Char) : List Char :=
  s.flatMap spellSymbol

/-! ## Superscripts -/

/-- The digit or sign that a superscript character raises. -/
def superscriptSpelling? (c : Char) : Option Char :=
  match c with
  | '\u2070' => some '0'
  | '\u00b9' => some '1'
  | '\u00b2' => some '2'
  | '\u00b3' => some '3'
  | '\u2074' => some '4'
  | '\u2075' => some '5'
  | '\u2076' => some '6'
  | '\u2077' => some '7'
  | '\u2078' => some '8'
  | '\u2079' => some '9'
  | '\u207a' => some '+'
  | '\u207b' => some '-'
  | _ => none

def isSuperscript (c : Char) : Bool :=
  (superscriptSpelling? c).isSome

def carriesSuperscript (c : Char) : Bool :=
  c.isAlphanum || c = ')' || c = ']'

/-- A power with the exponent in parentheses unless it is a single character. -/
def powerText (base : Char) (exponent : List Char) : List Char :=
  match exponent with
  | [single] => [base, '^', single]
  | _ => base :: '^' :: '(' :: exponent ++ [')']

/-- A character with the superscripts after it, written as a power. -/
def superscripted? : Recognizer (List Char)
  | [] => none
  | base :: s =>
    if carriesSuperscript base then
      match run? isSuperscript s with
      | some (raised, rest) => some (powerText base (raised.filterMap superscriptSpelling?), rest)
      | none => none
    else none

/-- Writes all superscripts that have a base as powers. -/
def replaceSuperscripts (s : List Char) : List Char :=
  replaceAll superscripted? s

end AnswerCheck.Spelling
