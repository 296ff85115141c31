import AnswerCheck.Spelling.Calls
import AnswerCheck.Spelling.Commands
import AnswerCheck.Spelling.Delimiters
import AnswerCheck.Spelling.Numbers
import AnswerCheck.Spelling.Symbols

/-! # One ASCII spelling for formulas in prose

A pass removes math delimiters, respells typesetting commands, mathematical characters, bars, roots,
superscripts, powers and numbers, and last the blanks. A late stage can expose work for an early
one, so passes are repeated until the text stays the same, a fixed number of times at most.
-/

set_option autoImplicit false

namespace AnswerCheck.Spelling

open Text

/-! ## Blanks -/

/-- A run of blanks on one line, written as one space. -/
def blankRun? : Recognizer (List Char) := fun s =>
  (run? isInlineBlank s).map fun (_, rest) => ([' '], rest)

/-- A space at the end of a line, with the line feed, written without the space. -/
def spaceAtEnd? : Recognizer (List Char)
  | ' ' :: '\n' :: rest => some (['\n'], rest)
  | _ => none

/-- Runs of blanks become one space, spaces before a line feed go, and so do blanks at both ends. -/
def tidyBlanks (s : List Char) : List Char :=
  trim (replaceAll spaceAtEnd? (replaceAll blankRun? s))

/-! ## Passes -/

/-- Most passes that are made. -/
def maxPasses : Nat := 16

/-- All stages, once. -/
def pass (s : List Char) : List Char :=
  tidyBlanks (tidyScientific (replaceStars (replaceSuperscripts (wrapRadicands (tidyRoots
    (spellBars (replaceSymbols (spellCommands (stripDelimiters s)))))))))

/-- The text in ASCII spelling. -/
def asciiText (s : List Char) : List Char :=
  if s.isEmpty then [] else settleWithin pass (maxPasses - 1) (pass s)

def toAscii (text : String) : String :=
  String.ofList (asciiText text.toList)

end AnswerCheck.Spelling
