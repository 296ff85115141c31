import AnswerCheck.Text.Recognizer

/-! # Math delimiters

Formulas in running text stand between dollar signs, between pairs of dollar signs, or between `\(`
and `\)` or `\[` and `\]`. The delimiters go and the formulas stay. Taking a pair away can bring
another one together, so this is repeated until no pair is left.
-/

set_option autoImplicit false

namespace AnswerCheck.Spelling

open Text

/-- The text up to the first pair of dollar signs, and the text after the pair. -/
def upToPair? : List Char → Option (List Char × List Char)
  | [] => none
  | '$' :: '$' :: rest => some ([], rest)
  | c :: s => (upToPair? s).map fun (inside, rest) => (c :: inside, rest)

/-- A formula between two pairs of dollar signs, as short as possible. -/
def displayed? : Recognizer (List Char)
  | '$' :: '$' :: s => upToPair? s
  | _ => none

/-- A formula between two dollar signs; it is not empty. -/
def inlined? : Recognizer (List Char)
  | '$' :: s =>
    match run? (· != '$') s with
    | some (inside, '$' :: rest) => some (inside, rest)
    | _ => none
  | _ => none

/-- A backslash with a bracket or parenthesis, for which nothing is written. -/
def bracket? : Recognizer (List Char)
  | '\\' :: c :: rest =>
    if c = '[' || c = ']' || c = '(' || c = ')' then some ([], rest) else none
  | _ => none

/-- Removes the pairs that can be seen at once. -/
def stripRound (s : List Char) : List Char :=
  replaceAll bracket? (replaceAll inlined? (replaceAll displayed? s))

/-- Removes all math delimiters. Every round that changes the text makes it shorter. -/
def stripDelimiters (s : List Char) : List Char :=
  settle List.length stripRound s

end AnswerCheck.Spelling
