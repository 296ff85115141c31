import AnswerCheck.Text.Recognizer

/-! # Absolute values and square roots

Absolute-value bars become calls of `abs`, innermost bars first. A square root gets parentheses
around its radicand where it has none: the radicand is then the run of letters, digits and points
after `sqrt`, together with the parenthesis that follows it, if that is closed.
-/

set_option autoImplicit false

namespace AnswerCheck.Spelling

open Text

/-! ## Absolute-value bars -/

/-- A pair of bars on one line with something between them, written as a call. -/
def barred? : Recognizer (List Char)
  | '|' :: s =>
    match run? (fun c => c != '|' && c != '\n') s with
    | some (inside, '|' :: rest) => some ("abs(".toList ++ inside ++ [')'], rest)
    | _ => none
  | _ => none

/-- Writes all pairs of bars as calls. Every round that changes the text takes bars away. -/
def spellBars (s : List Char) : List Char :=
  settle (·.count '|') (replaceAll barred?) s

/-! ## Blanks in square roots -/

/-- A call of the square root, written without blanks before the parenthesis and at the ends of what
it holds. -/
def looseRoot? : Recognizer (List Char) := fun s => do
  let s ← after? "sqrt".toList s
  match s.dropWhile isBlank with
  | '(' :: inside =>
    match run? (· != ')') inside with
    | some (radicand, ')' :: rest) => some ("sqrt(".toList ++ trim radicand ++ [')'], rest)
    | _ => none
  | _ => none

def tidyRoots (s : List Char) : List Char :=
  replaceAll looseRoot? s

/-! ## Bare radicands -/

/-- A character of a radicand without parentheses. -/
def inBareRadicand (c : Char) : Bool :=
  c.isAlphanum || c = '.'

/-- The text up to and with the parenthesis that closes the outermost open one, and the text after
it, when `opened + 1` parentheses are open. -/
def closing? (opened : Nat) : Recognizer (List Char)
  | [] => none
  | c :: s =>
    if c = ')' then
      match opened with
      | 0 => some ([c], s)
      | opened + 1 => (closing? opened s).map fun (inside, rest) => (c :: inside, rest)
    else
      (closing? (if c = '(' then opened + 1 else opened) s).map
        fun (inside, rest) => (c :: inside, rest)

/-- A parenthesis with all it holds. -/
def parenthesis? : Recognizer (List Char)
  | '(' :: s => (closing? 0 s).map fun (inside, rest) => ('(' :: inside, rest)
  | _ => none

/-- The text after `sqrt`, with parentheses around a bare radicand at its start. -/
def wrapRadicand (s : List Char) : List Char :=
  match run? inBareRadicand (s.dropWhile isInlineBlank) with
  | none => s
  | some (run, rest) =>
    match parenthesis? rest with
    | some (arguments, rest) => '(' :: run ++ arguments ++ ')' :: rest
    | none => '(' :: run ++ ')' :: rest

/-- Puts parentheses around all bare radicands. What stands after a root is wrapped before the root
itself, so that roots of roots come out nested. -/
def wrapRadicands : List Char → List Char
  | [] => []
  | 's' :: 'q' :: 'r' :: 't' :: s => 's' :: 'q' :: 'r' :: 't' :: wrapRadicand (wrapRadicands s)
  | c :: s => c :: wrapRadicands s

end AnswerCheck.Spelling
