import AnswerCheck.Text.Blank

/-! # Reading and replacing pieces of a text

A recognizer looks at the start of a text. On success it gives what it read and the text that
follows; it looks at nothing before. `replaceAll` and `findAll` apply a recognizer at every place of
a text from left to right, each match starting where the one before it ended, and `replaceLines` at
the starts of its lines; `settle` repeats a step until the text stays the same.
-/

set_option autoImplicit false

namespace AnswerCheck.Text

/-- What can be read at the start of a text, with the text that follows. -/
abbrev Recognizer (β : Type) := List Char → Option (β × List Char)

/-- The text after `word`, when the text starts with it. -/
def after? (word s : List Char) : Option (List Char) :=
  word.isPrefixOf? s

/-- A non-empty longest run of `p`. -/
def run? (p : Char → Bool) : Recognizer (List Char)
  | [] => none
  | c :: s => if p c then some (c :: s.takeWhile p, s.dropWhile p) else none

/-! ## Everywhere in a text -/

/-- Replaces every match of `rule` after the first `skip` characters, which are dropped: they belong
to the match before. -/
def replaceFrom (rule : Recognizer (List Char)) : Nat → List Char → List Char
  | _, [] => []
  | skip + 1, _ :: s => replaceFrom rule skip s
  | 0, c :: s =>
    match rule (c :: s) with
    -- The recursion goes on with the tail, so that what the match took is skipped there.
    | some (out, rest) => out ++ replaceFrom rule (s.length - rest.length) s
    | none => c :: replaceFrom rule 0 s

/-- Replaces every match of `rule`, from left to right and without overlap. -/
def replaceAll (rule : Recognizer (List Char)) (s : List Char) : List Char :=
  replaceFrom rule 0 s

/-- Replaces every match of `rule` that starts where a line does, after the first `skip` characters,
which belong to the match before. `starts` tells whether the text starts a line. -/
def replaceLinesFrom (rule : Recognizer (List Char)) : Bool → Nat → List Char → List Char
  | _, _, [] => []
  | _, skip + 1, c :: s => replaceLinesFrom rule (c = '\n') skip s
  | starts, 0, c :: s =>
    match if starts then rule (c :: s) else none with
    | some (out, rest) => out ++ replaceLinesFrom rule (c = '\n') (s.length - rest.length) s
    | none => c :: replaceLinesFrom rule (c = '\n') 0 s

/-- Replaces every match of `rule` that starts where a line does, from left to right and without
overlap. -/
def replaceLines (rule : Recognizer (List Char)) (s : List Char) : List Char :=
  replaceLinesFrom rule true 0 s

/-- Every match of `r` after the first `skip` characters, which belong to the match before. -/
def findFrom {β : Type} (r : Recognizer β) : Nat → List Char → List β
  | _, [] => []
  | skip + 1, _ :: s => findFrom r skip s
  | 0, c :: s =>
    match r (c :: s) with
    | some (found, rest) => found :: findFrom r (s.length - rest.length) s
    | none => findFrom r 0 s

/-- Every match of `r`, from left to right and without overlap. -/
def findAll {β : Type} (r : Recognizer β) (s : List Char) : List β :=
  findFrom r 0 s

/-- The first match of `r` in a text, with the text before it and the text after it. -/
def findFirst? {β : Type} (r : Recognizer β) : List Char → Option (List Char × β × List Char)
  | [] => none
  | c :: s =>
    match r (c :: s) with
    | some (found, rest) => some ([], found, rest)
    | none => (findFirst? r s).map fun m => (c :: m.1, m.2)

/-! ## Until nothing changes -/

/-- Applies `step` at most `rounds` times and stops where it changes nothing. -/
def settleWithin (step : List Char → List Char) : Nat → List Char → List Char
  | 0, s => s
  | rounds + 1, s =>
    let next := step s
    if next = s then s else settleWithin step rounds next

/-- Repeats `step` until it changes nothing. `size` is a bound on the rounds: it has to shrink
whenever `step` changes the text. -/
def settle (size : List Char → Nat) (step : List Char → List Char) (s : List Char) : List Char :=
  settleWithin step (size s) s

end AnswerCheck.Text
