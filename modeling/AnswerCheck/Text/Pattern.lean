import AnswerCheck.Text.Letter
import AnswerCheck.Text.Word

/-! # Patterns that a text may contain

A pattern describes pieces of a text by classes of characters, word edges and the end of the text.
Only classes repeat. `Pattern.occursIn` tells whether a piece of the text fits; matching hands the
place after the piece to a continuation, so that a pattern is tried in every way it can fit.
-/

set_option autoImplicit false

namespace AnswerCheck.Text

/-- A description of pieces of text. -/
inductive Pattern where
  /-- One character of a class. -/
  | one (accepts : Char → Bool)
  /-- Any number of characters of a class. -/
  | many (accepts : Char → Bool)
  /-- Nothing, at a place with a word character on exactly one side. -/
  | edge
  /-- Nothing, at the end of the text. -/
  | atEnd
  /-- Nothing, anywhere. -/
  | nothing
  /-- One piece and then another. -/
  | seq (first second : Pattern)
  /-- A piece of either kind. -/
  | either (left right : Pattern)

namespace Pattern

/-- What is asked of a place in a text: the character before it and the text after it. -/
abbrev Goal := Option Char → List Char → Bool

/-- Whether `goal` holds after some number of characters that `accepts` takes. -/
def reaches (accepts : Char → Bool) (goal : Goal) : Goal
  | before, [] => goal before []
  | before, c :: s => goal before (c :: s) || (accepts c && reaches accepts goal (some c) s)

/-- Whether some piece that fits the pattern starts here and `goal` holds after it. -/
def fits : Pattern → Goal → Goal
  | one accepts, goal => fun _ s =>
    match s with
    | [] => false
    | c :: rest => accepts c && goal (some c) rest
  | many accepts, goal => reaches accepts goal
  | edge, goal => fun before s => (isWordAt before != isWordAt s.head?) && goal before s
  | atEnd, goal => fun before s => s.isEmpty && goal before s
  | nothing, goal => goal
  | seq first second, goal => first.fits (second.fits goal)
  | either left right, goal => fun before s => left.fits goal before s || right.fits goal before s

/-- Whether a piece that fits the pattern starts at this place or further on. -/
def occursFrom (p : Pattern) (before : Option Char) : List Char → Bool
  | [] => p.fits (fun _ _ => true) before []
  | c :: s => p.fits (fun _ _ => true) before (c :: s) || p.occursFrom (some c) s

/-- Whether the text contains a piece that fits the pattern. -/
def occursIn (p : Pattern) (s : List Char) : Bool :=
  p.occursFrom none s

/-! ## Building patterns -/

/-- The pieces one after another. -/
def inOrder : List Pattern → Pattern
  | [] => nothing
  | [p] => p
  | p :: ps => seq p (inOrder ps)

/-- A piece of any of the kinds. There has to be one. -/
def anyOf (p : Pattern) : List Pattern → Pattern
  | [] => p
  | q :: qs => either p (anyOf q qs)

/-- The characters of a word, as they are. -/
def word (w : String) : Pattern :=
  inOrder (w.toList.map fun c => one (· == c))

/-- The characters of a word in lower case, read without case. -/
def wordCaseless (w : String) : Pattern :=
  inOrder (w.toList.map fun c => one (foldCase · == c))

def anyWord : List String → Pattern
  | [] => nothing
  | w :: ws => anyOf (word w) (ws.map word)

def oneOrMore (accepts : Char → Bool) : Pattern :=
  seq (one accepts) (many accepts)

/-- The character, or nothing. -/
def optional (c : Char) : Pattern :=
  either (one (· == c)) nothing

/-- The pattern between two word edges. -/
def whole (p : Pattern) : Pattern :=
  inOrder [edge, p, edge]

def oneOf (cs : String) : Pattern :=
  one (cs.toList.contains ·)

/-- Any number of blanks. -/
def blanks : Pattern := many isBlank

def someBlanks : Pattern := oneOrMore isBlank

/-- Any number of characters on one line. -/
def restOfLine : Pattern := many (· != '\n')

/-- Any number of characters. -/
def anything : Pattern := many fun _ => true

end Pattern

end AnswerCheck.Text
