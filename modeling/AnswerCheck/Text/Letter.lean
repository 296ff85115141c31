import AnswerCheck.Text.Recognizer

/-! # Letters without case

How a text is compared with an ASCII word when case is ignored, and the lower case of a text as far
as an ASCII pattern can see it.
-/

set_option autoImplicit false

namespace AnswerCheck.Text

/-- The lower-case ASCII letter that `c` stands for when case is ignored. Besides `A` to `Z` these
are the long s and the Kelvin sign; every other character stands for itself. -/
def foldCase (c : Char) : Char :=
  if c = '\u017f' then 's' else if c = '\u212a' then 'k' else c.toLower

/-- The text after `word`, when the text starts with it up to case. `word` is in lower case. -/
def afterCaseless? : List Char → List Char → Option (List Char)
  | [], s => some s
  | _ :: _, [] => none
  | w :: word, c :: s => if foldCase c = w then afterCaseless? word s else none

/-- Lower case of one character, where it has characters that a pattern of this library can tell
apart from it: the ASCII letters, capital Pi, and two capitals that are no word characters while
their small letters are. All other characters stay. -/
def lowerChar (c : Char) : List Char :=
  if c = '\u0130' then ['i', '\u0307']
  else if c = '\u212a' then ['k']
  else if c = 'Π' then ['π']
  else if c = '\ua7d2' then ['\ua7d3']
  else if c = '\ua7d4' then ['\ua7d5']
  else [c.toLower]

/-- Lower case, as far as the patterns of this library can tell. -/
def lower (s : List Char) : List Char :=
  s.flatMap lowerChar

end AnswerCheck.Text
