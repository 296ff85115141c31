/-! # White space

The characters with the white-space property, trimming, and the two ways to cut a text at blanks:
into lines and into words. Texts are lists of characters, so that every pass over them is a
recursion on the list.
-/

set_option autoImplicit false

namespace AnswerCheck.Text

/-- White space: the characters that carry the property of that name. -/
def isBlank (c : Char) : Bool :=
  let n := c.toNat
  (9 ≤ n && n ≤ 13) || n == 0x20 || n == 0x85 || n == 0xA0 || n == 0x1680 ||
    (0x2000 ≤ n && n ≤ 0x200A) || n == 0x2028 || n == 0x2029 || n == 0x202F ||
    n == 0x205F || n == 0x3000

/-- White space that does not end a line: every blank but line feed and carriage return. -/
def isInlineBlank (c : Char) : Bool :=
  isBlank c && c != '\n' && c != '\r'

/-! ## Trimming -/

/-- The text without the longest run of `p` at its end. -/
def dropEndWhile (p : Char → Bool) (s : List Char) : List Char :=
  (s.reverse.dropWhile p).reverse

/-- The text without the runs of `p` at both ends. -/
def trimWhile (p : Char → Bool) (s : List Char) : List Char :=
  dropEndWhile p (s.dropWhile p)

/-- The text without white space at both ends. -/
def trim (s : List Char) : List Char :=
  trimWhile isBlank s

/-! ## Lines and words -/

/-- The pieces between line feeds. -/
def lines (s : List Char) : List (List Char) :=
  s.splitOn '\n'

/-- Number of words, a word being a longest run of characters that are not blank. `inWord` tells
whether the character before the text belongs to a word. -/
def countWords (inWord : Bool) : List Char → Nat
  | [] => 0
  | c :: s =>
    if isBlank c then countWords false s
    else if inWord then countWords true s
    else countWords true s + 1

end AnswerCheck.Text
