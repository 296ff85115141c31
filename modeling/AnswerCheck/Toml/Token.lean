import AnswerCheck.Decimal.Numeral
import AnswerCheck.Toml.Value

/-! # Strings, numbers and dates of TOML documents

The parts of a document that hold no others: blanks, comments and line ends, strings of four kinds,
integers in four bases, floating-point numbers, and dates with times. A part that is not well formed
is not read.
-/

set_option autoImplicit false

namespace AnswerCheck.Toml

open Text

/-! ## Blanks, comments, line ends -/

def isSpace (c : Char) : Bool :=
  c = ' ' || c = '\t'

def skipSpaces (s : List Char) : List Char :=
  s.dropWhile isSpace

/-- A character that may stand in a comment or, quotes and backslashes apart, in a string. -/
def isVisible (c : Char) : Bool :=
  c = '\t' || (0x20 ≤ c.toNat && c.toNat != 0x7F)

def skipComment (s : List Char) : List Char :=
  match s with
  | '#' :: rest => rest.dropWhile isVisible
  | _ => s

/-- The text after a line end. -/
def afterNewline? : List Char → Option (List Char)
  | '\n' :: rest => some rest
  | '\r' :: '\n' :: rest => some rest
  | _ => none

/-- The text after blanks, a comment and the end of the line or of the document. -/
def afterLine? (s : List Char) : Option (List Char) :=
  match skipComment (skipSpaces s) with
  | [] => some []
  | rest => afterNewline? rest

/-- The text after blanks, comments and line ends, of which there may be as many as given. -/
def skipLines : Nat → List Char → List Char
  | 0, s => s
  | more + 1, s =>
    let s := skipSpaces s
    match afterNewline? (skipComment s) with
    | some rest => skipLines more rest
    | none => s

/-! ## Strings -/

/-- The character that hexadecimal digits denote. -/
def scalar? (ds : List Char) : Option Char :=
  let value (c : Char) : Option Nat :=
    if c.isDigit then some (c.toNat - '0'.toNat)
    else if 'a' ≤ c && c ≤ 'f' then some (c.toNat - 'a'.toNat + 10)
    else if 'A' ≤ c && c ≤ 'F' then some (c.toNat - 'A'.toNat + 10)
    else none
  do
    let n ← ds.foldlM (fun n c => (value c).map (16 * n + ·)) 0
    if n.isValidChar then some (Char.ofNat n) else none

/-- What a letter after a backslash stands for. -/
def escapeOf? : Char → Option Char
  | 'b' => some '\x08'
  | 'f' => some '\x0c'
  | 'n' => some '\n'
  | 'r' => some '\r'
  | 't' => some '\t'
  | '\x22' => some '\x22'
  | '\\' => some '\\'
  | _ => none

/-- A string up to its closing double quote. -/
def basicTail : Recognizer (List Char)
  | [] => none
  | '\x22' :: s => some ([], s)
  | '\\' :: 'u' :: a :: b :: c :: d :: s => do
    let e ← scalar? [a, b, c, d]
    let (content, rest) ← basicTail s
    some (e :: content, rest)
  | '\\' :: 'U' :: a :: b :: c :: d :: e :: f :: g :: h :: s => do
    let e ← scalar? [a, b, c, d, e, f, g, h]
    let (content, rest) ← basicTail s
    some (e :: content, rest)
  | '\\' :: c :: s => do
    let e ← escapeOf? c
    let (content, rest) ← basicTail s
    some (e :: content, rest)
  | c :: s =>
    if isVisible c && c != '\\' then
      (basicTail s).map fun (content, rest) => (c :: content, rest)
    else none

/-- A string over several lines up to its closing quotes. While `trimming`, after a backslash at the
end of a line, blanks and line ends are left out. -/
def basicLinesTail (trimming : Bool) : Recognizer (List Char)
  | [] => none
  -- Up to two quotes may stand right before the closing three.
  | '\x22' :: '\x22' :: '\x22' :: '\x22' :: '\x22' :: s => some (['\x22', '\x22'], s)
  | '\x22' :: '\x22' :: '\x22' :: '\x22' :: s => some (['\x22'], s)
  | '\x22' :: '\x22' :: '\x22' :: s => some ([], s)
  | '\r' :: '\n' :: s =>
    if trimming then basicLinesTail true s
    else (basicLinesTail false s).map fun (content, rest) => ('\n' :: content, rest)
  | '\\' :: 'u' :: a :: b :: c :: d :: s => do
    let e ← scalar? [a, b, c, d]
    let (content, rest) ← basicLinesTail false s
    some (e :: content, rest)
  | '\\' :: 'U' :: a :: b :: c :: d :: e :: f :: g :: h :: s => do
    let e ← scalar? [a, b, c, d, e, f, g, h]
    let (content, rest) ← basicLinesTail false s
    some (e :: content, rest)
  | '\\' :: c :: s =>
    if (afterNewline? (skipSpaces (c :: s))).isSome then basicLinesTail true (c :: s)
    else do
      let e ← escapeOf? c
      let (content, rest) ← basicLinesTail false s
      some (e :: content, rest)
  | c :: s =>
    if trimming && (isSpace c || c = '\n') then basicLinesTail true s
    else if (isVisible c || c = '\n') && c != '\\' then
      (basicLinesTail false s).map fun (content, rest) => (c :: content, rest)
    else none

/-- A literal string up to its closing apostrophe. -/
def literalTail : Recognizer (List Char)
  | [] => none
  | '\x27' :: s => some ([], s)
  | c :: s =>
    if isVisible c then (literalTail s).map fun (content, rest) => (c :: content, rest) else none

/-- A literal string over several lines up to its closing apostrophes. -/
def literalLinesTail : Recognizer (List Char)
  | [] => none
  | '\x27' :: '\x27' :: '\x27' :: '\x27' :: '\x27' :: s => some (['\x27', '\x27'], s)
  | '\x27' :: '\x27' :: '\x27' :: '\x27' :: s => some (['\x27'], s)
  | '\x27' :: '\x27' :: '\x27' :: s => some ([], s)
  | '\r' :: '\n' :: s => (literalLinesTail s).map fun (content, rest) => ('\n' :: content, rest)
  | c :: s =>
    if isVisible c || c = '\n' then
      (literalLinesTail s).map fun (content, rest) => (c :: content, rest)
    else none

/-- A string on one line. -/
def lineString? : Recognizer (List Char)
  | '\x22' :: s => basicTail s
  | '\x27' :: s => literalTail s
  | _ => none

/-- A string of any kind. A line end right after three opening quotes is left out. -/
def string? : Recognizer (List Char)
  | '\x22' :: '\x22' :: '\x22' :: s => basicLinesTail false ((afterNewline? s).getD s)
  | '\x27' :: '\x27' :: '\x27' :: s => literalLinesTail ((afterNewline? s).getD s)
  | s => lineString? s

/-! ## Numbers -/

/-- Digits after the first one; single underscores may stand between digits. -/
def moreDigits (isDigit : Char → Bool) : List Char → List Char × List Char
  | [] => ([], [])
  | [c] => if isDigit c then ([c], []) else ([], [c])
  | c :: d :: s =>
    if isDigit c then
      let (ds, rest) := moreDigits isDigit (d :: s)
      (c :: ds, rest)
    else if c = '_' && isDigit d then
      let (ds, rest) := moreDigits isDigit s
      (d :: ds, rest)
    else ([], c :: d :: s)

/-- A run of digits, in which underscores may stand between digits. -/
def digits? (isDigit : Char → Bool) : Recognizer (List Char)
  | [] => none
  | c :: s =>
    if isDigit c then
      let (ds, rest) := moreDigits isDigit s
      some (c :: ds, rest)
    else none

/-- The digits of a decimal integer, which starts with a zero only if it is zero. -/
def decimalDigits? : Recognizer (List Char)
  | '0' :: s => some (['0'], s)
  | s => digits? Char.isDigit s

/-- Integers lie in 64 bits. -/
def inRange (n : Int) : Bool :=
  -0x8000000000000000 ≤ n && n < 0x8000000000000000

/-- The number that digits denote in a base. -/
def valueIn (base : Nat) (ds : List Char) : Nat :=
  ds.foldl
    (fun n c =>
      base * n + if c.isDigit then c.toNat - '0'.toNat else c.toLower.toNat - 'a'.toNat + 10)
    0

def isHexDigit (c : Char) : Bool :=
  c.isDigit || ('a' ≤ c && c ≤ 'f') || ('A' ≤ c && c ≤ 'F')

/-- An unsigned integer with the mark of its base in front. -/
def basedInteger? : Recognizer Int := fun s => do
  let (base, isDigit, s) ←
    match s with
    | '0' :: 'x' :: s => some (16, isHexDigit, s)
    | '0' :: 'o' :: s => some (8, fun c : Char => '0' ≤ c && c ≤ '7', s)
    | '0' :: 'b' :: s => some (2, fun c : Char => c = '0' || c = '1', s)
    | _ => none
  let (ds, rest) ← digits? isDigit s
  let n := (valueIn base ds : Int)
  if inRange n then some (n, rest) else none

/-- A decimal integer with a sign or none. -/
def decimalInteger? : Recognizer Int := fun s => do
  let (negative, s) := Decimal.sign s
  let (ds, rest) ← decimalDigits? s
  let n : Int := if negative then -(Decimal.valueOf ds : Int) else Decimal.valueOf ds
  if inRange n then some (n, rest) else none

/-- The power of ten after an exponent mark. -/
def power? : Recognizer Int
  | [] => none
  | mark :: s =>
    if mark = 'e' || mark = 'E' then do
      let (negative, s) := Decimal.sign s
      let (ds, rest) ← digits? Char.isDigit s
      some (if negative then -(Decimal.valueOf ds : Int) else Decimal.valueOf ds, rest)
    else none

/-- The digits of a fraction after its point. -/
def fraction? : Recognizer (List Char)
  | '.' :: s => digits? Char.isDigit s
  | _ => none

/-- A number with a fraction, an exponent, or both. One that is too large is no number; one that is
too far below zero is minus infinity. -/
def finite? : Recognizer Float := fun s => do
  let (negative, s) := Decimal.sign s
  let (whole, s) ← decimalDigits? s
  let (fraction, power, rest) ←
    match fraction? s with
    | some (fraction, s) =>
      let (power, rest) := (power? s).getD (0, s)
      some (fraction, power, rest)
    | none => (power? s).map fun (power, rest) => ([], power, rest)
  let x := Decimal.signedFloat negative (Decimal.ofParts whole fraction power)
  if x.isInf && !negative then none else some (x, rest)

/-- Infinity, or what is not a number, with a sign or none. -/
def special? : Recognizer Float := fun s =>
  let (negative, s) := Decimal.sign s
  let infinity : Float := 1.0 / 0.0
  match s with
  | 'i' :: 'n' :: 'f' :: rest => some (if negative then -infinity else infinity, rest)
  | 'n' :: 'a' :: 'n' :: rest => some (0.0 / 0.0, rest)
  | _ => none

/-! ## Dates and times -/

/-- A number of exactly `count` digits between two bounds. -/
def numberBetween? (count least most : Nat) : Recognizer Nat := fun s =>
  let ds := s.take count
  let n := Decimal.valueOf ds
  if ds.length = count && ds.all Char.isDigit && least ≤ n && n ≤ most then some (n, s.drop count)
  else none

def daysIn (year month : Nat) : Nat :=
  if month = 2 then
    if year % 4 = 0 && (year % 100 != 0 || year % 400 = 0) then 29 else 28
  else if month = 4 || month = 6 || month = 9 || month = 11 then 30
  else 31

/-- The text after a date. -/
def afterDate? (s : List Char) : Option (List Char) := do
  let (year, s) ← numberBetween? 4 0 9999 s
  let (month, s) ← numberBetween? 2 1 12 (← after? ['-'] s)
  let (_, s) ← numberBetween? 2 1 (daysIn year month) (← after? ['-'] s)
  some s

/-- The text after a time of day with seconds and perhaps a fraction of them. -/
def afterTime? (s : List Char) : Option (List Char) := do
  let (_, s) ← numberBetween? 2 0 23 s
  let (_, s) ← numberBetween? 2 0 59 (← after? [':'] s)
  let (_, s) ← numberBetween? 2 0 60 (← after? [':'] s)
  match s with
  | '.' :: fraction => (run? Char.isDigit fraction).map (·.2)
  | _ => some s

/-- The text after the distance from universal time, if one is given. -/
def afterOffset? (s : List Char) : Option (List Char) :=
  match s with
  | [] => some []
  | c :: rest =>
    if c = 'Z' || c = 'z' then some rest
    else if c = '+' || c = '-' then do
      let (_, s) ← numberBetween? 2 0 23 rest
      let (_, s) ← numberBetween? 2 0 59 (← after? [':'] s)
      some s
    else some s

/-- The text after a time and a distance from universal time, or after nothing. -/
def afterDayTime (s : List Char) : List Char :=
  match s with
  | c :: rest =>
    if c = 'T' || c = 't' || c = ' ' then
      match afterTime? rest with
      | some s' => (afterOffset? s').getD s
      | none => s
    else s
  | [] => []

/-- The text after a date, a time, or both. -/
def afterDateTime? (s : List Char) : Option (List Char) :=
  ((afterDate? s).map afterDayTime).or (afterTime? s)

end AnswerCheck.Toml
