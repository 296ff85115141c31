import AnswerCheck.Expr.Grammar
import AnswerCheck.Text.Quoted

/-! # From text to expression

One side of an equation is a text that the grammar derives as a whole. Before it is read, its
length, its open parentheses, its runs of signs and its powers are counted, so that reading never
nests deeply; afterwards the nesting of the expression itself is limited.
-/

set_option autoImplicit false

namespace AnswerCheck

open Text

/-! ## Limits -/

/-- Longest side, in bytes of UTF-8. -/
def maxBytes : Nat := 4096

/-- Most parentheses open at once. -/
def maxOpen : Nat := 64

/-- Most signs in a row. -/
def maxSignRun : Nat := 16

/-- Most powers in one side. -/
def maxPowers : Nat := 64

/-- Most levels of nesting in the expression. -/
def maxNesting : Nat := 256

/-- Levels that reading can need: one for each open parenthesis, one for each power, and before each
of these, and before the last factor, a longest run of signs. -/
def maxReaderLevels : Nat := maxOpen + maxPowers + maxSignRun * (maxOpen + maxPowers + 1)

/-- Why a text is not a side of an equation, or not an equation. -/
inductive CompileError where
  | emptySide
  | notAnEquation (parts : Nat)
  /-- No token of the grammar can stand where this text starts. -/
  | malformed (rest : List Char)
  /-- The expression ends before this text. -/
  | unconsumed (rest : List Char)
  | tooDeep (depth : Nat)
  | tooLong (bytes : Nat)
deriving Repr, DecidableEq

def CompileError.message : CompileError → String
  | emptySide => "empty expression"
  | notAnEquation parts => "expected exactly one '=', found " ++ toString parts ++ " parts"
  | malformed rest =>
    "parse error: Parsing Error: Error \x7b input: " ++ String.ofList (quote rest) ++
      ", code: Char \x7d"
  | unconsumed rest => "unconsumed input: " ++ String.ofList rest
  | tooDeep depth => "expression nested too deeply (" ++ toString depth ++ ")"
  | tooLong bytes => "expression too long (" ++ toString bytes ++ " bytes)"

/-! ## Counting -/

def byteCount (s : List Char) : Nat :=
  s.foldl (fun n c => n + c.utf8Size) 0

/-- Most parentheses open at once, when `opened` are open at the start; a closing one without an
opening one counts for nothing. -/
def mostOpen (opened : Nat) : List Char → Nat
  | [] => opened
  | '(' :: s => mostOpen (opened + 1) s
  | ')' :: s => max opened (mostOpen (opened - 1) s)
  | _ :: s => mostOpen opened s

/-- Longest run of signs, when `signs` stand in a row at the start. Blanks do not break a run. -/
def longestSignRun (signs : Nat) : List Char → Nat
  | [] => signs
  | c :: s =>
    if c = '+' || c = '-' then longestSignRun (signs + 1) s
    else if isBlank c then longestSignRun signs s
    else max signs (longestSignRun 0 s)

/-- The limit that a side breaks, if it breaks one; a run of signs is given up at its first excess
sign. -/
def brokenLimit? (s : List Char) : Option CompileError :=
  if maxBytes < byteCount s then some (.tooLong (byteCount s))
  else if maxSignRun < longestSignRun 0 s then some (.tooDeep (maxSignRun + 1))
  else if maxOpen < mostOpen 0 s then some (.tooDeep (mostOpen 0 s))
  else if maxPowers < s.count '^' then some (.tooDeep (s.count '^'))
  else none

/-! ## Compiling -/

/-- Reads the typographic dashes as minus signs. -/
def plainMinus (c : Char) : Char :=
  if c = '\u2212' || c = '\u2013' || c = '\u2014' || c = '\u2012' then '-' else c

/-- The text of a side as it is read: with plain minus signs and without blanks around it. -/
def sideText (s : List Char) : List Char :=
  trim (s.map plainMinus)

def Expr.ofText (s : List Char) : Except CompileError Expr :=
  let side := sideText s
  if side.isEmpty then .error .emptySide
  else
    match brokenLimit? side with
    | some e => .error e
    | none =>
      match (Grammar.level maxReaderLevels).sum side with
      | .error (.stuck rest) => .error (.malformed rest)
      | .error .tooDeep => .error (.tooDeep maxReaderLevels)
      | .ok parsed =>
        let rest := trim parsed.rest
        if !rest.isEmpty then .error (.unconsumed rest)
        else if maxNesting < parsed.expr.nesting then .error (.tooDeep parsed.expr.nesting)
        else .ok parsed.expr

end AnswerCheck
