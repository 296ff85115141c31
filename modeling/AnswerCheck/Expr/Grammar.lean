import AnswerCheck.Decimal.Numeral
import AnswerCheck.Expr.Basic

/-! # Reading expressions

    sum      := product (('+' | '-') product)*
    product  := signed (('*' | '/') signed | power)*
    signed   := ('-' | '+') signed | power
    power    := factor ('^' exponent)?
    exponent := ('-' | '+') exponent | power
    factor   := number | 'x' | 'pi' | ('sqrt' | 'abs') '(' sum ')' | '(' sum ')'

A factor may follow another without an operator: `x` or `(` after a number, `(` after `x`, and `(`,
`x` or a digit after `)`. Sums and products group to the left, powers to the right, and a sign binds
less tightly than a power. Blanks may stand between tokens.

The grammar enters itself in three places: a sum between parentheses, an exponent after `^`, and an
operand after a sign. Each such step takes one level, and a reader has a fixed number of levels, so
the readers of one level are plain functions of the readers one level below.
-/

set_option autoImplicit false

namespace AnswerCheck.Grammar

open Text

/-- What a piece of an expression ends with; it decides which factor may follow without an
operator. -/
inductive Ending where
  | digit
  | var
  | closing
  | other
deriving Repr, DecidableEq

/-- An expression that was read, what it ends with, and the text after it. -/
structure Parsed where
  expr : Expr
  ending : Ending
  rest : List Char

inductive Failure where
  /-- The text from here on starts with none of the tokens that could stand there. -/
  | stuck (rest : List Char)
  /-- All levels were used. -/
  | tooDeep
deriving Repr, DecidableEq

/-- Reads an expression at the start of a text. -/
abbrev Reader := List Char → Except Failure Parsed

/-! ## Tokens -/

/-- The blanks that may stand between tokens. -/
def isSpace (c : Char) : Bool :=
  c = ' ' || c = '\t' || c = '\r' || c = '\n'

def skipSpaces (s : List Char) : List Char :=
  s.dropWhile isSpace

def startsName (c : Char) : Bool :=
  c.isAlpha || c = '_'

def continuesName (c : Char) : Bool :=
  c.isAlphanum || c = '_'

/-- A name; empty if the text does not start with one. -/
def readName (s : List Char) : List Char × List Char :=
  match s with
  | [] => ([], [])
  | c :: rest =>
    if startsName c then (c :: rest.takeWhile continuesName, rest.dropWhile continuesName)
    else ([], s)

/-- Whether a factor may follow without an operator, given its first character. -/
def mayFollow (ending : Ending) (next : Option Char) : Bool :=
  match ending, next with
  | .digit, some c => c = 'x' || c = '('
  | .var, some c => c = '('
  | .closing, some c => c = '(' || c = 'x' || c.isDigit
  | _, _ => false

/-! ## Failures -/

/-- A reader's result, with its failures other than the lack of levels moved to `place`. -/
def failAt (place : List Char) (result : Except Failure Parsed) : Except Failure Parsed :=
  match result with
  | .error (.stuck _) => .error (.stuck place)
  | other => other

/-- The readers that the grammar enters again. -/
structure Level where
  sum : Reader
  exponent : Reader
  signed : Reader

/-! ## The readers of one level -/

/-- The rest of a parenthesis after `(`: a sum and `)`. -/
def group (below : Level) (s : List Char) : Except Failure Parsed := do
  let inner ← below.sum s
  match skipSpaces inner.rest with
  | ')' :: rest => .ok ⟨inner.expr, .closing, rest⟩
  | rest => .error (.stuck rest)

/-- A factor that starts with a name. -/
def named (below : Level) (s : List Char) : Except Failure Parsed :=
  let (name, rest) := readName s
  if name = ['x'] then .ok ⟨.var, .var, rest⟩
  else if name = ['p', 'i'] then .ok ⟨.pi, .other, rest⟩
  else
    match Function.ofName? name, skipSpaces rest with
    | some f, '(' :: inside => do
      let argument ← group below inside
      .ok { argument with expr := .call f argument.expr }
    | _, _ => .error (.stuck s)

/-- A factor. When a call cannot be read to its end, the failure is the whole call's. -/
def factor (below : Level) (s : List Char) : Except Failure Parsed :=
  let s := skipSpaces s
  match s with
  | '(' :: inside => group below inside
  | _ =>
    match Decimal.unsigned? s with
    | some (d, rest) => .ok ⟨.number d.toFloat, .digit, rest⟩
    | none => failAt s (named below s)

/-- A factor and its exponent, if there is one. -/
def power (below : Level) (s : List Char) : Except Failure Parsed := do
  let base ← factor below s
  match skipSpaces base.rest with
  | '^' :: rest =>
    let exponent ← below.exponent rest
    .ok { exponent with expr := .power base.expr exponent.expr }
  | _ => .ok base

/-- A power with signs in front. `operand` reads what stands after a sign. -/
def withSigns (below : Level) (operand : Reader) (s : List Char) : Except Failure Parsed :=
  let s := skipSpaces s
  match s with
  | '-' :: rest => do
    let negated ← failAt s (operand rest)
    .ok { negated with expr := .neg negated.expr }
  | '+' :: rest => failAt s (operand rest)
  | _ => power below s

/-- What stands after `^`. -/
def exponent (below : Level) : Reader :=
  withSigns below below.exponent

/-- An operand of `*` and `/`. -/
def signed (below : Level) : Reader :=
  withSigns below below.signed

/-- The operators and factors that continue a product; each takes at least one character, so as many
steps as there are characters are enough. -/
def productTail (below : Level) : Nat → Parsed → Except Failure Parsed
  | 0, product => .ok product
  | steps + 1, product =>
    let extend (op : Operator) (factor : Parsed) : Except Failure Parsed :=
      productTail below steps { factor with expr := .arith op product.expr factor.expr }
    match skipSpaces product.rest with
    | '*' :: rest => do extend .mul (← signed below rest)
    | '/' :: rest => do extend .div (← signed below rest)
    | _ =>
      -- Looking ahead passes over every kind of blank, reading only over those between tokens.
      if mayFollow product.ending (product.rest.dropWhile isBlank).head? then
        match power below product.rest with
        | .ok factor => extend .mul factor
        | .error (.stuck _) => .ok product
        | .error .tooDeep => .error .tooDeep
      else .ok product

def product (below : Level) (s : List Char) : Except Failure Parsed := do
  let first ← signed below s
  productTail below first.rest.length first

/-- The operators and products that continue a sum. An operator without a product after it does not
belong to the sum. -/
def sumTail (below : Level) : Nat → Parsed → Except Failure Parsed
  | 0, sum => .ok sum
  | steps + 1, sum =>
    let extend (op : Operator) (rest : List Char) : Except Failure Parsed :=
      match product below rest with
      | .ok term => sumTail below steps { term with expr := .arith op sum.expr term.expr }
      | .error (.stuck _) => .ok sum
      | .error .tooDeep => .error .tooDeep
    match skipSpaces sum.rest with
    | '+' :: rest => extend .add rest
    | '-' :: rest => extend .sub rest
    | _ => .ok sum

def sum (below : Level) (s : List Char) : Except Failure Parsed := do
  let first ← product below s
  sumTail below first.rest.length first

/-! ## Levels -/

/-- The readers of the level above. -/
def Level.above (below : Level) : Level where
  sum := AnswerCheck.Grammar.sum below
  exponent := AnswerCheck.Grammar.exponent below
  signed := AnswerCheck.Grammar.signed below

def Level.none : Level where
  sum _ := .error .tooDeep
  exponent _ := .error .tooDeep
  signed _ := .error .tooDeep

/-- The readers that may enter the grammar again `n` times, one inside the other. -/
def level : Nat → Level
  | 0 => Level.none.above
  | n + 1 => (level n).above

end AnswerCheck.Grammar
