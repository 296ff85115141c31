import AnswerCheck.Text.Recognizer

/-! # Command-line arguments

Arguments are options with a value, switches, and operands. An option takes its value after an
equals sign or from the next argument, switches of one letter can be run together, and after two
hyphens everything is an operand. Arguments are read from left to right: a request for help or for
the version ends the reading, and so does the first mistake. The switch `verbose` is taken
everywhere and changes no result.
-/

set_option autoImplicit false

namespace AnswerCheck.Command

/-- Why reading arguments ended before there was a command. -/
inductive Stop where
  | misuse
  | help
  | version
deriving Repr, DecidableEq

/-- What arguments a command takes. -/
structure Shape where
  /-- Options with a value, by name, and which values they take. -/
  options : List (String × (String → Bool))
  /-- Switches besides `verbose` and `help`. -/
  switches : List String
  /-- Most operands. -/
  operands : Nat
  /-- Whether a negative number may be the first operand. -/
  takesNegative : Bool

structure Given where
  values : List (String × String)
  switches : List String
  operands : List String

def Given.empty : Given := ⟨[], [], []⟩

def Given.value? (g : Given) (name : String) : Option String :=
  g.values.findSome? fun (n, v) => if n = name then some v else none

/-- Whether digits follow each other up to the end, with at most one point and after that at most
one mark of an exponent, which is not the last character. -/
def isNumberTail (pointAllowed markAllowed : Bool) : List Char → Bool
  | [] => true
  | c :: s =>
    if c.isDigit then isNumberTail pointAllowed markAllowed s
    else if c = '.' then pointAllowed && isNumberTail false markAllowed s
    else if c = 'e' || c = 'E' then markAllowed && !s.isEmpty && isNumberTail false false s
    else false

/-- Whether an argument is a negative number and not a group of switches. -/
def isNegativeNumber (s : List Char) : Bool :=
  match s with
  | '-' :: c :: rest => c.isDigit && isNumberTail true true rest
  | _ => false

/-- The arguments with a switch turned on, which may be done once. -/
def Given.turnOn (g : Given) (name : String) : Except Stop Given :=
  if g.switches.contains name then .error .misuse
  else .ok { g with switches := name :: g.switches }

/-- The arguments with a value for an option, which is given once and has to be one that the option
takes. -/
def Given.assign (g : Given) (shape : Shape) (name value : String) : Except Stop Given :=
  match shape.options.find? (·.1 = name) with
  | some (_, takes) =>
    if (g.value? name).isSome || !takes value then .error .misuse
    else .ok { g with values := (name, value) :: g.values }
  | none => .error .misuse

def Given.addOperand (g : Given) (shape : Shape) (operand : String) : Except Stop Given :=
  if g.operands.length < shape.operands then .ok { g with operands := g.operands ++ [operand] }
  else .error .misuse

/-- The arguments with a group of one-letter switches turned on. -/
def Given.turnOnAll (g : Given) (top : Bool) : List Char → Except Stop Given
  | [] => .ok g
  | c :: cs =>
    if c = 'h' then .error .help
    else if c = 'V' && top then .error .version
    else if c = 'v' then do (← g.turnOn "verbose").turnOnAll top cs
    else .error .misuse

/-- The arguments with a switch of a full name turned on. -/
def Given.turnOnNamed (g : Given) (shape : Shape) (top : Bool) (name : String) :
    Except Stop Given :=
  if name = "help" then .error .help
  else if name = "version" && top then .error .version
  else if name = "verbose" || shape.switches.contains name then g.turnOn name
  else .error .misuse

/-- A name and, after an equals sign, a value. -/
def splitValue (s : List Char) : String × Option String :=
  let name := String.ofList (s.takeWhile (· != '='))
  match s.dropWhile (· != '=') with
  | [] => (name, none)
  | _ :: value => (name, some (String.ofList value))

/-- One argument that starts with a hyphen, when no option waits for its value: the arguments with
it, and the option that waits for its value now. -/
def Given.addHyphenated (g : Given) (shape : Shape) (top : Bool) (s : List Char) :
    Except Stop (Given × Option String) :=
  match s with
  | '-' :: '-' :: long =>
    let (name, value) := splitValue long
    if shape.options.any (·.1 = name) then
      match value with
      | some v => (g.assign shape name v).map (·, none)
      | none => if (g.value? name).isSome then .error .misuse else .ok (g, some name)
    else if value.isSome then .error .misuse
    else (g.turnOnNamed shape top name).map (·, none)
  | _ =>
    if shape.takesNegative && g.operands.isEmpty && isNegativeNumber s then
      (g.addOperand shape (String.ofList s)).map (·, none)
    else (g.turnOnAll top (s.drop 1)).map (·, none)

/-- Whether an argument is hyphenated: it starts with a hyphen and is not a hyphen alone. -/
def isHyphenated (s : List Char) : Bool :=
  s.head? = some '-' && 2 ≤ s.length

/-- Reads the arguments of a command, of which `waiting` is the option that waits for its value. -/
def Given.read (shape : Shape) : Given → Option String → List String → Except Stop Given
  | _, some _, [] => .error .misuse
  | g, none, [] => .ok g
  | g, some name, arg :: args =>
    if isHyphenated arg.toList then .error .misuse
    else do read shape (← g.assign shape name arg) none args
  | g, none, arg :: args =>
    if arg = "--" then args.foldlM (fun g operand => g.addOperand shape operand) g
    else if isHyphenated arg.toList then do
      let (g, waiting) ← g.addHyphenated shape false arg.toList
      read shape g waiting args
    else do read shape (← g.addOperand shape arg) none args

end AnswerCheck.Command
