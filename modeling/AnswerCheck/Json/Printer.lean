import AnswerCheck.Decimal.Layout

/-! # JSON texts

Values of JSON and their printed form: one item or field per line, two spaces deeper than what holds
it.
-/

set_option autoImplicit false

namespace AnswerCheck

/-- A value of JSON. Fields keep their order. -/
inductive Json where
  | number (x : Float)
  | count (n : Nat)
  | boolean (b : Bool)
  | string (s : String)
  | array (items : List Json)
  | object (fields : List (String × Json))

namespace Json

/-- How one character is written inside a string. Only quotes, backslashes and control characters
below the space need a backslash. -/
def stringChar (c : Char) : List Char :=
  if c = '\x22' || c = '\\' then ['\\', c]
  else if c = '\n' then ['\\', 'n']
  else if c = '\r' then ['\\', 'r']
  else if c = '\t' then ['\\', 't']
  else if c = '\x08' then ['\\', 'b']
  else if c = '\x0c' then ['\\', 'f']
  else if c.toNat < 0x20 then
    let ds := Nat.toDigits 16 c.toNat
    ['\\', 'u'] ++ List.replicate (4 - ds.length) '0' ++ ds
  else [c]

def stringText (s : String) : String :=
  String.ofList ('\x22' :: s.toList.flatMap stringChar ++ ['\x22'])

/-- A number; what is not finite is null. -/
def numberText (x : Float) : String :=
  if x.isFinite then Decimal.Layout.json.text x else "null"

def newLine (depth : Nat) : String :=
  "\n" ++ String.ofList (List.replicate (2 * depth) ' ')

mutual

/-- The printed form of a value that stands at a depth. -/
def print (depth : Nat) : Json → String
  | number x => numberText x
  | count n => toString n
  | boolean b => if b then "true" else "false"
  | string s => stringText s
  | array [] => "[]"
  | array (item :: items) =>
    "[" ++ newLine (depth + 1) ++ item.print (depth + 1) ++ printItems (depth + 1) items ++
      newLine depth ++ "]"
  | object [] => "\x7b\x7d"
  | object ((name, value) :: fields) =>
    "\x7b" ++ newLine (depth + 1) ++ stringText name ++ ": " ++ value.print (depth + 1) ++
      printFields (depth + 1) fields ++ newLine depth ++ "\x7d"

def printItems (depth : Nat) : List Json → String
  | [] => ""
  | item :: items => "," ++ newLine depth ++ item.print depth ++ printItems depth items

def printFields (depth : Nat) : List (String × Json) → String
  | [] => ""
  | (name, value) :: fields =>
    "," ++ newLine depth ++ stringText name ++ ": " ++ value.print depth ++ printFields depth fields

end

def toText (j : Json) : String :=
  j.print 0

end Json

end AnswerCheck
