import AnswerCheck.Toml.Token

/-! # Reading TOML documents

Values, keys and lines of a document, and the document as a whole. Arrays and inline tables may be
nested to a fixed depth, which bounds the recursion of values.
-/

set_option autoImplicit false

namespace AnswerCheck.Toml

open Text

/-- Arrays, inline tables and parts of a key are fewer than this at any place of a document. -/
def depthLimit : Nat := 80

/-! ## Keys -/

/-- A character of a key without quotes. -/
def isBare (c : Char) : Bool :=
  c.isAlphanum || c = '-' || c = '_'

def keyPart? : Recognizer Key := fun s =>
  match s with
  | '\x22' :: _ => lineString? s
  | '\x27' :: _ => lineString? s
  | _ => run? isBare s

/-- The parts of a key, of which there may be as many as given, with blanks around each. -/
def keyParts? : Nat → Recognizer (List Key)
  | 0, _ => none
  | more + 1, s => do
    let (part, s) ← keyPart? (skipSpaces s)
    match skipSpaces s with
    | '.' :: rest => do
      let (parts, rest) ← keyParts? more rest
      some (part :: parts, rest)
    | rest => some ([part], rest)

/-- A key: the parts before the last one, and the last one. -/
def key? : Recognizer (List Key × Key) := fun s => do
  let (parts, rest) ← keyParts? (depthLimit - 1) s
  some ((parts.dropLast, ← parts.getLast?), rest)

/-! ## Values -/

/-- The items of an array after `[`, of which there may be as many as given; a comma may follow the
last one. -/
def items? (value? : Recognizer Value) : Nat → Recognizer (List Value)
  | 0, _ => none
  | more + 1, s =>
    match skipLines s.length s with
    | ']' :: rest => some ([], rest)
    | s => do
      let (item, s) ← value? s
      match skipLines s.length s with
      | ']' :: rest => some ([item], rest)
      | ',' :: rest => do
        let (items, rest) ← items? value? more rest
        some (item :: items, rest)
      | _ => none

/-- A key with its value, and the blanks after it. -/
def keyValue? (value? : Recognizer Value) : Recognizer (List Key × Key × Value) := fun s => do
  let ((path, key), s) ← key? s
  match s with
  | '=' :: s => do
    let (value, s) ← value? (skipSpaces s)
    some ((path, key, value), skipSpaces s)
  | _ => none

/-- The entries of an inline table up to `}`, of which there may be as many as given. -/
def inlineEntries? (value? : Recognizer Value) : Nat → Entries → Recognizer Entries
  | 0, _, _ => none
  | more + 1, entries, s => do
    let ((path, key, value), s) ← keyValue? value? s
    let entries ← addValue path key value entries
    match s with
    | '\x7d' :: rest => some (entries, rest)
    | ',' :: rest => inlineEntries? value? more entries rest
    | _ => none

def number? : Recognizer Value := fun s =>
  -- A date and a number with a fraction both start like an integer, which is therefore tried last.
  match afterDateTime? s, (finite? s).or (special? s), (basedInteger? s).or (decimalInteger? s) with
  | some rest, _, _ => some (.dateTime, rest)
  | _, some (x, rest), _ => some (.float x, rest)
  | _, _, some (n, rest) => some (.integer n, rest)
  | _, _, _ => none

/-- A value in which arrays and inline tables are nested to the given depth. -/
def value? : Nat → Recognizer Value
  | depth, s =>
    match s with
    | [] => none
    | c :: rest =>
      if c = '\x22' || c = '\x27' then
        (string? s).map fun (content, rest) => (.string content, rest)
      else if c = 't' then (after? "true".toList s).map fun rest => (.boolean true, rest)
      else if c = 'f' then (after? "false".toList s).map fun rest => (.boolean false, rest)
      else if c = '[' then
        match depth with
        | 0 => none
        | below + 1 =>
          (items? (value? below) s.length rest).map fun (items, rest) => (.array items, rest)
      else if c = '\x7b' then
        match depth with
        | 0 => none
        | below + 1 =>
          match skipSpaces rest with
          | '\x7d' :: rest => some (.table .inline [], rest)
          | rest =>
            (inlineEntries? (value? below) s.length [] rest).map
              fun (entries, rest) => (.table .inline entries, rest)
      else number? s

/-! ## Lines -/

/-- What a line of a document does. -/
inductive Line where
  | nothing
  | table (path : List Key) (key : Key)
  | nextTable (path : List Key) (key : Key)
  | keyValue (path : List Key) (key : Key) (value : Value)

/-- The header of a table, or of a table of an array. -/
def header? : Recognizer Line := fun s =>
  match s with
  | '[' :: '[' :: s => do
    let ((path, key), s) ← key? s
    some (.nextTable path key, ← after? [']', ']'] s)
  | '[' :: s => do
    let ((path, key), s) ← key? s
    some (.table path key, ← after? [']'] s)
  | _ => none

/-- A line with its end. -/
def line? : Recognizer Line := fun s => do
  let s := skipSpaces s
  let (line, s) ←
    match s with
    | [] => some (.nothing, s)
    | c :: _ =>
      if c = '#' || c = '\n' || c = '\r' then some (.nothing, s)
      else if c = '[' then header? s
      else do
        let ((path, key, value), s) ← keyValue? (value? (depthLimit - 1)) s
        some (.keyValue path key value, s)
  some (line, ← afterLine? s)

/-- The lines of a document, of which there may be as many as given. -/
def lines? : Nat → List Char → Option (List Line)
  | _, [] => some []
  | 0, _ => none
  | more + 1, s => do
    let (line, rest) ← line? s
    some (line :: (← lines? more rest))

/-! ## Documents -/

/-- A document under construction: its entries, and the path to the table that was opened last. -/
structure Draft where
  entries : Entries
  opened : List Key

/-- The document after one more line. -/
def Draft.add (d : Draft) : Line → Option Draft
  | .nothing => some d
  | .table path key => do
    some ⟨← openTable path key d.entries, path ++ [key]⟩
  | .nextTable path key => do
    some ⟨← openNext path key d.entries, path ++ [key]⟩
  | .keyValue path key value => do
    let add (_ : Bool) := addValue path key value
    some { d with entries := ← changeAt false add d.opened false d.entries }

/-- The table that a text denotes, if it is a document. A byte-order mark may stand at its start. -/
def document? (s : List Char) : Option Entries := do
  let s := (after? ['\ufeff'] s).getD s
  let lines ← lines? (s.length + 1) s
  let draft ← lines.foldlM Draft.add ⟨[], []⟩
  some draft.entries

end AnswerCheck.Toml
