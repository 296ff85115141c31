import AnswerCheck.Text.Recognizer

/-! # TOML documents

A document is a table of keys and values. Tables come about in four ways, by their header, as a step
on the way to a header, by a dotted key, or inline, and what may be added to a table later depends
on how it came about. Each addition walks along a path of keys and fails where the document may not
be changed any more.
-/

set_option autoImplicit false

namespace AnswerCheck.Toml

/-- A key, without its quotes. -/
abbrev Key := List Char

/-- How a table came about. -/
inductive Origin where
  /-- By a header of its own. -/
  | header
  /-- As a step on the way to a table with a header. -/
  | implied
  /-- As a step of a dotted key. -/
  | dotted
  /-- Written inline; nothing can be added. -/
  | inline
deriving Repr, DecidableEq

/-- A value of a document. -/
inductive Value where
  | string (content : List Char)
  | integer (n : Int)
  | float (x : Float)
  | boolean (b : Bool)
  | dateTime
  | array (items : List Value)
  /-- The tables of an array that is built by headers, the latest first. -/
  | tables (latestFirst : List (List (Key × Value)))
  | table (origin : Origin) (entries : List (Key × Value))

/-- The entries of a table, in the order in which they were added. -/
abbrev Entries := List (Key × Value)

/-- The entries with another value for a key that they have. -/
def replace (key : Key) (value : Value) (entries : Entries) : Entries :=
  entries.map fun (k, v) => if k = key then (k, value) else (k, v)

/-- Applies `change` to the entries of the table at the end of a path, creating what is missing.
`change` learns whether that table came about by a dotted key. A path of a dotted key goes through
tables that were only implied or dotted; a path of a header also goes through tables that have one.
Either goes to the latest table of an array of tables, and neither through any other value. -/
def changeAt (ofDottedKey : Bool) (change : Bool → Entries → Option Entries) :
    List Key → Bool → Entries → Option Entries
  | [], isDotted, entries => change isDotted entries
  | key :: path, _, entries =>
    let origin := if ofDottedKey then Origin.dotted else .implied
    match entries.lookup key with
    | none => do
      let inner ← changeAt ofDottedKey change path ofDottedKey []
      some (entries ++ [(key, .table origin inner)])
    | some (.table found inner) =>
      if found = .inline || (ofDottedKey && found = .header) then none
      else do
        let inner ← changeAt ofDottedKey change path (found = .dotted) inner
        some (replace key (.table found inner) entries)
    | some (.tables (latest :: earlier)) => do
      let latest ← changeAt ofDottedKey change path false latest
      some (replace key (.tables (latest :: earlier)) entries)
    | some _ => none

/-- Adds a value under a dotted key to the entries of a table. The last part of the key has to be
new, and the parts before it may not lead to a table that came about in another way. -/
def addValue (path : List Key) (key : Key) (value : Value) (entries : Entries) : Option Entries :=
  changeAt true
    (fun isDotted inner =>
      if isDotted = path.isEmpty || (inner.lookup key).isSome then none
      else some (inner ++ [(key, value)]))
    path false entries

/-- Opens the table of a header, which may have been implied before but not opened. -/
def openTable (path : List Key) (key : Key) (entries : Entries) : Option Entries :=
  changeAt false
    (fun _ inner =>
      match inner.lookup key with
      | none => some (inner ++ [(key, .table .header [])])
      | some (.table .implied old) => some (replace key (.table .header old) inner)
      | some _ => none)
    path false entries

/-- Opens the next table of an array of tables. -/
def openNext (path : List Key) (key : Key) (entries : Entries) : Option Entries :=
  changeAt false
    (fun _ inner =>
      match inner.lookup key with
      | none => some (inner ++ [(key, .tables [[]])])
      | some (.tables ts) => some (replace key (.tables ([] :: ts)) inner)
      | some _ => none)
    path false entries

end AnswerCheck.Toml
