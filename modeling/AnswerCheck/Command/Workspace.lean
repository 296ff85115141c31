/-! # Where a command runs

A command reads standard input, reads files and writes a file, and does nothing else outside itself.
`Host` names these three, so that what a command does is said once for every place where it can run.
A `Workspace` is such a place without an operating system: standard input and the files of one
directory, which a path names relative to that directory.
-/

set_option autoImplicit false

namespace AnswerCheck.Command

inductive Found where
  /-- Nothing. -/
  | missing
  /-- Something that has no content to read, such as a directory. -/
  | unreadable
  | content (bytes : ByteArray)

/-- The outside of a command. -/
class Host (m : Type → Type) where
  /-- All of standard input. -/
  input : m ByteArray
  /-- What is under a path. -/
  find : String → m Found
  /-- Creates or replaces a file and says whether that succeeded. -/
  write : String → String → m Bool

/-! ## Paths -/

/-- The components of a path, with an empty one wherever two slashes meet or a slash stands at an
end. -/
def components (s : List Char) : List (List Char) :=
  s.splitOn '/'

/-- Standard input and the files of a directory, each named by its path from there. -/
structure Workspace where
  input : ByteArray
  files : List (String × ByteArray)

namespace Workspace

def file? (w : Workspace) (place : List (List Char)) : Option ByteArray :=
  w.files.findSome? fun (name, bytes) => if components name.toList = place then some bytes else none

/-- Whether this path names a directory: the workspace itself, or one that holds a file. -/
def isDirectory (w : Workspace) (place : List (List Char)) : Bool :=
  place.isEmpty || w.files.any fun (name, _) =>
    place.isPrefixOf (components name.toList) && components name.toList ≠ place

/-- The place that components lead to from `place`. Only a directory leads on, a point stays where
it is, and two points lead back, but not out of the workspace. -/
def follow (w : Workspace) (place : List (List Char)) : List (List Char) → Option (List (List Char))
  | [] => some place
  | c :: cs =>
    if !w.isDirectory place then none
    else if c = [] ∨ c = ['.'] then w.follow place cs
    else if c = ['.', '.'] then if place.isEmpty then none else w.follow place.dropLast cs
    else w.follow (place ++ [c]) cs

/-- The place that a path names. Paths that start with a slash or are empty name none. -/
def place? (w : Workspace) (path : String) : Option (List (List Char)) :=
  if path.isEmpty || path.startsWith "/" then none else w.follow [] (components path.toList)

def find (w : Workspace) (path : String) : Found :=
  match w.place? path with
  | none => .missing
  | some place =>
    match w.file? place with
    | some bytes => .content bytes
    | none => if w.isDirectory place then .unreadable else .missing

/-- The workspace with a file created or replaced, if the path can name a file. -/
def write? (w : Workspace) (path text : String) : Option Workspace :=
  match w.place? path with
  | none => none
  | some place =>
    if w.isDirectory place then none
    else
      let name := String.intercalate "/" (place.map String.ofList)
      some { w with files := (name, text.toUTF8) :: w.files.filter (·.1 ≠ name) }

end Workspace

instance : Host (StateM Workspace) where
  input := return (← get).input
  find path := return (← get).find path
  write path text := do
    match (← get).write? path text with
    | some w => set w; return true
    | none => return false

end AnswerCheck.Command
