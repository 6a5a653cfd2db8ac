/-!
Paths as they are spelled, and as sequences of components.

Two spellings count as the same path if their components agree. Repeated and trailing slashes make no
difference, nor does a dot for the directory itself, except at the very beginning.
-/

namespace TwoBitAlpha

inductive Component where
  | root
  /-- A dot at the beginning of a relative path. -/
  | here
  | up
  | name (s : String)
  deriving DecidableEq

structure Path where
  text : String
  deriving DecidableEq

namespace Path

def splitSlashes : List Char → List (List Char)
  | [] => [[]]
  | '/' :: rest => [] :: splitSlashes rest
  | c :: rest =>
    match splitSlashes rest with
    | [] => [[c]]
    | part :: parts => (c :: part) :: parts

def parts (p : Path) : List String := (splitSlashes p.text.toList).map String.ofList

def isAbsolute (p : Path) : Bool := p.text.toList.head? == some '/'

def componentOf (part : String) : Option Component :=
  if part = "" ∨ part = "." then none
  else if part = ".." then some .up
  else some (.name part)

def components (p : Path) : List Component :=
  let start : List Component :=
    if p.isAbsolute then [.root]
    else if p.parts.head? = some "." then [.here]
    else []
  start ++ p.parts.filterMap componentOf

def isSame (p q : Path) : Bool := p.components == q.components

/-- The last component, if it is a name. -/
def fileName? (p : Path) : Option String :=
  match p.components.getLast? with
  | some (.name s) => some s
  | _ => none

/-- A file name before and after its last dot. A dot at the beginning divides nothing. -/
def splitName (name : String) : String × Option String :=
  let backwards := name.toList.reverse
  let after := backwards.takeWhile (· != '.')
  match backwards.dropWhile (· != '.') with
  | [] | [_] => (name, none)
  | _ :: before => (String.ofList before.reverse, some (String.ofList after.reverse))

def extension? (p : Path) : Option String := do (splitName (← p.fileName?)).2

/-- Drops slashes, and dots that are components by themselves, from the end of a path spelled backwards. -/
def dropSlashes : List Char → List Char
  | '/' :: rest => dropSlashes rest
  | '.' :: '/' :: rest => dropSlashes rest
  | s => s

/-- The path with an extension appended to the stem of its file name. A path without a file name stays. -/
def setExtension (p : Path) (extension : String) : Path :=
  match p.fileName? with
  | none => p
  | some name =>
    let directory := (dropSlashes p.text.toList.reverse).drop name.length
    ⟨String.ofList directory.reverse ++ (splitName name).1 ++ "." ++ extension⟩

/-- The path with another extension, or with one if it had none. As many characters as the extension has are dropped
from the end of the path first. If two dots remain of the file name, they are the directory above, and nothing is
appended. -/
def withExtension (p : Path) (extension : String) : Path :=
  let dropped := ((p.extension?.map String.length).getD 0)
  setExtension ⟨String.ofList (p.text.toList.take (p.text.length - dropped))⟩ extension

end Path

end TwoBitAlpha
