import TwoBitAlpha.Association
import TwoBitAlpha.Path
import TwoBitAlpha.Png.Layout

/-!
Files and directories, and what a path leads to.

A path is followed step by step. Every step has to start in a directory, and a slash at the end of a path asks
for one too, so two different spellings may well lead to the same file. Neither a path nor a name in it may be too
long.
-/

namespace TwoBitAlpha

/-- What a file holds. A picture that was saved is known by its samples. -/
inductive Contents where
  | bytes (data : Array UInt8)
  | picture (p : Picture)
  deriving DecidableEq

def Contents.toBytes : Contents → Array UInt8
  | bytes data => data
  | picture p => Png.encode p

inductive AccessError where
  | notFound
  | notDirectory
  | isDirectory
  /-- The path or a name in it is too long. -/
  | tooLong
  deriving DecidableEq

inductive FileNode where
  | directory
  | file (contents : Contents)
  deriving DecidableEq

/-- The names on the way from the root of a tree to a place in it. -/
abbrev Location := List String

structure FileTree where
  nodes : List (Location × FileNode)
  /-- The directory that relative paths start from. -/
  current : Location
  deriving DecidableEq

namespace FileTree

def node? (t : FileTree) (place : Location) : Option FileNode :=
  if place = [] then some .directory else t.nodes.lookup place

def maxName : Nat := 255

def maxPath : Nat := 4095

def walk (t : FileTree) : Location → List String → Except AccessError Location
  | place, [] => .ok place
  | place, step :: rest =>
    match t.node? place with
    | none => .error .notFound
    | some (.file _) => .error .notDirectory
    | some .directory =>
      if step = "." then walk t place rest
      else if step = ".." then walk t place.dropLast rest
      else if maxName < step.utf8ByteSize then .error .tooLong
      else walk t (place ++ [step]) rest

/-- The steps of a path. A slash at the end is one more step, to the place itself. -/
def steps (p : Path) : List String :=
  let named := p.parts.filter (· != "")
  if p.text.toList.getLast? = some '/' then named ++ ["."] else named

/-- The place that a path leads to. Only what comes before it has to exist. -/
def locate (t : FileTree) (p : Path) : Except AccessError Location :=
  if maxPath < p.text.utf8ByteSize then .error .tooLong
  else t.walk (if p.isAbsolute then [] else t.current) (steps p)

def read (t : FileTree) (p : Path) : Except AccessError Contents := do
  match t.node? (← t.locate p) with
  | none => throw .notFound
  | some .directory => throw .isDirectory
  | some (.file contents) => return contents

def write (t : FileTree) (p : Path) (contents : Contents) : Except AccessError FileTree := do
  let place ← t.locate p
  match t.node? place with
  | some .directory => throw .isDirectory
  | _ => return { t with nodes := Association.put place (.file contents) t.nodes }

end FileTree

end TwoBitAlpha
