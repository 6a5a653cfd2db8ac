import TwoBitAlpha.Toml.Moment
import TwoBitAlpha.Toml.Number
import TwoBitAlpha.Toml.Quotation
import TwoBitAlpha.Toml.Tree

/-!
Reading keys and values.

Arrays and tables between braces may be nested to a fixed depth. The reader of a value has the depth that is
left as its first argument and goes down in it.
-/

namespace TwoBitAlpha.Toml

def isBareKeyChar (c : Char) : Bool := c.isAlphanum || c == '-' || c == '_'

def keyPart : Reader String := fun s =>
  match s with
  | '"' :: _ | '\'' :: _ => lineQuotation s
  | _ =>
    let name := s.takeWhile isBareKeyChar
    if name.isEmpty then none else some (String.ofList name, s.dropWhile isBareKeyChar)

def keyParts (s : List Char) : Option (List String × List Char) := do
  let (part, rest) ← keyPart (skipBlank s)
  match skipBlank rest with
  | '.' :: next =>
    if next.length < s.length then
      (keyParts next).map fun (parts, rest) => (part :: parts, rest)
    else none
  | rest => some ([part], rest)
termination_by s.length

/-- How many parts a key may have, and how deep values may be nested. -/
def depthLimit : Nat := 79

def key : Reader Key := fun s => do
  let (parts, rest) ← keyParts s
  if parts.length > depthLimit then none
  else
    let name ← parts.getLast?
    some (⟨parts.dropLast, name⟩, rest)

def assignment (item : Reader Value) : Reader Assignment := fun s => do
  let (k, rest) ← key s
  match rest with
  | '=' :: rest =>
    let (v, rest) ← item (skipBlank rest)
    some ((k, v), rest)
  | _ => none

/-- The items of an array up to its closing bracket, with commas between them and perhaps after the last. -/
def arrayItems (item : Reader Value) (s : List Char) : Option (List Value × List Char) := do
  match ← skipFiller false s with
  | ']' :: rest => some ([], rest)
  | start =>
    let (v, rest) ← item start
    match ← skipFiller false rest with
    | ',' :: next =>
      if next.length < s.length then
        (arrayItems item next).map fun (vs, rest) => (v :: vs, rest)
      else none
    | ']' :: rest => some ([v], rest)
    | _ => none
termination_by s.length

/-- The assignments of a table between braces up to the closing one, with commas between them. -/
def tableItems (item : Reader Value) (s : List Char) : Option (List Assignment × List Char) := do
  let (a, rest) ← assignment item s
  match skipBlank rest with
  | ',' :: next =>
    if next.length < s.length then
      (tableItems item next).map fun (more, rest) => (a :: more, rest)
    else none
  | '\x7d' :: rest => some ([a], rest)
  | _ => none
termination_by s.length

def bracedTable (item : Reader Value) : Reader Value := fun s => do
  let (assignments, rest) ← match skipBlank s with
    | '\x7d' :: rest => some ([], rest)
    | start => tableItems item start
  let v ← Value.ofAssignments assignments
  some (v, rest)

/-- A number, a date or a time. What could begin a date is tried as one first. -/
def numeric : Reader Value := fun s =>
  match moment s with
  | some (spelling, rest) => some (.moment spelling, rest)
  | none =>
    match decimalFloat s with
    | some found => some found
    | none =>
      match specialFloat s with
      | some found => some found
      | none => integer s

def plainValue : Reader Value := fun s =>
  match s with
  | '"' :: _ | '\'' :: _ => (quotation s).map fun (t, rest) => (.text t, rest)
  | 't' :: 'r' :: 'u' :: 'e' :: rest => some (.boolean true, rest)
  | 'f' :: 'a' :: 'l' :: 's' :: 'e' :: rest => some (.boolean false, rest)
  | _ => numeric s

/-- A value, with `depth` levels of nesting left. -/
def value : Nat → Reader Value
  | 0, s => plainValue s
  | depth + 1, s =>
    match s with
    | '[' :: rest => (arrayItems (value depth) rest).map fun (vs, rest) => (.array vs, rest)
    | '\x7b' :: rest => bracedTable (value depth) rest
    | _ => plainValue s

end TwoBitAlpha.Toml
