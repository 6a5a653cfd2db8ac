import TwoBitAlpha.Association
import TwoBitAlpha.Toml.Value

/-!
Tables while a document is being read.

Whether a key may still be added to a table depends on how the table came about, so an open table carries its
origin. Once all is read the origins are dropped: `Node.value`.
-/

namespace TwoBitAlpha.Toml

inductive Origin where
  /-- A header of its own, or the document itself. -/
  | header
  /-- The header of a table inside it. -/
  | inner
  /-- A dotted key. -/
  | dotted
  deriving DecidableEq

inductive Node where
  | leaf (v : Value)
  | table (origin : Origin) (entries : List (String × Node))
  /-- The rows of an array of tables, each with a header of its own. -/
  | rows (tables : List (List (String × Node)))

abbrev Entries := List (String × Node)

/-- Changes the table that a path leads to. Tables that are missing on the way are made, with the origin
`made`; a path through an array of tables goes on in its last row. Dotted keys do not reach into a
table that has a header. -/
def descend (made : Origin) (change : Origin → Entries → Option Entries) :
    List String → Origin → Entries → Option Entries
  | [], origin, entries => change origin entries
  | key :: path, _, entries =>
    match entries.lookup key with
    | none => do
      let inside ← descend made change path made []
      some (Association.put key (.table made inside) entries)
    | some (.leaf _) => none
    | some (.table origin inside) =>
      if made = .dotted ∧ origin = .header then none
      else do
        let inside ← descend made change path origin inside
        some (Association.put key (.table origin inside) entries)
    | some (.rows tables) =>
      match tables.getLast? with
      | none => none
      | some last => do
        let last ← descend made change path .header last
        some (Association.put key (.rows (tables.dropLast ++ [last])) entries)

/-- A key with dots: the tables on the way, and the name in the last of them. -/
structure Key where
  path : List String
  name : String
  deriving DecidableEq

abbrev Assignment := Key × Value

/-- Adds a value to a table. The key has to be new, and a dotted key has to end in a table that dotted
keys made. -/
def assign (entries : Entries) (a : Assignment) : Option Entries :=
  descend .dotted (fun origin inside =>
    if (origin == .dotted) == a.1.path.isEmpty then none
    else if (inside.lookup a.1.name).isSome then none
    else some (inside ++ [(a.1.name, .leaf a.2)])) a.1.path .header entries

def assignAll (entries : Entries) (assignments : List Assignment) : Option Entries :=
  assignments.foldlM assign entries

inductive Header where
  | table (key : Key)
  | row (key : Key)
  deriving DecidableEq

structure Section where
  header : Header
  assignments : List Assignment

/-- Adds a section to a document. A table may have been made before by the headers of inner tables alone;
it then keeps their entries and moves to the place of its own header. -/
def addSection (entries : Entries) (s : Section) : Option Entries :=
  match s.header with
  | .table key => descend .inner (fun _ outside => do
      let start ← match outside.lookup key.name with
        | none => some []
        | some (.table .inner inside) => some inside
        | some _ => none
      let inside ← assignAll start s.assignments
      some (Association.erase key.name outside ++ [(key.name, .table .header inside)])) key.path .header entries
  | .row key => descend .inner (fun _ outside => do
      let before ← match outside.lookup key.name with
        | none => some []
        | some (.rows tables) => some tables
        | some _ => none
      let row ← assignAll [] s.assignments
      some (Association.put key.name (.rows (before ++ [row])) outside)) key.path .header entries

mutual

/-- The value of a node, origins forgotten. An array of tables is an array. -/
def Node.value : Node → Value
  | .leaf v => v
  | .table _ entries => .table (entriesValue entries)
  | .rows tables => .array (rowsValue tables)

def entriesValue : List (String × Node) → Table
  | [] => []
  | (key, node) :: rest => (key, node.value) :: entriesValue rest

def rowsValue : List (List (String × Node)) → List Value
  | [] => []
  | row :: rest => .table (entriesValue row) :: rowsValue rest

end

def Value.ofAssignments (assignments : List Assignment) : Option Value :=
  (assignAll [] assignments).map fun entries => .table (entriesValue entries)

def Table.ofSections (top : List Assignment) (sections : List Section) : Option Table := do
  let entries ← assignAll [] top
  let entries ← sections.foldlM addSection entries
  some (entriesValue entries)

end TwoBitAlpha.Toml
