import TwoBitAlpha.Toml.Reading

/-!
Whole documents: line by line, then gathered into sections, then built into one table.

A document that is not well formed has no table, whether a line of it cannot be read or its keys contradict
each other.
-/

namespace TwoBitAlpha.Toml

inductive Line where
  | blank
  | header (h : Header)
  | assignment (a : Assignment)

/-- A header after its opening bracket, up to the closing one. -/
def header : Reader Header
  | '[' :: s => do
    let (k, rest) ← key s
    match rest with
    | ']' :: ']' :: rest => some (.row k, rest)
    | _ => none
  | s => do
    let (k, rest) ← key s
    match rest with
    | ']' :: rest => some (.table k, rest)
    | _ => none

/-- A line that is not empty, without blanks at its beginning, and the text after its end. -/
def line (s : List Char) : Option (Line × List Char) :=
  match s with
  | '#' :: _ | '\n' :: _ | '\r' :: _ => (endLine? s).map (.blank, ·)
  | '[' :: rest => do
    let (h, rest) ← header rest
    (endLine? rest).map (.header h, ·)
  | _ => do
    let (a, rest) ← assignment (value depthLimit) s
    (endLine? rest).map (.assignment a, ·)

def lines (s : List Char) : Option (List Line) :=
  match skipBlank s with
  | [] => some []
  | start => do
    let (l, rest) ← line start
    if rest.length < s.length then
      (lines rest).map (l :: ·)
    else none
termination_by s.length

/-- The assignments before the first header, and the sections. -/
def sections : List Line → List Assignment × List Section
  | [] => ([], [])
  | .blank :: rest => sections rest
  | .assignment a :: rest => let (top, more) := sections rest; (a :: top, more)
  | .header h :: rest => let (under, more) := sections rest; ([], ⟨h, under⟩ :: more)

def withoutMark : List Char → List Char
  | '\ufeff' :: rest => rest
  | s => s

def Table.ofText (text : String) : Option Table := do
  let ls ← lines (withoutMark text.toList)
  let (top, more) := sections ls
  Table.ofSections top more

end TwoBitAlpha.Toml
