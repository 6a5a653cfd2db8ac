/-!
Filling one buffer row by row.

A buffer is cut into spans of equal length, and each row overwrites its own span. `RowWrite.runAll`
applies a list of such writes; as the spans are disjoint, any order of the rows gives the same buffer.
-/

namespace TwoBitAlpha

structure Span where
  start : Nat
  size : Nat
  deriving DecidableEq

namespace Span

/-- Cuts `total` positions into spans of `size`, of which the last may be shorter. -/
def cut (total size : Nat) : List Span :=
  (List.range ((total + size - 1) / size)).map fun k =>
    ⟨k * size, min size (total - k * size)⟩

def read {α : Type} (s : Span) (buffer : Array α) : List α :=
  (buffer.extract s.start (s.start + s.size)).toList

end Span

def writeFrom {α : Type} (buffer : Array α) (i : Nat) : List α → Array α
  | [] => buffer
  | a :: rest => writeFrom (buffer.setIfInBounds i a) (i + 1) rest

@[simp] theorem size_writeFrom {α : Type} (buffer : Array α) (i : Nat) (entries : List α) :
    (writeFrom buffer i entries).size = buffer.size := by
  induction entries generalizing buffer i with
  | nil => rfl
  | cons a rest ih => rw [writeFrom, ih, Array.size_setIfInBounds]

/-- The work of one row: the entries that it writes and where they begin. -/
structure RowWrite (α : Type) where
  start : Nat
  entries : List α

namespace RowWrite

variable {α : Type}

def run (buffer : Array α) (w : RowWrite α) : Array α := writeFrom buffer w.start w.entries

def runAll (writes : List (RowWrite α)) (buffer : Array α) : Array α := writes.foldl run buffer

@[simp] theorem size_runAll (writes : List (RowWrite α)) (buffer : Array α) :
    (runAll writes buffer).size = buffer.size := by
  induction writes generalizing buffer with
  | nil => rfl
  | cons w rest ih =>
    change (runAll rest (run buffer w)).size = buffer.size
    rw [ih, run, size_writeFrom]

end RowWrite

end TwoBitAlpha
