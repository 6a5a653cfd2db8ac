import TwoBitAlpha.PackedMap
import TwoBitAlpha.Raster
import TwoBitAlpha.RowWrite

/-!
From the alpha channel of a raster to a packed map. Color is dropped, and the fields that a row has
beyond the last column are transparent.
-/

namespace TwoBitAlpha

structure SizeMismatch where
  expected : Canvas
  foundWidth : UInt32
  foundHeight : UInt32
  deriving DecidableEq

def SizeMismatch.message (e : SizeMismatch) : String :=
  s!"Raster is {e.foundWidth}x{e.foundHeight} but the canvas is {e.expected.text}"

namespace Raster

/-- The level of a pixel; transparent beyond the edges. -/
def levelAt (r : Raster) (x y : UInt32) : Level :=
  match r.pixel? x y with
  | some p => Level.ofAlpha p.alpha
  | none => .transparent

/-- Four levels from one row of a raster. The test is on the column alone. -/
def group (r : Raster) (y : UInt32) (k : Nat) : Group :=
  Vector.ofFn fun i =>
    let x := Canvas.column k i
    if x < r.width then r.levelAt x y else .transparent

def packRow (r : Raster) (y : UInt32) (n : Nat) : List UInt8 :=
  (List.range n).map fun k => (r.group y k).toByte

end Raster

namespace PackedMap

/-- The rows of the packed map of a raster, each at its place among the bytes. -/
def rowWrites (r : Raster) (c : Canvas) : List (RowWrite UInt8) :=
  (Span.cut c.packedLength.toNat c.rowBytes.toNat).zipIdx.map fun (span, y) =>
    ⟨span.start, r.packRow (UInt32.ofNat y) span.size⟩

def ofRaster (r : Raster) (c : Canvas) : Except SizeMismatch PackedMap :=
  if r.width = c.width ∧ r.height = c.height then
    .ok {
      canvas := c
      bytes := RowWrite.runAll (rowWrites r c) (Array.replicate c.packedLength.toNat 0)
      size_eq := by simp }
  else .error ⟨c, r.width, r.height⟩

end PackedMap

end TwoBitAlpha
