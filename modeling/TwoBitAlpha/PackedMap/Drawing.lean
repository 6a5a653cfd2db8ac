import TwoBitAlpha.PackedMap
import TwoBitAlpha.Raster
import TwoBitAlpha.RowWrite

/-!
From packed bytes to one entry a pixel.

`draw` walks the bytes row by row and gives every pixel of the canvas the entry of its level; the padding
fields at the end of a row have no pixel and are dropped. A picture in white with the decoded alpha
is one such drawing.
-/

namespace TwoBitAlpha

def Level.whitePixel (l : Level) : Pixel := ⟨255, 255, 255, l.alpha⟩

namespace PackedMap

def rowLevels (row : List UInt8) (n : Nat) : List Level :=
  (row.zip (Span.cut n 4)).flatMap fun (byte, span) => (Group.ofByte byte).toList.take span.size

/-- The rows of a drawing, each at its place among the entries. -/
def drawWrites {α : Type} (entry : Level → α) (bytes : Array UInt8) (c : Canvas) :
    List (RowWrite α) :=
  ((Span.cut c.pixelCount.toNat c.width.toNat).zip (Span.cut bytes.size c.rowBytes.toNat)).map
    fun (pixels, row) => ⟨pixels.start, (rowLevels (row.read bytes) pixels.size).map entry⟩

/-- One entry for each pixel of the canvas, in scan order. -/
def draw {α : Type} (entry : Level → α) (blank : α) (bytes : Array UInt8) (c : Canvas) : Array α :=
  RowWrite.runAll (drawWrites entry bytes c) (Array.replicate c.pixelCount.toNat blank)

@[simp] theorem size_draw {α : Type} (entry : Level → α) (blank : α) (bytes : Array UInt8)
    (c : Canvas) : (draw entry blank bytes c).size = c.pixelCount.toNat := by
  simp [draw]

end PackedMap

theorem Canvas.pixelCount_toNat (c : Canvas) :
    c.pixelCount.toNat = c.width.toNat * c.height.toNat := by
  have hw := c.width.toNat_lt
  have hh := c.height.toNat_lt
  have : c.width.toNat * c.height.toNat < 2 ^ 32 * 2 ^ 32 := Nat.mul_lt_mul'' hw hh
  simp only [pixelCount, UInt64.toNat_mul, UInt32.toNat_toUInt64]
  exact Nat.mod_eq_of_lt (by omega)

namespace Raster

def whiteOf (bytes : Array UInt8) (c : Canvas) : Raster where
  width := c.width
  height := c.height
  pixels := PackedMap.draw Level.whitePixel Pixel.clear bytes c
  size_eq := by rw [PackedMap.size_draw, c.pixelCount_toNat]

def ofPackedBytes (bytes : Array UInt8) (c : Canvas) : Except LengthMismatch Raster :=
  if bytes.size = c.packedLength.toNat then .ok (whiteOf bytes c)
  else .error ⟨c.packedLength, UInt64.ofNat bytes.size⟩

end Raster

def PackedMap.toRaster (m : PackedMap) : Raster := Raster.whiteOf m.bytes m.canvas

end TwoBitAlpha
