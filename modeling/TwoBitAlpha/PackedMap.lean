import TwoBitAlpha.Canvas
import TwoBitAlpha.Crc32
import TwoBitAlpha.Group

/-!
Packed alpha maps: a canvas and exactly as many bytes as the canvas asks for.

The length is checked once, where a map is made of bytes, and is part of the type from then on. Every
row and every pixel of the canvas is found inside the bytes.
-/

namespace TwoBitAlpha

structure LengthMismatch where
  expected : UInt64
  found : UInt64
  deriving DecidableEq

def LengthMismatch.message (e : LengthMismatch) : String :=
  s!"Packed stream is {e.found} bytes long, expected {e.expected}"

structure PackedMap where
  canvas : Canvas
  bytes : Array UInt8
  size_eq : bytes.size = canvas.packedLength.toNat
  deriving DecidableEq

namespace PackedMap

/-- Takes bytes as they are, padding included, if there are as many as the canvas asks for. -/
def ofBytes (bytes : Array UInt8) (canvas : Canvas) : Except LengthMismatch PackedMap :=
  if h : bytes.size = canvas.packedLength.toNat then .ok ⟨canvas, bytes, h⟩
  else .error ⟨canvas.packedLength, UInt64.ofNat bytes.size⟩

def length (m : PackedMap) : Nat := m.bytes.size

def isEmpty (m : PackedMap) : Bool := m.bytes.isEmpty

def checksum (m : PackedMap) : UInt32 := Crc32.ofBytes m.bytes

def row? (m : PackedMap) (y : UInt32) : Option (Array UInt8) :=
  if y < m.canvas.height then
    let start := m.canvas.rowStart y
    some (m.bytes.extract start.toNat (start + m.canvas.rowBytes).toNat)
  else none

def levelAt? (m : PackedMap) (x y : UInt32) : Option Level :=
  if m.canvas.contains x y then
    (m.bytes[(m.canvas.offset x y).toNat]?).map fun b => Group.field b (Canvas.fieldOf x)
  else none

end PackedMap

end TwoBitAlpha
