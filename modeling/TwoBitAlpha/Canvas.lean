/-!
The pixel grid that a packed map is laid out over.

A map carries no header, so its reader and its writer agree on the canvas beforehand. Sizes and
offsets are machine words: coordinates have 32 bits, lengths and offsets 64. A row takes one byte for
every four pixels, and a trailing group of fewer than four still takes a whole byte.
-/

namespace TwoBitAlpha

inductive CanvasError where
  | empty
  deriving DecidableEq

def CanvasError.message : CanvasError → String
  | .empty => "Canvas must not be empty"

/-- A grid of at least one pixel. -/
structure Canvas where
  width : UInt32
  height : UInt32
  width_pos : 0 < width
  height_pos : 0 < height
  deriving DecidableEq

namespace Canvas

def ofSize (width height : UInt32) : Except CanvasError Canvas :=
  if h : 0 < width ∧ 0 < height then .ok ⟨width, height, h.1, h.2⟩ else .error .empty

/-- The display of the calculator that the maps are made for. -/
def screen : Canvas := ⟨320, 240, by decide, by decide⟩

instance : Inhabited Canvas := ⟨screen⟩

def pixelsPerByte : UInt32 := 4

def divUp (n d : UInt32) : UInt32 :=
  if n % d > 0 then n / d + 1 else n / d

def rowBytes (c : Canvas) : UInt64 := (divUp c.width pixelsPerByte).toUInt64

def packedLength (c : Canvas) : UInt64 := c.rowBytes * c.height.toUInt64

def pixelCount (c : Canvas) : UInt64 := c.width.toUInt64 * c.height.toUInt64

/-- Bytes in a row of pixels that have four eight-bit samples each. -/
def sampleStride (c : Canvas) : UInt64 := c.width.toUInt64 * 4

def contains (c : Canvas) (x y : UInt32) : Bool := x < c.width && y < c.height

/-- The position of the byte that holds the pixel at column `x` of row `y`. The formula is defined
outside the canvas too. -/
def offset (c : Canvas) (x y : UInt32) : UInt64 :=
  y.toUInt64 * c.rowBytes + (x / pixelsPerByte).toUInt64

def rowStart (c : Canvas) (y : UInt32) : UInt64 := y.toUInt64 * c.rowBytes

/-- The place of a pixel within its byte, counted from the left. -/
def fieldOf (x : UInt32) : Fin 4 := ⟨(x % pixelsPerByte).toNat, by
  rw [UInt32.toNat_mod]; exact Nat.mod_lt _ (by decide)⟩

/-- The column of field `i` of a group, the groups of a row being numbered from the left. -/
def column (group : Nat) (i : Fin 4) : UInt32 :=
  UInt32.ofNat group * pixelsPerByte + UInt32.ofNat i.val

def text (c : Canvas) : String := s!"{c.width}x{c.height}"

end Canvas

end TwoBitAlpha
