/-!
Pictures with eight bits each of red, green, blue and alpha, row by row from the top left. A raster may
be empty in either direction; a canvas may not.
-/

namespace TwoBitAlpha

structure Pixel where
  red : UInt8
  green : UInt8
  blue : UInt8
  alpha : UInt8
  deriving DecidableEq

namespace Pixel

def clear : Pixel := ⟨0, 0, 0, 0⟩

def samples (p : Pixel) : List UInt8 := [p.red, p.green, p.blue, p.alpha]

end Pixel

structure Raster where
  width : UInt32
  height : UInt32
  pixels : Array Pixel
  size_eq : pixels.size = width.toNat * height.toNat
  deriving DecidableEq

namespace Raster

def ofFn (width height : UInt32) (f : Nat → Nat → Pixel) : Raster where
  width := width
  height := height
  pixels := Array.ofFn fun i : Fin (width.toNat * height.toNat) =>
    f (i.val % width.toNat) (i.val / width.toNat)
  size_eq := by simp

def blank (width height : UInt32) : Raster where
  width := width
  height := height
  pixels := Array.replicate (width.toNat * height.toNat) Pixel.clear
  size_eq := by simp

def contains (r : Raster) (x y : UInt32) : Bool := x < r.width && y < r.height

def index (r : Raster) (x y : UInt32) : Nat := y.toNat * r.width.toNat + x.toNat

theorem index_lt {r : Raster} {x y : UInt32} (h : r.contains x y = true) :
    r.index x y < r.pixels.size := by
  simp only [contains, Bool.and_eq_true, decide_eq_true_eq, UInt32.lt_iff_toNat_lt] at h
  rw [r.size_eq, index]
  calc y.toNat * r.width.toNat + x.toNat
      < y.toNat * r.width.toNat + r.width.toNat := by omega
    _ = (y.toNat + 1) * r.width.toNat := by rw [Nat.add_mul, Nat.one_mul]
    _ ≤ r.height.toNat * r.width.toNat := Nat.mul_le_mul_right _ h.2
    _ = r.width.toNat * r.height.toNat := Nat.mul_comm _ _

def pixel? (r : Raster) (x y : UInt32) : Option Pixel :=
  if h : r.contains x y then
    have := index_lt h
    some r.pixels[r.index x y]
  else none

/-- Replaces one pixel; outside the raster nothing happens. -/
def setPixel (r : Raster) (x y : UInt32) (p : Pixel) : Raster where
  width := r.width
  height := r.height
  pixels := if r.contains x y then r.pixels.setIfInBounds (r.index x y) p else r.pixels
  size_eq := by split <;> simp [r.size_eq]

end Raster

end TwoBitAlpha
