import TwoBitAlpha.Canvas
import TwoBitAlpha.Raster
import TwoBitAlpha.Resampling.Lanczos

/-!
Bringing a raster to the size of a canvas.

Each channel is resampled as a plane by itself: rows first, with the results kept as they are, then columns.
Only the end result is clamped and rounded. A raster that has the right size already is not touched.

A window without proper weights gives samples that cannot be rounded. There is no raster then, and the program
that asked for it cannot go on.
-/

namespace TwoBitAlpha.Resampling

/-- One channel of a picture, in scan order. -/
structure Plane where
  width : Nat
  values : Array Float32

namespace Plane

def ofFn (width height : Nat) (f : Nat → Nat → Float32) : Plane where
  width := width
  values := Array.ofFn fun i : Fin (width * height) => f (i.val % width) (i.val / width)

def value (p : Plane) (x y : Nat) : Float32 := p.values.getD (y * p.width + x) 0

def ofRaster (r : Raster) (channel : Pixel → UInt8) : Plane where
  width := r.width.toNat
  values := r.pixels.map fun p => (channel p).toFloat32

def windows (n m : Nat) : Array Window := (Array.range m).map (window n m)

def resampleRows (p : Plane) (n m : Nat) : Plane :=
  let ws := windows n m
  ofFn p.width m fun x y => (ws.getD y ⟨0, #[]⟩).mix fun i => p.value x i

/-- Turns the `n` columns of a plane with `height` rows into `m`. -/
def resampleColumns (p : Plane) (height n m : Nat) : Plane :=
  let ws := windows n m
  ofFn m height fun x y => (ws.getD x ⟨0, #[]⟩).mix fun i => p.value i y

end Plane

/-- The nearest eight-bit sample; a half goes away from zero. Proper weights give numbers, so `v` is one. -/
def quantize (v : Float32) : UInt8 :=
  (if v < 0 then 0 else if v > 255 then 255 else v).round.toUInt8

def channel (r : Raster) (width height : UInt32) (get : Pixel → UInt8) : Plane :=
  ((Plane.ofRaster r get).resampleRows r.height.toNat height.toNat).resampleColumns
    height.toNat r.width.toNat width.toNat

/-- Whether each of the first `k` samples has proper weights when `n` samples become `m`. -/
def windowsDefined (n m : Nat) : Nat → Bool
  | 0 => true
  | o + 1 => (window n m o).isDefined && windowsDefined n m o

/-- Whether all weights are numbers on the way to another size. This does not depend on the pixels. -/
def canResize (r : Raster) (width height : UInt32) : Bool :=
  windowsDefined r.height.toNat height.toNat height.toNat &&
    windowsDefined r.width.toNat width.toNat width.toNat

/-- The raster that comes of mixing, whatever the weights are. -/
def mixed (r : Raster) (width height : UInt32) : Raster :=
  let red := channel r width height Pixel.red
  let green := channel r width height Pixel.green
  let blue := channel r width height Pixel.blue
  let alpha := channel r width height Pixel.alpha
  Raster.ofFn width height fun x y =>
    ⟨quantize (red.value x y), quantize (green.value x y), quantize (blue.value x y),
      quantize (alpha.value x y)⟩

/-- A raster at another size. One without pixels gives clear pixels. -/
def resize (r : Raster) (width height : UInt32) : Option Raster :=
  if r.width = 0 ∨ r.height = 0 then some (Raster.blank width height)
  else if canResize r width height then some (mixed r width height)
  else none

def undefinedMessage : String := "called `Option::unwrap()` on a `None` value"

end TwoBitAlpha.Resampling

namespace TwoBitAlpha.Raster

def hasSizeOf (r : Raster) (c : Canvas) : Bool := r.width == c.width && r.height == c.height

/-- The raster at the size of a canvas, whatever its proportions were. -/
def fit (r : Raster) (c : Canvas) : Option Raster :=
  if r.hasSizeOf c then some r else Resampling.resize r c.width c.height

end TwoBitAlpha.Raster
