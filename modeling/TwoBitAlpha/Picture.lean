import TwoBitAlpha.Raster

/-!
Pictures as files hold them: one to four samples a pixel, of eight or sixteen bits each.

`Picture.toRaster` brings every kind to eight bits of red, green, blue and alpha.
-/

namespace TwoBitAlpha

inductive Channels where
  | grey
  | greyAlpha
  | rgb
  | rgba
  deriving DecidableEq

def Channels.count : Channels → Nat
  | grey => 1
  | greyAlpha => 2
  | rgb => 3
  | rgba => 4

/-- The samples of a pixel, and whether each has sixteen bits instead of eight. -/
structure PixelFormat where
  channels : Channels
  wide : Bool
  deriving DecidableEq

namespace PixelFormat

def sampleBytes (f : PixelFormat) : Nat := if f.wide then 2 else 1

def pixelBytes (f : PixelFormat) : Nat := f.channels.count * f.sampleBytes

def rgba8 : PixelFormat := ⟨.rgba, false⟩

end PixelFormat

/-- The nearest eight-bit sample to a sixteen-bit one. -/
def narrow (high low : UInt8) : UInt8 :=
  UInt8.ofNat ((high.toNat * 256 + low.toNat + 128) / 257)

structure Picture where
  width : UInt32
  height : UInt32
  format : PixelFormat
  /-- The samples in scan order, those of one pixel side by side, the high byte of a wide one first. -/
  bytes : Array UInt8
  size_eq : bytes.size = width.toNat * height.toNat * format.pixelBytes
  deriving DecidableEq

namespace Picture

def sample (p : Picture) (i k : Nat) : UInt8 :=
  let start := i * p.format.pixelBytes + k * p.format.sampleBytes
  if p.format.wide then narrow (p.bytes.getD start 0) (p.bytes.getD (start + 1) 0)
  else p.bytes.getD start 0

/-- Grey counts for all three colors, and a missing alpha for full coverage. -/
def pixel (p : Picture) (i : Nat) : Pixel :=
  let s := p.sample i
  match p.format.channels with
  | .grey => ⟨s 0, s 0, s 0, 255⟩
  | .greyAlpha => ⟨s 0, s 0, s 0, s 1⟩
  | .rgb => ⟨s 0, s 1, s 2, 255⟩
  | .rgba => ⟨s 0, s 1, s 2, s 3⟩

def toRaster (p : Picture) : Raster where
  width := p.width
  height := p.height
  pixels := Array.ofFn fun i : Fin (p.width.toNat * p.height.toNat) => p.pixel i.val
  size_eq := by simp

end Picture

def Raster.samples (r : Raster) : Array UInt8 :=
  Array.ofFn fun i : Fin (r.width.toNat * r.height.toNat * 4) =>
    let p := r.pixels.getD (i.val / 4) Pixel.clear
    if i.val % 4 = 0 then p.red
    else if i.val % 4 = 1 then p.green
    else if i.val % 4 = 2 then p.blue
    else p.alpha

def Picture.ofRaster (r : Raster) : Picture where
  width := r.width
  height := r.height
  format := .rgba8
  bytes := r.samples
  size_eq := by
    rw [show PixelFormat.rgba8.pixelBytes = 4 from rfl, Raster.samples, Array.size_ofFn]

end TwoBitAlpha
