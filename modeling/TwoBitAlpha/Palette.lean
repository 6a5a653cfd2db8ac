import TwoBitAlpha.PackedMap.Drawing
import TwoBitAlpha.Rgb332

/-!
Palettes, and what a device with a palette shows of a packed map.
-/

namespace TwoBitAlpha

/-- A name and the color in which each level is drawn, as `Rgb332` bytes. -/
structure Palette where
  name : String
  colors : Vector UInt8 4
  deriving DecidableEq

namespace Palette

def device : Palette := ⟨"ti84", #v[0x00, 0x25, 0x49, 0x49]⟩

def known : List Palette := [device]

def ofName? (name : String) : Option Palette := known.find? (·.name == name)

def color (p : Palette) (l : Level) : UInt8 :=
  p.colors.get ⟨l.toBits.toNat, UInt8.lt_iff_toNat_lt.mp l.toBits_lt⟩

/-- One color byte for each pixel of a map, in scan order. -/
def framebuffer (p : Palette) (m : PackedMap) : Array UInt8 :=
  PackedMap.draw p.color 0 m.bytes m.canvas

/-- The place of a pixel in the framebuffer, in 32-bit arithmetic. -/
def framebufferIndex (c : Canvas) (x y : UInt32) : UInt32 := y * c.width + x

def preview (p : Palette) (m : PackedMap) : Raster :=
  let shown := p.framebuffer m
  Raster.ofFn m.canvas.width m.canvas.height fun x y =>
    let i := framebufferIndex m.canvas (UInt32.ofNat x) (UInt32.ofNat y)
    Rgb332.toPixel (shown.getD i.toNat 0)

end Palette

end TwoBitAlpha
