import TwoBitAlpha.Raster

/-!
Colors in one byte: three bits of red, three of green and two of blue, from the highest bit down.
-/

namespace TwoBitAlpha.Rgb332

def red (color : UInt8) : UInt8 := (color >>> 5) &&& 7

def green (color : UInt8) : UInt8 := (color >>> 2) &&& 7

def blue (color : UInt8) : UInt8 := color &&& 3

/-- Stretches a channel from `0 … top` to `0 … 255`, rounding down. -/
def expand (channel : UInt8) (top : UInt16) : UInt8 := (channel.toUInt16 * 255 / top).toUInt8

def toPixel (color : UInt8) : Pixel :=
  ⟨expand (red color) 7, expand (green color) 7, expand (blue color) 3, 255⟩

end TwoBitAlpha.Rgb332
