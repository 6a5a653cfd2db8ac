import TwoBitAlpha.PackedMap.Packing
import TwoBitAlpha.Palette
import TwoBitAlpha.Resampling

/-!
Runs of conversions between pictures and packed maps.

At every moment there is either a raster or a packed map; a conversion that fails has no result, and the one
before it stays.
-/

namespace TwoBitAlpha

inductive Form where
  | raster (r : Raster)
  | packed (m : PackedMap)

inductive Conversion where
  /-- Packs a raster. -/
  | pack (c : Canvas)
  | fit (c : Canvas)
  | setPixel (x y : UInt32) (p : Pixel)
  /-- Decodes the bytes of a packed map on a canvas. -/
  | unpack (c : Canvas)
  /-- The white picture of a packed map. -/
  | picture
  | preview (p : Palette)
  /-- Takes the bytes of a packed map for those of another canvas. -/
  | rewrap (c : Canvas)
  | setByte (i : Nat) (b : UInt8)

inductive ConversionError where
  | size (e : SizeMismatch)
  | length (e : LengthMismatch)
  /-- The raster cannot be resampled. -/
  | undefinedWeights
  /-- The conversion is for a form of the other kind. -/
  | notApplicable
  deriving DecidableEq

/-- A map with one byte replaced; beyond its end nothing happens. -/
def PackedMap.setByte (m : PackedMap) (i : Nat) (b : UInt8) : PackedMap where
  canvas := m.canvas
  bytes := m.bytes.setIfInBounds i b
  size_eq := by rw [Array.size_setIfInBounds, m.size_eq]

namespace Form

def convert : Form → Conversion → Except ConversionError Form
  | raster r, .pack c => ((PackedMap.ofRaster r c).mapError .size).map packed
  | raster r, .fit c => (r.fit c).elim (.error .undefinedWeights) (.ok ∘ raster)
  | raster r, .setPixel x y p => .ok (raster (r.setPixel x y p))
  | packed m, .unpack c => ((Raster.ofPackedBytes m.bytes c).mapError .length).map raster
  | packed m, .picture => .ok (raster m.toRaster)
  | packed m, .preview p => .ok (raster (p.preview m))
  | packed m, .rewrap c => ((PackedMap.ofBytes m.bytes c).mapError .length).map packed
  | packed m, .setByte i b => .ok (packed (m.setByte i b))
  | _, _ => .error .notApplicable

/-- Runs conversions one after the other, up to the first that fails. -/
def run (form : Form) (conversions : List Conversion) : Except ConversionError Form :=
  conversions.foldlM convert form

end Form

end TwoBitAlpha
