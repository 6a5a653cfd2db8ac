import TwoBitAlpha.FileTree
import TwoBitAlpha.Png.Reading
import TwoBitAlpha.Resampling

/-!
Picture files: which format an extension stands for, and how a raster is loaded and saved.

The extension alone decides on the format, without regard to case. PNG files can be loaded and saved, and JPEG files
can be loaded. How a picture is read from JPEG is left open: whatever loads a file is given the decoder. The other
formats are known by name, and no picture comes out of them.
-/

namespace TwoBitAlpha

inductive PictureFormat where
  | png
  | jpeg
  /-- A format that is known by name alone. -/
  | unread
  deriving DecidableEq

inductive LoadError where
  /-- The file cannot be read to the end of what it promises. -/
  | unreadable
  | unsupportedFormat
  /-- The picture takes more bytes than it may. -/
  | tooLarge
  /-- The color table ends within a color, of which `rest` bytes are there. Nothing can go on after this. -/
  | brokenTable (rest : Nat)
  | malformed
  /-- The picture cannot be resampled to the size that is asked for. Nothing can go on after this. -/
  | undefinedWeights
  deriving DecidableEq

def brokenTableMessage (rest : Nat) : String :=
  s!"range end index 3 out of range for slice of length {rest}"

namespace PictureFormat

def unreadExtensions : List String :=
  ["avif", "gif", "webp", "tif", "tiff", "tga", "dds", "bmp", "ico", "hdr", "exr", "pbm", "pam",
    "ppm", "pgm", "pnm", "ff", "qoi"]

def ofExtension? (extension : String) : Option PictureFormat :=
  let e := extension.toLower
  if ["png", "apng"].contains e then some .png
  else if ["jpg", "jpeg", "jfif"].contains e then some .jpeg
  else if unreadExtensions.contains e then some .unread
  else none

def ofPath? (p : Path) : Option PictureFormat := do ofExtension? (← p.extension?)

end PictureFormat

def LoadError.ofFault : Png.Fault → LoadError
  | .brokenOff | .misfit => unreadable
  | .tooLarge => tooLarge
  | .brokenTable rest => brokenTable rest
  | .malformed => malformed

def Contents.toPicture : Contents → Except LoadError Picture
  | bytes data => (Png.decode data).mapError .ofFault
  | picture p => .ok p

/-- The picture that the bytes of a JPEG file hold. -/
abbrev JpegDecoder := Array UInt8 → Except LoadError Picture

def noJpeg : JpegDecoder := fun _ => .error .malformed

namespace Raster

def ofFile (jpeg : JpegDecoder) (p : Path) (found : Except AccessError Contents) : Except LoadError Raster :=
  match found with
  | .error .notFound | .error .notDirectory | .error .tooLong => .error .unreadable
  | .error .isDirectory =>
    match PictureFormat.ofPath? p with
    | some .png | some .jpeg => .error .unreadable
    | _ => .error .unsupportedFormat
  | .ok contents =>
    match PictureFormat.ofPath? p with
    | some .png => contents.toPicture.map Picture.toRaster
    | some .jpeg => (jpeg contents.toBytes).map Picture.toRaster
    | _ => .error .unsupportedFormat

def load (jpeg : JpegDecoder) (p : Path) (found : Except AccessError Contents) (c : Canvas) :
    Except LoadError Raster := do
  let r ← ofFile jpeg p found
  (r.fit c).elim (.error .undefinedWeights) .ok

end Raster

end TwoBitAlpha
