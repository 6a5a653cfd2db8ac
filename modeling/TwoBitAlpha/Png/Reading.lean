import TwoBitAlpha.Png.ImageData
import TwoBitAlpha.RowWrite

/-!
Pictures from PNG files: all color types and depths, with or without interlacing.

Colors from a table and grey of less than eight bits are brought to eight bits a sample, and a transparent color
becomes an alpha channel. Nothing is read beyond the name of the chunk that follows the image data.
-/

namespace TwoBitAlpha.Png

/-- Most bytes that can be told apart in memory. A picture of more is refused before anything behind the header is
looked at. -/
def addressableBytes : Nat := Nat.pow 2 63 - 1

def pictureSize (p : Preamble) : Nat := p.header.width * p.header.height * (formatOf p).pixelBytes

/-- Whether a picture would take too much memory: as a whole, or one row of it beside what the chunks have taken. -/
def isTooLarge (p : Preamble) : Bool :=
  maxMemory < pictureSize p || maxMemory < p.memory.used + p.header.width * (formatOf p).pixelBytes

def placeRow (p : Preamble) (pass : Pass) (out : Array UInt8) (row : List (List UInt8) × Nat) :
    Array UInt8 :=
  let size := (formatOf p).pixelBytes
  row.1.zipIdx.foldl (fun out (pixel, x) =>
    let i := (pass.y + row.2 * pass.dy) * p.header.width + pass.x + x * pass.dx
    writeFrom out (i * size) pixel) out

def placeRows (p : Preamble) (rows : List (Pass × List (List (List UInt8)))) : Array UInt8 :=
  rows.foldl (fun out (pass, rows) => rows.zipIdx.foldl (placeRow p pass) out)
    (Array.replicate (pictureSize p) 0)

def pictureOf (p : Preamble) (bytes : Array UInt8) : Except Fault Picture :=
  let w := UInt32.ofNat p.header.width
  let t := UInt32.ofNat p.header.height
  let f := formatOf p
  if size : bytes.size = w.toNat * t.toNat * f.pixelBytes then .ok ⟨w, t, f, bytes, size⟩
  else .error .malformed

def decode (bytes : Array UInt8) : Except Fault Picture := do
  checkSignature bytes
  let (first, next) ← firstChunk bytes
  let start := Preamble.ofHeader (← Header.ofChunk first)
  if addressableBytes < pictureSize start then throw .tooLarge
  let (p, i) ← Preamble.readFrom bytes bytes.size start next
  if isTooLarge p then throw .tooLarge
  let rows ← rowsOf p (.readFrom bytes i)
  pictureOf p (placeRows p rows)

end TwoBitAlpha.Png
