import TwoBitAlpha.Deflate.Expansion
import TwoBitAlpha.Png.Chunk

/-!
The color profile of a PNG file: a name, the compression method and a compressed stream. Its colors do not show, but
the profile takes memory.
-/

namespace TwoBitAlpha.Png

def maxProfileName : Nat := 80

/-- The bytes that a compressed stream stands for, if it is complete and its checksum is right. -/
def expanded? (stream : Array UInt8) : Option (Array UInt8) :=
  match Deflate.Expansion.start.goOn ⟨stream, stream.size⟩ maxLength with
  | .error _ => none
  | .ok e =>
    if e.isFinished && wordAt stream (e.position / 8 - 4) == adler32 e.out then some e.out else none

/-- The profile in the data of its chunk. The name ends with a zero byte, and the method is zero. -/
def profile? (data : Array UInt8) : Option (Array UInt8) := do
  let i ← data.findIdx? (· == 0)
  if i = 0 ∨ maxProfileName < i ∨ data[i + 1]? ≠ some 0 then none
  else expanded? (data.extract (i + 2) data.size)

end TwoBitAlpha.Png
