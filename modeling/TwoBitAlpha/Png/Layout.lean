import TwoBitAlpha.Crc32
import TwoBitAlpha.Picture

/-!
The layout of PNG files: a signature, then chunks of a length, a name, data and a checksum.

Pictures are written without compression: their rows go into stored blocks, each row after a filter type of
zero.
-/

namespace TwoBitAlpha.Png

def signature : List UInt8 := [0x89, 0x50, 0x4E, 0x47, 0x0D, 0x0A, 0x1A, 0x0A]

/-- The low `count` bytes of a number, the highest first. -/
def bigEndian : Nat → Nat → List UInt8
  | 0, _ => []
  | count + 1, n => bigEndian count (n / 256) ++ [UInt8.ofNat n]

def ofBigEndian (bytes : List UInt8) : Nat := bytes.foldl (fun n b => n * 256 + b.toNat) 0

def nameBytes (name : String) : List UInt8 := name.toList.map fun c => UInt8.ofNat c.toNat

def chunk (name : String) (data : Array UInt8) : Array UInt8 :=
  let covered := (nameBytes name).toArray ++ data
  (bigEndian 4 data.size).toArray ++ covered ++
    (bigEndian 4 (Crc32.ofBytes covered).toNat).toArray

/-- Whether colors, and whether alpha, as the header numbers it. -/
def colorType : Channels → UInt8
  | .grey => 0
  | .rgb => 2
  | .greyAlpha => 4
  | .rgba => 6

def header (p : Picture) : Array UInt8 :=
  (bigEndian 4 p.width.toNat ++ bigEndian 4 p.height.toNat ++
    [if p.format.wide then 16 else 8, colorType p.format.channels, 0, 0, 0]).toArray

/-- The rows of a picture, each after a zero for its filter type. -/
def filteredRows (p : Picture) : Array UInt8 :=
  let stride := p.width.toNat * p.format.pixelBytes
  (List.range p.height.toNat).foldl
    (fun out y => out.push 0 ++ p.bytes.extract (y * stride) (y * stride + stride)) #[]

/-- The checksum of a compressed stream: two sums modulo 65521. -/
def adler32 (bytes : Array UInt8) : Nat :=
  let (a, b) := bytes.foldl
    (fun (a, b) byte =>
      let a := (a + byte.toNat) % 65521
      (a, (b + a) % 65521))
    ((1, 0) : Nat × Nat)
  b * 65536 + a

def blockLimit : Nat := 65535

def storedBlock (last : Bool) (bytes : Array UInt8) : Array UInt8 :=
  let size := bytes.size
  #[if last then 1 else 0, UInt8.ofNat size, UInt8.ofNat (size / 256),
    UInt8.ofNat (blockLimit - size), UInt8.ofNat ((blockLimit - size) / 256)] ++ bytes

/-- Bytes as a compressed stream of stored blocks. -/
def store (bytes : Array UInt8) : Array UInt8 :=
  let full := bytes.size / blockLimit
  let blocks := (List.range full).foldl
    (fun out k => out ++ storedBlock false (bytes.extract (k * blockLimit) ((k + 1) * blockLimit)))
    #[0x78, 0x01]
  blocks ++ storedBlock true (bytes.extract (full * blockLimit) bytes.size) ++
    (bigEndian 4 (adler32 bytes)).toArray

def encode (p : Picture) : Array UInt8 :=
  signature.toArray ++ chunk "IHDR" (header p) ++ chunk "IDAT" (store (filteredRows p)) ++
    chunk "IEND" #[]

end TwoBitAlpha.Png
