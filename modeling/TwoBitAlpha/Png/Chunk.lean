import TwoBitAlpha.Png.Layout

/-!
The chunks of a PNG file, one after the other behind the signature.

The case of a chunk's name tells whether a reader has to know it. A chunk with a wrong checksum is not sound; that
matters only for chunks that a reader has to know. What the name and the length alone forbid counts before the chunk
is complete.
-/

namespace TwoBitAlpha.Png

inductive Fault where
  /-- The file ends before the picture is complete, and is right so far. -/
  | brokenOff
  /-- A background or code points that no picture like this can have. -/
  | misfit
  /-- The picture takes more bytes than it may. -/
  | tooLarge
  /-- A pixel is asked for whose color table ends within a color, of which `rest` bytes are there. -/
  | brokenTable (rest : Nat)
  | malformed
  deriving DecidableEq

structure Chunk where
  name : List UInt8
  data : Array UInt8
  /-- Whether the checksum is right. -/
  sound : Bool

/-- Whether a reader has to know chunks of a name. -/
def isCritical (name : List UInt8) : Bool := name.headD 0 &&& 0x20 == 0

def Chunk.isNamed (c : Chunk) (name : String) : Bool := c.name == nameBytes name

def wordAt (bytes : Array UInt8) (i : Nat) : Nat := ofBigEndian (bytes.extract i (i + 4)).toList

def nameAt (bytes : Array UInt8) (i : Nat) : List UInt8 := (bytes.extract (i + 4) (i + 8)).toList

def dataEnd (bytes : Array UInt8) (i : Nat) : Nat := i + 8 + wordAt bytes i

def isSound (bytes : Array UInt8) (i : Nat) : Bool :=
  let finish := dataEnd bytes i
  (Crc32.ofBytes (bytes.extract (i + 4) finish)).toNat == wordAt bytes finish

def chunkAt (bytes : Array UInt8) (i : Nat) : Except Fault (Chunk × Nat) :=
  let finish := dataEnd bytes i
  if bytes.size < i + 8 ∨ bytes.size < finish + 4 then .error .brokenOff
  else .ok (⟨nameAt bytes i, bytes.extract (i + 8) finish, isSound bytes i⟩, finish + 4)

/-- The signature may break off, but it may not be another. -/
def checkSignature (bytes : Array UInt8) : Except Fault Unit :=
  let start := (bytes.take 8).toList
  if start.length < 4 then .error .brokenOff
  else if start.take 4 ≠ signature.take 4 then .error .malformed
  else if start.length < 8 then .error .brokenOff
  else if start ≠ signature then .error .malformed
  else .ok ()

def maxLength : Nat := Nat.pow 2 32 - 1

/-- The chunks that are looked at before the image data, with the least and the greatest length. -/
def lengthLimits : List (String × Nat × Nat) :=
  [("IHDR", 13, 13), ("PLTE", 3, 768), ("IEND", 0, 0), ("fcTL", 26, 26), ("tRNS", 1, 256),
    ("bKGD", 1, 6), ("cICP", 4, 4), ("sBIT", 1, 4), ("iCCP", 0, maxLength), ("eXIf", 0, maxLength),
    ("tEXt", 0, maxLength), ("zTXt", 0, maxLength), ("iTXt", 0, maxLength)]

/-- Whether a chunk of a name and a length is looked at. Others are passed over. -/
def isLookedAt (name : List UInt8) (length : Nat) : Bool :=
  lengthLimits.any fun (known, least, most) =>
    nameBytes known == name && least ≤ length && length ≤ most

/-- Whether a chunk of a name and a length may stand before the image data. Critical chunks have to be looked at, and
so have the frames of an animation. The images of an animation do not come first. -/
def mayPrecede (name : List UInt8) (length : Nat) : Bool :=
  isLookedAt name length ||
    !(isCritical name || name == nameBytes "fcTL" || name == nameBytes "fdAT")

structure Span where
  start : Nat
  finish : Nat

/-- Where the image data stand in a file, from the chunk at a position on, and whether they end as they should: before
a chunk of another name. -/
def imageSpans (bytes : Array UInt8) : Nat → Nat → List Span × Except Fault Unit
  | 0, _ => ([], .error .brokenOff)
  | bound + 1, i =>
    let finish := dataEnd bytes i
    if bytes.size < i + 8 then ([], .error .brokenOff)
    else if nameAt bytes i ≠ nameBytes "IDAT" then ([], .ok ())
    else if bytes.size = i + 8 then ([], .error .brokenOff)
    else if bytes.size < finish + 4 then ([⟨i + 8, min finish bytes.size⟩], .error .brokenOff)
    else if isSound bytes i then
      let (spans, ending) := imageSpans bytes bound (finish + 4)
      (⟨i + 8, finish⟩ :: spans, ending)
    else ([⟨i + 8, finish⟩], .error .malformed)

end TwoBitAlpha.Png
