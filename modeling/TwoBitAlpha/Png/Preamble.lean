import TwoBitAlpha.Png.Memory
import TwoBitAlpha.Png.Profile

/-!
What a PNG file says before its image data: the header, the color table, the transparency and the frame of an
animation. Texts, profiles and the like do not show, but they take memory.

Chunks that a reader need not know are passed over when anything is wrong with them. The exceptions are the frame of
an animation, the background, and the code points that name a color space.
-/

namespace TwoBitAlpha.Png

structure Header where
  width : Nat
  height : Nat
  depth : Nat
  color : Nat
  interlaced : Bool

namespace Header

def channels (h : Header) : Nat :=
  if h.color = 2 then 3 else if h.color = 4 then 2 else if h.color = 6 then 4 else 1

def bitsPerPixel (h : Header) : Nat := h.channels * h.depth

def rowBytes (h : Header) (width : Nat) : Nat := (width * h.bitsPerPixel + 7) / 8

def hasTable (h : Header) : Bool := h.color == 3

def hasAlpha (h : Header) : Bool := h.color == 4 || h.color == 6

def isValid (h : Header) : Bool :=
  let depths :=
    if h.color = 0 then [1, 2, 4, 8, 16]
    else if h.color = 3 then [1, 2, 4, 8]
    else if h.color = 2 ∨ h.color = 4 ∨ h.color = 6 then [8, 16]
    else []
  depths.contains h.depth && 0 < h.width && 0 < h.height

def size : Nat := 13

def ofChunk (c : Chunk) : Except Fault Header :=
  let byte (i : Nat) : Nat := (c.data.getD i 0).toNat
  let h : Header := {
    width := wordAt c.data 0
    height := wordAt c.data 4
    depth := byte 8
    color := byte 9
    interlaced := byte 12 == 1 }
  if c.sound ∧ c.data.size = size ∧ byte 10 = 0 ∧ byte 11 = 0 ∧ byte 12 ≤ 1 ∧ h.isValid then .ok h
  else .error .malformed

end Header

/-- The first chunk, which has to be the header. Its name and its length count before it is complete. -/
def firstChunk (bytes : Array UInt8) : Except Fault (Chunk × Nat) :=
  if bytes.size < 16 then .error .brokenOff
  else if nameAt bytes 8 ≠ nameBytes "IHDR" ∨ wordAt bytes 8 ≠ Header.size then .error .malformed
  else chunkAt bytes 8

structure Preamble where
  header : Header
  /-- Red, green and blue of each entry of the color table. The last entry may lack some of them. -/
  table : Option (Array UInt8)
  /-- The alphas of the first entries of the color table, or else the samples of the one clear color. -/
  transparency : Option (List UInt8)
  /-- The number of the last frame of an animation that was announced. -/
  frame : Option Nat
  /-- Whether the code points of the color space have been told. -/
  codePoints : Bool
  /-- Whether it has been told how many bits of the samples count. -/
  sampleBits : Bool
  /-- Whether a color profile has been there. -/
  profile : Bool
  memory : Memory

namespace Preamble

def ofHeader (h : Header) : Preamble := {
  header := h
  table := none
  transparency := none
  frame := none
  codePoints := false
  sampleBits := false
  profile := false
  memory := .start }

def keep (p : Preamble) (count : Nat) : Preamble := { p with memory := p.memory.keep count }

def takeTable (p : Preamble) (data : Array UInt8) : Except Fault Preamble :=
  if p.table.isNone then .ok { p.keep data.size with table := some data } else .error .malformed

/-- The samples of the clear color. Of samples with less than sixteen bits only the low byte counts. -/
def clearColor (h : Header) (data : Array UInt8) : Option (List UInt8) :=
  if data.size < 2 * h.channels then none
  else if h.depth = 16 then some data.toList
  else some ((List.range h.channels).map fun k => data.getD (2 * k + 1) 0)

/-- What transparency data mean. Alphas come after their color table; if there are more of them than colors, none
of them counts. -/
def transparencyOf (p : Preamble) (data : Array UInt8) : Option (List UInt8) :=
  if p.header.hasAlpha then none
  else if p.header.hasTable then
    p.table.map fun table => if data.size ≤ table.size / 3 then data.toList else []
  else clearColor p.header data

/-- Takes in the transparency. The first that fits counts. -/
def takeTransparency (p : Preamble) (data : Array UInt8) : Preamble :=
  if p.transparency.isSome then p
  else { p.keep data.size with transparency := p.transparencyOf data }

/-- Takes in the frame that the image is in an animation. Frames are numbered from zero, and this one covers the
whole picture. -/
def takeFrame (p : Preamble) (data : Array UInt8) : Except Fault Preamble :=
  let byte (i : Nat) : Nat := (data.getD i 0).toNat
  let next := (p.frame.map (· + 1)).getD 0
  let rectangle := (List.range 4).map fun k => wordAt data (4 + 4 * k)
  if wordAt data 0 = next ∧ rectangle = [p.header.width, p.header.height, 0, 0] ∧
      byte 24 ≤ 2 ∧ byte 25 ≤ 1 then
    .ok { p with frame := some next }
  else .error .malformed

/-- Looks at the background, which does not show. It can tell a color by its number only after the table. -/
def checkBackground (p : Preamble) : Except Fault Unit :=
  if p.header.hasTable ∧ p.table.isNone then .error .misfit else .ok ()

/-- Takes in the code points of the color space, the first that are told before the color table. Samples stand
for red, green and blue as they are, and their range is full or not. -/
def takeCodePoints (p : Preamble) (data : Array UInt8) : Except Fault Preamble :=
  if p.codePoints ∨ p.table.isSome then .ok p
  else if data.getD 2 0 ≠ 0 ∨ 1 < data.getD 3 0 then .error .misfit
  else .ok { p with codePoints := true }

/-- Whether data tell for each sample of a color how many of its bits count. -/
def areSampleBits (h : Header) (data : Array UInt8) : Bool :=
  let depth := if h.hasTable then 8 else h.depth
  data.size == (if h.hasTable then 3 else h.channels) &&
    data.all fun b => 1 ≤ b.toNat && b.toNat ≤ depth

/-- Takes in how many bits of the samples count, the first that is told before the color table. -/
def takeSampleBits (p : Preamble) (data : Array UInt8) : Preamble :=
  if p.sampleBits ∨ p.table.isSome then p
  else { p.keep data.size with sampleBits := areSampleBits p.header data }

/-- Takes in the color profile. Only the first counts, even if it is not right. -/
def takeProfile (p : Preamble) (data : Array UInt8) : Preamble :=
  if p.profile then p
  else { p.keep (((profile? data).map Array.size).getD 0) with profile := true }

def textNames : List String := ["tEXt", "zTXt", "iTXt"]

def takeSound (p : Preamble) (c : Chunk) : Except Fault Preamble :=
  if c.isNamed "PLTE" then p.takeTable c.data
  else if c.isNamed "tRNS" then .ok (p.takeTransparency c.data)
  else if c.isNamed "fcTL" then p.takeFrame c.data
  else if c.isNamed "bKGD" then p.checkBackground.map fun _ => p
  else if c.isNamed "cICP" then p.takeCodePoints c.data
  else if c.isNamed "sBIT" then .ok (p.takeSampleBits c.data)
  else if c.isNamed "iCCP" then .ok (p.takeProfile c.data)
  else if textNames.any c.isNamed then .ok (p.keep c.data.size)
  else if isCritical c.name then .error .malformed
  else .ok p

def take (p : Preamble) (c : Chunk) : Except Fault Preamble :=
  if !isLookedAt c.name c.data.size then .ok p
  else
    let p := { p with memory := p.memory.read c.data.size }
    if c.sound then p.takeSound c
    else if isCritical c.name then .error .malformed
    else .ok p

/-- Takes in the chunks from a position up to the image data, and tells where those begin. -/
def readFrom (bytes : Array UInt8) : Nat → Preamble → Nat → Except Fault (Preamble × Nat)
  | 0, _, _ => .error .brokenOff
  | bound + 1, p, i =>
    if bytes.size < i + 8 then .error .brokenOff
    else if nameAt bytes i = nameBytes "IDAT" then .ok (p, i)
    else if !mayPrecede (nameAt bytes i) (wordAt bytes i) then .error .malformed
    else do
      let (c, next) ← chunkAt bytes i
      readFrom bytes bound (← p.take c) next

end Preamble

end TwoBitAlpha.Png
