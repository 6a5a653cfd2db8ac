import TwoBitAlpha.Deflate.GivenCodes

/-!
The steps of an expansion: heads, stored blocks, and blocks of literal bytes and copies with fixed or given codes.

A step is found from the phase, the bits ahead and the room alone. It tells what comes out, and where the next
step begins. Symbols are taken in rounds, which decide how early bytes of the stream are taken in.
-/

namespace TwoBitAlpha.Deflate

structure SymbolBlock where
  last : Bool
  literals : Code
  distances : Code

inductive Phase where
  /-- The two bytes before the first block. -/
  | head
  | block
  /-- The rest of a block of bytes as they are. -/
  | stored (last : Bool) (left : Nat)
  /-- A symbol, and how many literals may still come before another one in a round that has begun. -/
  | symbols (b : SymbolBlock) (round : Nat)
  /-- The checksum behind the last block. It is passed over. -/
  | checksum
  | finished

def Phase.afterBlock (last : Bool) : Phase := if last then .checksum else .block

inductive Output where
  | bytes (new : List UInt8)
  /-- Bytes that have come out before, from `distance` back. -/
  | copy (distance length : Nat)
  /-- Bytes of the stream as they are. -/
  | slice (start count : Nat)

namespace Output

def size : Output → Nat
  | bytes new => new.length
  | copy _ length => length
  | slice _ count => count

def take (n : Nat) : Output → Output
  | bytes new => bytes (new.take n)
  | copy distance length => copy distance (min length n)
  | slice start count => slice start (min count n)

def drop (n : Nat) : Output → Output
  | bytes new => bytes (new.drop n)
  | copy distance length => copy distance (length - n)
  | slice start count => slice (start + n) (count - n)

end Output

structure Step where
  output : Output
  phase : Phase
  /-- The position in bits after what the step takes from the stream. -/
  position : Nat
  /-- Whether bytes are taken in right after the step, however much of its output has room. -/
  ahead : Bool

/-- How much has come out before a step, and how much more has room. -/
structure Room where
  used : Nat
  free : Nat

/-- The smallest length of a copy, and how many more bits tell the exact one, by symbol from 257 up. -/
def copyLengths : Array (Nat × Nat) := #[
  (3, 0), (4, 0), (5, 0), (6, 0), (7, 0), (8, 0), (9, 0), (10, 0), (11, 1), (13, 1), (15, 1),
  (17, 1), (19, 2), (23, 2), (27, 2), (31, 2), (35, 3), (43, 3), (51, 3), (59, 3), (67, 4), (83, 4),
  (99, 4), (115, 4), (131, 5), (163, 5), (195, 5), (227, 5), (258, 0)]

/-- The smallest distance of a copy, and how many more bits tell the exact one, by symbol. -/
def copyDistances : Array (Nat × Nat) := #[
  (1, 0), (2, 0), (3, 0), (4, 0), (5, 1), (7, 1), (9, 2), (13, 2), (17, 3), (25, 3), (33, 4),
  (49, 4), (65, 5), (97, 5), (129, 6), (193, 6), (257, 7), (385, 7), (513, 8), (769, 8), (1025, 9),
  (1537, 9), (2049, 10), (3073, 10), (4097, 11), (6145, 11), (8193, 12), (12289, 12), (16385, 13),
  (24577, 13)]

def maxDistance : Nat := 32768

def fixedLiterals : Code :=
  .ofLengths (List.replicate 144 8 ++ List.replicate 112 9 ++ List.replicate 24 7 ++
    List.replicate 8 8)

def fixedDistances : Code := .ofLengths (List.replicate 30 5)

/-- A step that takes `length` bits, which have to be there. -/
def stepOver (a : Arrived) (position length : Nat) (output : Output) (phase : Phase) : Except Fault Step :=
  if length ≤ a.left position then .ok ⟨output, phase, position + length, false⟩
  else .error .unfinished

def quietly (phase : Phase) (position : Nat) : Step := ⟨.bytes [], phase, position, false⟩

/-- The two bytes before the first block tell of the method and the window. -/
def headStep (a : Arrived) (position : Nat) : Except Fault Step := do
  let method ← a.number position 8
  let flags ← a.number (position + 8) 8
  if method % 16 ≠ 8 ∨ method / 16 > 7 ∨ flags / 32 % 2 ≠ 0 ∨ (method * 256 + flags) % 31 ≠ 0 then
    throw .corrupt
  return quietly .block (position + 16)

/-- How many bytes a stored block holds whose size stands at a position. The size is told twice. -/
def storedSize (a : Arrived) (position : Nat) : Except Fault Nat := do
  let size ← a.number position 16
  let check ← a.number (position + 16) 16
  if size + check = 65535 then return size else throw .corrupt

def blockStep (a : Arrived) (position : Nat) : Except Fault Step := do
  -- No block is shorter than ten bits, so that many have to be there.
  let start ← a.number position 10
  let last := start % 2 == 1
  let kind := start / 2 % 4
  if kind = 0 then
    let aligned := (position + 3 + 7) / 8 * 8
    let size ← storedSize a aligned
    return quietly (if size = 0 then .afterBlock last else .stored last size) (aligned + 32)
  else if kind = 1 then
    -- A block that holds nothing is passed over as a whole.
    if start / 8 = 0 then return quietly (.afterBlock last) (position + 10)
    else return quietly (.symbols ⟨last, fixedLiterals, fixedDistances⟩ 0) (position + 3)
  else if kind = 2 then
    let (literals, distances, next) ← givenCodes a (position + 3)
    return quietly (.symbols ⟨last, literals, distances⟩ 0) next
  else throw .corrupt

/-- As many bytes of a stored block as have arrived and have room. -/
def storedStep (a : Arrived) (last : Bool) (size position : Nat) (room : Room) : Except Fault Step :=
  let start := position / 8
  let count := min size (min (a.stop - start) room.free)
  if room.free = 0 then .error .over
  else if count = 0 then .error .unfinished
  else
    let phase := if count = size then .afterBlock last else .stored last (size - count)
    .ok ⟨.slice start count, phase, position + 8 * count, false⟩

/-- Literals, or pairs of them, that a round has at most. -/
def roundLength : Nat := 3

/-- How many literals may come at a position before another symbol, given how many may in the round that has begun. A
new round begins only where eight bytes have arrived that are not taken in yet, and eight bytes have room. -/
def roundAt (a : Arrived) (round position : Nat) (room : Room) : Nat :=
  if round ≠ 0 then round
  else if 8 ≤ room.free ∧ a.filled position + 8 ≤ a.stop then roundLength
  else 0

/-- Most bits of words that are looked up together. -/
def pairBits : Nat := 12

/-- The literal that is taken together with one whose word has `length` bits, and the length of its word. A word of a
single bit is not taken together with another. -/
def secondLiteral (literals : Code) (bits length : Nat) : Option (Nat × Nat) :=
  (literals.symbol (bits / Nat.pow 2 length)).filter fun (symbol, more) =>
    symbol < endSymbol && 2 ≤ more && length + more ≤ pairBits

/-- A literal, and another one with it if the words of both are short. Then both have to be there. -/
def literalStep (a : Arrived) (b : SymbolBlock) (round symbol length position : Nat) :
    Except Fault Step :=
  let first := UInt8.ofNat symbol
  match secondLiteral b.literals (a.ahead position) length with
  | some (second, more) =>
    stepOver a position (length + more) (.bytes [first, UInt8.ofNat second]) (.symbols b (round - 1))
  | none =>
    -- A long word ends the round.
    let round := if length ≤ pairBits then round - 1 else 0
    stepOver a position length (.bytes [first]) (.symbols b round)

def distanceEntry (distances : Code) (bits : Nat) : Option ((Nat × Nat) × Nat) := do
  let (symbol, length) ← distances.symbol bits
  return (← copyDistances[symbol]?, length)

/-- A copy whose length has the given entry and a word of `length` bits. -/
def copyStep (a : Arrived) (b : SymbolBlock) (round : Nat) (entry : Nat × Nat) (length position : Nat)
    (room : Room) : Except Fault Step :=
  let bits := a.ahead position
  let (least, extra) := entry
  let told := length + extra
  match distanceEntry b.distances (bits / Nat.pow 2 told) with
  -- More than nine bits have to be there before a distance is refused.
  | none => if told + 9 < a.left position then .error .corrupt else .error .unfinished
  | some ((nearest, more), word) =>
    let count := least + bits / Nat.pow 2 length % Nat.pow 2 extra
    let distance := nearest + bits / Nat.pow 2 (told + word) % Nat.pow 2 more
    let whole := told + word + more
    if a.left position < whole then .error .unfinished
    else if room.used < distance then .error .corrupt
    else .ok ⟨.copy distance count, .symbols b 0, position + whole, round != 0⟩

def lengthEntry (symbol : Nat) : Option (Nat × Nat) :=
  if symbol = endSymbol then none else copyLengths[symbol - 257]?

def symbolStep (a : Arrived) (b : SymbolBlock) (round position : Nat) (room : Room) : Except Fault Step :=
  match b.literals.symbol (a.ahead position) with
  | none => .error .corrupt
  | some (symbol, length) =>
    if room.free = 0 then
      -- Only the end may come now, and as many bits as the longest word has have to be there.
      if symbol = endSymbol ∧ maxWordLength ≤ a.left position then
        .ok (quietly (.afterBlock b.last) (position + length))
      else .error .over
    else
      let round := roundAt a round position room
      if symbol < endSymbol then literalStep a b round symbol length position
      else
        match lengthEntry symbol with
        -- Symbols that stand for nothing end a block as its last symbol does.
        | none => stepOver a position length (.bytes []) (.afterBlock b.last)
        | some entry => copyStep a b round entry length position room

def checksumStep (a : Arrived) (position : Nat) : Except Fault Step :=
  -- The checksum begins at a byte.
  let aligned := (position + 7) / 8 * 8
  stepOver a aligned 32 (.bytes []) .finished

def Phase.step (phase : Phase) (a : Arrived) (position : Nat) (room : Room) : Except Fault Step :=
  match phase with
  | head => headStep a position
  | block => blockStep a position
  | stored last left => storedStep a last left position room
  | symbols b round => symbolStep a b round position room
  | checksum => checksumStep a position
  | finished => .error .over

end TwoBitAlpha.Deflate
