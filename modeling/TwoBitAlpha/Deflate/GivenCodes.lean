import TwoBitAlpha.Deflate.Arrived

/-!
The codes that a block brings along: the lengths of their words, written short and in a code of their own.
-/

namespace TwoBitAlpha.Deflate

def endSymbol : Nat := 256

/-- The order in which the lengths of the code of lengths stand. -/
def lengthOrder : List Nat := [16, 17, 18, 0, 8, 7, 9, 6, 10, 5, 11, 4, 12, 3, 13, 2, 14, 1, 15]

/-- What a symbol of the code of lengths repeats, the least number of times, and how many more bits tell the
exact one. Before the first length there is nothing to repeat. -/
def repetition (lengths : Array Nat) (symbol : Nat) : Option Nat × Nat × Nat :=
  if symbol < 16 then (some symbol, 1, 0)
  else if symbol = 17 then (some 0, 3, 3)
  else if symbol = 18 then (some 0, 11, 7)
  else (lengths.back?, 3, 2)

/-- The symbol at a position in the code of lengths, and the position after it. A word of this code has seven bits at
most, and that many have to be there. -/
def lengthSymbol (code : Code) (a : Arrived) (position : Nat) : Except Fault (Nat × Nat) := do
  let bits ← a.number position 7
  match code.symbol bits with
  | none => throw .corrupt
  | some (symbol, length) => return (symbol, position + length)

/-- Exactly `wanted` lengths of words, runs of them written short. -/
def expandLengths (code : Code) (a : Arrived) (wanted : Nat) :
    Nat → Nat → Array Nat → Except Fault (Array Nat × Nat)
  | 0, _, _ => .error .corrupt
  | bound + 1, position, lengths =>
    if lengths.size = wanted then .ok (lengths, position)
    else do
      let (symbol, position) ← lengthSymbol code a position
      let (length, least, bits) := repetition lengths symbol
      let count := least + (← a.number position bits)
      match length with
      | none => throw .corrupt
      | some length =>
        if lengths.size + count ≤ wanted then
          expandLengths code a wanted bound (position + bits) (lengths ++ Array.replicate count length)
        else throw .corrupt

def maxLiterals : Nat := 286

def maxDistances : Nat := 30

/-- The two codes that stand at the beginning of a block, and the position after them. -/
def givenCodes (a : Arrived) (position : Nat) : Except Fault (Code × Code × Nat) := do
  let literals := 257 + (← a.number position 5)
  let distances := 1 + (← a.number (position + 5) 5)
  let count := 4 + (← a.number (position + 10) 4)
  if literals > maxLiterals ∨ distances > maxDistances then throw .corrupt
  let position := position + 14
  let short ← (List.range count).mapM fun k => a.number (position + 3 * k) 3
  let lengths := lengthOrder.zip short
  let code ← Code.ofGivenLengths ((List.range 19).map fun s => (lengths.lookup s).getD 0)
  let wanted := literals + distances
  -- Every symbol tells one length at least, so their number bounds the symbols.
  let (all, position) ← expandLengths code a wanted (wanted + 1) (position + 3 * count) #[]
  -- Without a word for its end the block could not end.
  if all.getD endSymbol 0 = 0 then throw .corrupt
  let literalCode ← Code.ofGivenLengths (all.toList.take literals)
  let distanceCode ← Code.ofDistanceLengths (all.toList.drop literals)
  return (literalCode, distanceCode, position)

end TwoBitAlpha.Deflate
