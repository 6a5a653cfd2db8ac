/-!
Codes of compressed streams.

A code is given by the lengths of its words; words of one length are numbered in the order of their symbols, and
follow on from the shorter ones. A code is complete if every long enough run of bits begins with one of its words.
-/

namespace TwoBitAlpha.Deflate

inductive Fault where
  /-- What has arrived ends in the middle of something that is right so far. -/
  | unfinished
  /-- There is nothing to do: the stream is at its end, or there is no more room. -/
  | over
  | corrupt
  deriving DecidableEq

/-- How many words there are of each length from one up to the longest, and the symbols in the order of their
words. -/
structure Code where
  counts : List Nat
  symbols : Array Nat

def maxWordLength : Nat := 15

/-- The share of all runs of `maxWordLength` bits that begin with a word of one of these lengths, counted in
runs. A length of zero stands for no word. -/
def covered (lengths : List Nat) : Nat :=
  (lengths.map fun l => if l = 0 then 0 else Nat.pow 2 (maxWordLength - l)).foldl (· + ·) 0

def isComplete (lengths : List Nat) : Bool := covered lengths == Nat.pow 2 maxWordLength

namespace Code

def ofLengths (lengths : List Nat) : Code :=
  let symbolsOf (l : Nat) := lengths.zipIdx.filterMap fun (length, symbol) =>
    if length = l then some symbol else none
  let byLength := (List.range (lengths.foldl max 0)).map fun l => symbolsOf (l + 1)
  ⟨byLength.map List.length, byLength.flatten.toArray⟩

def ofGivenLengths (lengths : List Nat) : Except Fault Code :=
  if isComplete lengths then .ok (ofLengths lengths) else .error .corrupt

/-- The code of distances. A stream without copies, or with copies from a single distance, may leave words
out. -/
def ofDistanceLengths (lengths : List Nat) : Except Fault Code :=
  let used := lengths.filter (· != 0)
  if used = [] ∨ used = [1] then .ok (ofLengths lengths) else ofGivenLengths lengths

/-- Follows one word bit by bit, the lowest bit of a number first. `first` is the first word of the current length,
and `index` the place of its symbol. -/
def follow (code : Code) (word first index length bits : Nat) : List Nat → Option (Nat × Nat)
  | [] => none
  | count :: longer =>
    let word := word + bits % 2
    if word < first + count then
      (code.symbols[index + (word - first)]?).map fun symbol => (symbol, length + 1)
    else
      follow code (2 * word) (2 * (first + count)) (index + count) (length + 1) (bits / 2) longer

def symbol (code : Code) (bits : Nat) : Option (Nat × Nat) := code.follow 0 0 0 0 bits code.counts

end Code

end TwoBitAlpha.Deflate
