/-!
The memory that reading a PNG file takes up to its image data.

There is a bound on it, which the chunks before the image data and a row of the picture share.
-/

namespace TwoBitAlpha.Png

def maxMemory : Nat := 512 * 1024 * 1024

structure Memory where
  /-- Bytes of the buffer into which chunks are read. -/
  buffer : Nat
  /-- Bytes of chunks that are kept. -/
  kept : Nat

namespace Memory

/-- The buffer that is there from the start and does not count. -/
def firstBuffer : Nat := 128

def start : Memory := ⟨firstBuffer, 0⟩

/-- A size doubled until a length fits, `bound` times at most. -/
def doubled (length : Nat) : Nat → Nat → Nat
  | 0, size => size
  | bound + 1, size => if length ≤ size then size else doubled length bound (2 * size)

-- A length has 32 bits, so the buffer is not doubled more often.
def read (m : Memory) (length : Nat) : Memory := { m with buffer := doubled length 32 m.buffer }

def keep (m : Memory) (count : Nat) : Memory := { m with kept := m.kept + count }

def used (m : Memory) : Nat := m.buffer - firstBuffer + m.kept

end Memory

end TwoBitAlpha.Png
