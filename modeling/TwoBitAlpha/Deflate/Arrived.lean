import TwoBitAlpha.Deflate.Code

/-!
The bits of a stream that arrives piece by piece.

Bits are taken from the low end of each byte. Whoever looks ahead sees zeros where nothing has arrived yet, and has
to compare with the number of bits that are there.
-/

namespace TwoBitAlpha.Deflate

/-- A stream of which the bytes before a stop have arrived. -/
structure Arrived where
  bytes : Array UInt8
  stop : Nat

namespace Arrived

def byte (a : Arrived) (i : Nat) : Nat := if i < a.stop then (a.bytes.getD i 0).toNat else 0

/-- The number in `count` bytes from the byte `i` on, the lowest first. -/
def spelled (a : Arrived) (i : Nat) : Nat → Nat
  | 0 => 0
  | count + 1 => a.byte i + 256 * a.spelled (i + 1) count

/-- Bytes that are looked at together. They hold the 48 bits of the longest copy wherever it begins. -/
def reach : Nat := 7

def ahead (a : Arrived) (position : Nat) : Nat :=
  a.spelled (position / 8) reach / Nat.pow 2 (position % 8)

def left (a : Arrived) (position : Nat) : Nat := 8 * a.stop - position

/-- How many bytes have been taken in by whoever looks ahead from a position: whole bytes, up to 63 bits of them. -/
def filled (a : Arrived) (position : Nat) : Nat := min a.stop ((position + 63) / 8)

def number (a : Arrived) (position count : Nat) : Except Fault Nat :=
  if count ≤ a.left position then .ok (a.ahead position % Nat.pow 2 count) else .error .unfinished

end Arrived

end TwoBitAlpha.Deflate
