/-!
Hexadecimal text with lowercase digits and a fixed number of places.
-/

namespace TwoBitAlpha.Hex

def digit (n : Nat) : Char :=
  if n < 10 then Char.ofNat ('0'.toNat + n) else Char.ofNat ('a'.toNat + (n - 10))

/-- The last `places` digits of a number, the highest first. -/
def digits : Nat → Nat → List Char
  | 0, _ => []
  | places + 1, n => digits places (n / 16) ++ [digit (n % 16)]

@[simp] theorem length_digits (places n : Nat) : (digits places n).length = places := by
  induction places generalizing n with
  | zero => rfl
  | succ places ih => simp [digits, ih]

def ofByte (b : UInt8) : String := String.ofList (digits 2 b.toNat)

def ofWord (w : UInt32) : String := String.ofList (digits 8 w.toNat)

end TwoBitAlpha.Hex
