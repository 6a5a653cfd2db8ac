/-!
Numbers in the 64-bit binary format: a sign, and a significand below `2 ^ 53` times a power of two.

`Binary64.nearest` rounds a fraction to such a number, a tie going to the even significand. All arithmetic is
exact.
-/

namespace TwoBitAlpha.Decimal

inductive Binary64 where
  | nan
  | infinity (negative : Bool)
  /-- The number `significand * 2 ^ exponent`. -/
  | finite (negative : Bool) (significand : Nat) (exponent : Int)
  deriving DecidableEq

/-- The nearest integer to a quotient; a half goes to the even neighbour. -/
def divEven (n d : Nat) : Nat :=
  let q := n / d
  let r := n % d
  if 2 * r < d then q
  else if 2 * r > d then q + 1
  else if q % 2 = 0 then q
  else q + 1

/-- Numerator and denominator of `n / d` divided by `base ^ e`. -/
def scaleDown (base n d : Nat) (e : Int) : Nat × Nat :=
  if e ≥ 0 then (n, d * Nat.pow base e.toNat) else (n * Nat.pow base (-e).toNat, d)

namespace Binary64

/-- Smallest exponent of two, that of the numbers next to zero. -/
def minExponent : Int := -1074

def maxExponent : Int := 971

/-- The exponent that brings the positive fraction `n / d` into `2 ^ 52 … 2 ^ 53`, as far as there is
one. -/
def exponentOf (n d : Nat) : Int :=
  let guess : Int := (n.log2 : Int) - (d.log2 : Int) - 52
  let (n', d') := scaleDown 2 n d guess
  max minExponent (if n' < d' * Nat.pow 2 52 then guess - 1 else guess)

def nearest (negative : Bool) (n d : Nat) : Binary64 :=
  if n = 0 then .finite negative 0 minExponent
  else
    let e := exponentOf n d
    let (n', d') := scaleDown 2 n d e
    let m := divEven n' d'
    let (m, e) := if m = Nat.pow 2 53 then (Nat.pow 2 52, e + 1) else (m, e)
    if e > maxExponent then .infinity negative else .finite negative m e

/-- The number nearest to `digits * 10 ^ exponent`. Where that lies far outside the range of the
format, the power of ten is not worked out. -/
def ofDecimal (negative : Bool) (digits : Nat) (exponent : Int) : Binary64 :=
  let magnitude := (digits.log2 / 3 : Int) + 1 + exponent
  if digits = 0 then .finite negative 0 minExponent
  else if (digits.log2 / 4 : Int) + exponent > 310 then .infinity negative
  else if magnitude < -330 then .finite negative 0 minExponent
  else
    let (n, d) := scaleDown 10 digits 1 (-exponent)
    nearest negative n d

end Binary64

end TwoBitAlpha.Decimal
