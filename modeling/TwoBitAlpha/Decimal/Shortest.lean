import TwoBitAlpha.Decimal.Binary64

/-!
The shortest decimal that reads back as a given number.

The reals that round to a number form an interval, whose ends belong to it when the significand is even. Of the
grids of multiples of a power of ten, the coarsest one with a point in the interval gives the digits;
of its points next to the number the nearer is taken, and the upper one on a tie.
-/

namespace TwoBitAlpha.Decimal

/-- The interval around a positive number, in quarters of a unit of its last place. -/
structure Interval where
  low : Nat
  middle : Nat
  high : Nat
  closed : Bool

def intervalOf (significand : Nat) (exponent : Int) : Interval where
  low := 4 * significand -
    (if significand = Nat.pow 2 52 ∧ exponent > Binary64.minExponent then 1 else 2)
  middle := 4 * significand
  high := 4 * significand + 2
  closed := significand % 2 == 0

/-- The multiple of `10 ^ k` that stands for `significand * 2 ^ exponent`, if one does. -/
def onGrid (significand : Nat) (exponent k : Int) : Option Nat :=
  let range := intervalOf significand exponent
  let (a, b) := scaleDown 2 1 1 (2 - exponent)
  let (a, b) := scaleDown 10 a b k
  let inside (c : Nat) : Bool :=
    if range.closed then range.low * a ≤ c * b && c * b ≤ range.high * a
    else range.low * a < c * b && c * b < range.high * a
  let below := range.middle * a / b
  let above := below + 1
  match inside below, inside above with
  | true, true =>
    some (if above * b - range.middle * a ≤ range.middle * a - below * b then above else below)
  | true, false => some below
  | false, true => some above
  | false, false => none

def shortest (significand : Nat) (exponent : Int) : Nat × Int :=
  let powers := (List.range 640).map fun (i : Nat) => (310 : Int) - i
  (powers.findSome? fun k => (onGrid significand exponent k).map (·, k)).getD (0, 0)

/-- The decimal `digits * 10 ^ exponent` without an exponent, and with a point in any case. -/
def positional (digits : Nat) (exponent : Int) : List Char :=
  let ds := Nat.toDigits 10 digits
  if exponent ≥ 0 then ds ++ List.replicate exponent.toNat '0' ++ ['.', '0']
  else
    let places := (-exponent).toNat
    let padded := List.replicate (places + 1 - ds.length) '0' ++ ds
    let whole := padded.length - places
    padded.take whole ++ '.' :: padded.drop whole

namespace Binary64

/-- The shortest text that reads back as the number, always positional. -/
def text : Binary64 → String
  | nan => "NaN"
  | infinity negative => if negative then "-inf" else "inf"
  | finite negative significand exponent =>
    let (digits, power) := if significand = 0 then (0, 0) else shortest significand exponent
    (if negative then "-" else "") ++ String.ofList (positional digits power)

end Binary64

end TwoBitAlpha.Decimal
