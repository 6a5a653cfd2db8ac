import TwoBitAlpha.Toml.Quotation
import TwoBitAlpha.Toml.Value

/-!
Integers and floating point numbers.

Single underscores may stand between digits. Integers have 64 bits. A floating point number is rounded to
the nearest one of the binary format; one that would round to positive infinity is refused.
-/

namespace TwoBitAlpha.Toml

/-- Digits up to the first character that is none, without the underscores between them. -/
def digitsTail (isDigit : Char → Bool) : List Char → Option (List Char × List Char)
  | [] => some ([], [])
  | ['_'] => none
  | '_' :: d :: rest =>
    if isDigit d then (digitsTail isDigit rest).map fun (ds, rest) => (d :: ds, rest) else none
  | c :: rest =>
    if isDigit c then (digitsTail isDigit rest).map fun (ds, rest) => (c :: ds, rest)
    else some ([], c :: rest)

def digits (isDigit : Char → Bool) : Reader (List Char)
  | [] => none
  | c :: rest =>
    if isDigit c then (digitsTail isDigit rest).map fun (ds, rest) => (c :: ds, rest) else none

def wholeDigits : Reader (List Char)
  | '0' :: rest => some (['0'], rest)
  | s => digits Char.isDigit s

/-- Whether a minus sign was there, which may also be a plus sign or missing. -/
def sign : List Char → Bool × List Char
  | '-' :: rest => (true, rest)
  | '+' :: rest => (false, rest)
  | s => (false, s)

def signed (negative : Bool) (n : Nat) : Int := if negative then -(n : Int) else n

def isOctalDigit (c : Char) : Bool := '0' ≤ c && c ≤ '7'

def isBinaryDigit (c : Char) : Bool := c == '0' || c == '1'

def integerOf (n : Int) (rest : List Char) : Option (Value × List Char) :=
  if Int64.minValue.toInt ≤ n ∧ n ≤ Int64.maxValue.toInt then some (.integer n, rest) else none

/-- An integer without a sign, in a base that the two characters before it told. -/
def basedInteger (base : Nat) (isDigit : Char → Bool) (s : List Char) : Option (Value × List Char) := do
  let (ds, rest) ← digits isDigit s
  integerOf (numberOf base ds) rest

def integer : Reader Value
  | '0' :: 'x' :: rest => basedInteger 16 isHexDigit rest
  | '0' :: 'o' :: rest => basedInteger 8 isOctalDigit rest
  | '0' :: 'b' :: rest => basedInteger 2 isBinaryDigit rest
  | s => do
    let (negative, s) := sign s
    let (ds, rest) ← wholeDigits s
    integerOf (signed negative (numberOf 10 ds)) rest

def fraction : Reader (List Char)
  | '.' :: rest => digits Char.isDigit rest
  | s => some ([], s)

def exponent (s : List Char) : Option (Option Int × List Char) :=
  match s with
  | [] => some (none, [])
  | c :: rest =>
    if c = 'e' ∨ c = 'E' then do
      let (negative, rest) := sign rest
      let (ds, rest) ← digits Char.isDigit rest
      some (some (signed negative (numberOf 10 ds)), rest)
    else some (none, s)

def decimalFloat : Reader Value := fun s => do
  let (negative, s) := sign s
  let (whole, s) ← wholeDigits s
  let (places, s) ← fraction s
  let (power, s) ← exponent s
  if places.isEmpty && power.isNone then none
  else
    let x := Decimal.Binary64.ofDecimal negative (numberOf 10 (whole ++ places))
      (power.getD 0 - places.length)
    if x = .infinity false then none else some (.float x, s)

def specialFloat : Reader Value := fun s =>
  let (negative, s) := sign s
  match s with
  | 'i' :: 'n' :: 'f' :: rest => some (.float (.infinity negative), rest)
  | 'n' :: 'a' :: 'n' :: rest => some (.float .nan, rest)
  | _ => none

end TwoBitAlpha.Toml
