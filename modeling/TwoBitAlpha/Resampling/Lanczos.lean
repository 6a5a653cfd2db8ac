/-!
The Lanczos kernel with three lobes, and the weights with which it mixes neighbouring samples.

All arithmetic is in 32-bit floating point, in the order in which it is written here.
-/

namespace TwoBitAlpha.Resampling

def pi : Float32 := 3.14159265358979323846

def sinc (t : Float32) : Float32 :=
  let a := t * pi
  if t == 0 then 1 else a.sin / a

/-- Samples on each side of the center that the kernel reaches. -/
def lobes : Float32 := 3

def lanczos (x : Float32) : Float32 :=
  if x.abs < lobes then sinc x * sinc (x / lobes) else 0

/-- The neighbouring samples that are mixed into one new sample, and the weight of each. -/
structure Window where
  first : Nat
  weights : Array Float32

def clampInt (v low high : Int) : Int := if v < low then low else if v > high then high else v

def float (n : Nat) : Float32 := (UInt32.ofNat n).toFloat32

/-- The number without its fraction, and zero for what is negative. -/
def wholeDown (v : Float32) : Nat := v.toUInt64.toNat

/-- The next whole number from `v` on, and zero for what is negative. -/
def wholeUp (v : Float32) : Nat :=
  if v.toUInt64.toFloat32 < v then wholeDown v + 1 else wholeDown v

/-- The window of sample `o` when `n` samples become `m`.

The weights are divided by their sum. Where the rounding of large numbers puts the center so far off that the kernel
reaches no sample, the sum is zero, and the weights are no numbers. -/
def window (n m o : Nat) : Window :=
  let ratio := float n / float m
  let scale := if ratio < 1 then 1 else ratio
  let support := lobes * scale
  let center := (float o + 0.5) * ratio
  -- Negative ends are clamped in any case, so it does not matter that they are zero already.
  let left := clampInt (wholeDown (center - support)) 0 (n - 1)
  let right := clampInt (wholeUp (center + support)) (left + 1) n
  let middle := center - 0.5
  let first := left.toNat
  let raw := (Array.range (right - left).toNat).map fun k =>
    lanczos ((float (first + k) - middle) / scale)
  let sum := raw.foldl (· + ·) 0
  ⟨first, raw.map (· / sum)⟩

def Window.isDefined (w : Window) : Bool := w.weights.all Float32.isFinite

def Window.mix (w : Window) (sample : Nat → Float32) : Float32 :=
  (w.weights.foldl (fun (sum, i) weight => (sum + sample i * weight, i + 1)) ((0 : Float32), w.first)).1

end TwoBitAlpha.Resampling
