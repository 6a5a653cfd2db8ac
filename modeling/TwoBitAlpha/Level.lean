/-!
The four levels of a two-bit alpha map.

`Level.ofAlpha` puts an eight-bit alpha value into a level, `Level.alpha` gives the alpha value that
a level stands for. The table of alphas is no inverse of the thresholds, but a level keeps its own
alpha: `Level.ofAlpha_alpha`.
-/

namespace TwoBitAlpha

/-- A quantized alpha value, from no coverage to full coverage. -/
inductive Level where
  | transparent
  | low
  | high
  | solid
  deriving DecidableEq

inductive LevelError where
  | tooLarge
  deriving DecidableEq

def LevelError.message : LevelError → String
  | .tooLarge => "AlphaLevel must be less than 4"

namespace Level

instance : Inhabited Level := ⟨transparent⟩

def toBits : Level → UInt8
  | transparent => 0
  | low => 1
  | high => 2
  | solid => 3

/-- The level in the low two bits of a byte; the other bits are ignored. -/
def ofBits (bits : UInt8) : Level :=
  let field := bits &&& 3
  if field = 0 then transparent
  else if field = 1 then low
  else if field = 2 then high
  else solid

def ofNumber (n : UInt8) : Except LevelError Level :=
  if n < 4 then .ok (ofBits n) else .error .tooLarge

/-- The alpha value that a level is shown with. -/
def alpha : Level → UInt8
  | transparent => 0
  | low => 64
  | high => 128
  | solid => 255

/-- The level of an alpha value. Only an alpha of exactly zero is transparent. -/
def ofAlpha (a : UInt8) : Level :=
  if a = 0 then transparent
  else if a < 85 then low
  else if a < 170 then high
  else solid

instance : Ord Level := ⟨fun a b => compare a.toBits b.toBits⟩

theorem toBits_lt (l : Level) : l.toBits < 4 := by
  cases l <;> decide

@[simp] theorem ofBits_toBits (l : Level) : ofBits l.toBits = l := by
  cases l <;> decide

theorem toBits_ofBits (b : UInt8) : (ofBits b).toBits = b &&& 3 := by
  have h : ∀ v : BitVec 8, (ofBits ⟨v⟩).toBits = ⟨v⟩ &&& 3 := by decide
  exact h b.toBitVec

@[simp] theorem ofAlpha_alpha (l : Level) : ofAlpha l.alpha = l := by
  cases l <;> decide

theorem alpha_injective {a b : Level} (h : a.alpha = b.alpha) : a = b := by
  rw [← ofAlpha_alpha a, h, ofAlpha_alpha]

end Level

end TwoBitAlpha
