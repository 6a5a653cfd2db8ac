import TwoBitAlpha.Level

/-!
Four levels in one byte. The leftmost level sits in the most significant bits, so that field `k` is
found at shift `6 - 2 * k`. Reading and writing are inverse to each other on all 256 bytes.
-/

namespace TwoBitAlpha

/-- Four neighbouring levels, from left to right. -/
abbrev Group := Vector Level 4

namespace Group

def toByte (g : Group) : UInt8 :=
  (g[0].toBits <<< 6) ||| (g[1].toBits <<< 4) ||| (g[2].toBits <<< 2) ||| g[3].toBits

def ofByte (b : UInt8) : Group :=
  #v[Level.ofBits (b >>> 6), Level.ofBits (b >>> 4), Level.ofBits (b >>> 2), Level.ofBits b]

/-- The level in field `k` of a byte, counted from the left. -/
def field (b : UInt8) (k : Fin 4) : Level := (ofByte b)[k]

theorem toByte_ofByte (b : UInt8) : toByte (ofByte b) = b := by
  have h : ∀ v : BitVec 8, toByte (ofByte ⟨v⟩) = ⟨v⟩ := by decide +kernel
  exact h b.toBitVec

theorem ofByte_toByte (a b c d : Level) : ofByte (toByte #v[a, b, c, d]) = #v[a, b, c, d] := by
  cases a <;> cases b <;> cases c <;> cases d <;> rfl

theorem field_toByte (g : Group) (k : Fin 4) : field (toByte g) k = g[k] := by
  have four : g = #v[g[0], g[1], g[2], g[3]] := by
    ext i hi
    match i, hi with
    | 0, _ => rfl
    | 1, _ => rfl
    | 2, _ => rfl
    | 3, _ => rfl
  rw [field, four, ofByte_toByte]

theorem toBits_field (b : UInt8) (k : Fin 4) :
    (field b k).toBits = (b >>> (6 - 2 * UInt8.ofNat k.val)) &&& 3 := by
  match k with
  | 0 => exact Level.toBits_ofBits _
  | 1 => exact Level.toBits_ofBits _
  | 2 => exact Level.toBits_ofBits _
  | 3 =>
      have whole : b >>> 0 = b := UInt8.shiftRight_zero
      exact (Level.toBits_ofBits b).trans (congrArg (· &&& 3) whole.symm)

theorem eq_of_field_eq {a b : UInt8} (h : ∀ k, field a k = field b k) : a = b := by
  have levels : ofByte a = ofByte b := by
    ext i hi
    exact h ⟨i, hi⟩
  rw [← toByte_ofByte a, levels, toByte_ofByte]

end Group

end TwoBitAlpha
