import Mathlib.Algebra.Group.Nat.Defs
import TwoBitAlpha.Canvas

/-!
The machine words of a canvas are the numbers they stand for: no product or sum of the layout leaves its
width, on the largest canvases neither.
-/

namespace TwoBitAlpha.Canvas

theorem eq_of_size_eq {c d : Canvas} (width : c.width = d.width) (height : c.height = d.height) : c = d := by
  cases c
  cases d
  cases width
  cases height
  rfl

theorem width_toNat_pos (c : Canvas) : 0 < c.width.toNat :=
  UInt32.lt_iff_toNat_lt.mp c.width_pos

theorem height_toNat_pos (c : Canvas) : 0 < c.height.toNat :=
  UInt32.lt_iff_toNat_lt.mp c.height_pos

theorem contains_iff (c : Canvas) (x y : UInt32) :
    c.contains x y = true ↔ x.toNat < c.width.toNat ∧ y.toNat < c.height.toNat := by
  simp only [contains, Bool.and_eq_true, decide_eq_true_eq, UInt32.lt_iff_toNat_lt]

theorem rowBytes_toNat (c : Canvas) : c.rowBytes.toNat = (c.width.toNat + 3) / 4 := by
  have width_lt := c.width.toNat_lt
  have up : 0 < c.width % 4 ↔ 0 < c.width.toNat % 4 := UInt32.lt_iff_toNat_lt
  simp only [rowBytes, divUp, pixelsPerByte, UInt32.toNat_toUInt64, gt_iff_lt]
  by_cases remainder : 0 < c.width % 4
  · have short := up.mp remainder
    rw [if_pos remainder]
    change (c.width.toNat / 4 + 1) % 2 ^ 32 = _
    omega
  · have whole := mt up.mpr remainder
    rw [if_neg remainder]
    change c.width.toNat / 4 = _
    omega

theorem rowBytes_toNat_pos (c : Canvas) : 0 < c.rowBytes.toNat := by
  have width_pos := c.width_toNat_pos
  rw [rowBytes_toNat]
  omega

theorem rowBytes_toNat_le (c : Canvas) : c.rowBytes.toNat ≤ 2 ^ 30 := by
  have width_lt := c.width.toNat_lt
  rw [rowBytes_toNat]
  omega

theorem mul_rowBytes_lt (c : Canvas) (y : UInt32) : y.toNat * c.rowBytes.toNat < 2 ^ 62 :=
  calc y.toNat * c.rowBytes.toNat
      ≤ y.toNat * 2 ^ 30 := Nat.mul_le_mul_left _ c.rowBytes_toNat_le
    _ < 2 ^ 32 * 2 ^ 30 := Nat.mul_lt_mul_of_pos_right y.toNat_lt (by decide)

theorem packedLength_toNat (c : Canvas) :
    c.packedLength.toNat = c.height.toNat * c.rowBytes.toNat := by
  have bound := c.mul_rowBytes_lt c.height
  rw [packedLength, UInt64.toNat_mul, UInt32.toNat_toUInt64, Nat.mul_comm]
  exact Nat.mod_eq_of_lt (by omega)

theorem rowStart_toNat (c : Canvas) (y : UInt32) :
    (c.rowStart y).toNat = y.toNat * c.rowBytes.toNat := by
  have bound := c.mul_rowBytes_lt y
  rw [rowStart, UInt64.toNat_mul, UInt32.toNat_toUInt64]
  exact Nat.mod_eq_of_lt (by omega)

theorem rowEnd_toNat (c : Canvas) (y : UInt32) :
    (c.rowStart y + c.rowBytes).toNat = y.toNat * c.rowBytes.toNat + c.rowBytes.toNat := by
  have bound := c.mul_rowBytes_lt y
  have row := c.rowBytes_toNat_le
  rw [UInt64.toNat_add, rowStart_toNat]
  exact Nat.mod_eq_of_lt (by omega)

theorem offset_toNat (c : Canvas) (x y : UInt32) :
    (c.offset x y).toNat = y.toNat * c.rowBytes.toNat + x.toNat / 4 := by
  have bound := c.mul_rowBytes_lt y
  have column_lt := x.toNat_lt
  rw [offset, UInt64.toNat_add, UInt64.toNat_mul, UInt32.toNat_toUInt64, UInt32.toNat_toUInt64]
  change (_ % 2 ^ 64 + x.toNat / 4) % 2 ^ 64 = _
  rw [Nat.mod_eq_of_lt (a := y.toNat * c.rowBytes.toNat) (by omega)]
  exact Nat.mod_eq_of_lt (by omega)

theorem sampleStride_toNat (c : Canvas) : c.sampleStride.toNat = c.width.toNat * 4 := by
  have width_lt := c.width.toNat_lt
  rw [sampleStride, UInt64.toNat_mul, UInt32.toNat_toUInt64]
  change c.width.toNat * 4 % 2 ^ 64 = _
  omega

theorem fieldOf_val (x : UInt32) : (fieldOf x).val = x.toNat % 4 := rfl

theorem column_toNat {group : Nat} (h : group < 2 ^ 30) (i : Fin 4) :
    (column group i).toNat = 4 * group + i.val := by
  have field_lt := i.isLt
  rw [column, UInt32.toNat_add, UInt32.toNat_mul, UInt32.toNat_ofNat', UInt32.toNat_ofNat']
  change (group % 2 ^ 32 * 4 % 2 ^ 32 + i.val % 2 ^ 32) % 2 ^ 32 = _
  omega

theorem div_four_lt_rowBytes {c : Canvas} {x : Nat} (h : x < c.width.toNat) :
    x / 4 < c.rowBytes.toNat := by
  rw [rowBytes_toNat]
  omega

end TwoBitAlpha.Canvas
