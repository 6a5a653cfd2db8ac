import TwoBitAlpha.Proofs.Canvas.Words
import TwoBitAlpha.Proofs.RowWrite

/-!
Pixels and slots.

A slot is a field of a byte. Each pixel of a canvas has a slot of its own, and a slot that belongs to no
pixel is padding: it lies in the last byte of a row, beyond the right edge.
-/

namespace TwoBitAlpha.Canvas

/-- Field `k` of byte `i` stands for a column that the canvas does not have. -/
def IsPadding (c : Canvas) (i : Nat) (k : Fin 4) : Prop :=
  i % c.rowBytes.toNat + 1 = c.rowBytes.toNat ∧ c.width.toNat ≤ 4 * (i % c.rowBytes.toNat) + k.val

instance (c : Canvas) (i : Nat) (k : Fin 4) : Decidable (c.IsPadding i k) :=
  inferInstanceAs (Decidable (_ ∧ _))

theorem isPadding_iff (c : Canvas) (i : Nat) (k : Fin 4) :
    c.IsPadding i k ↔ c.width.toNat ≤ 4 * (i % c.rowBytes.toNat) + k.val := by
  refine ⟨And.right, fun beyond => ⟨?_, beyond⟩⟩
  have byte_lt := Nat.mod_lt i c.rowBytes_toNat_pos
  have row := c.rowBytes_toNat
  have field_lt := k.isLt
  omega

theorem not_isPadding_of_whole {c : Canvas} (whole : c.width % 4 = 0) (i : Nat) (k : Fin 4) :
    ¬ c.IsPadding i k := by
  rintro ⟨last, beyond⟩
  have whole : c.width.toNat % 4 = 0 := congrArg UInt32.toNat whole
  have row := c.rowBytes_toNat
  omega

/-- The column of a slot, which may lie beyond the right edge. -/
def slotColumn (c : Canvas) (i : Nat) (k : Fin 4) : UInt32 := column (i % c.rowBytes.toNat) k

def slotRow (c : Canvas) (i : Nat) : UInt32 := .ofNat (i / c.rowBytes.toNat)

theorem slotColumn_toNat (c : Canvas) (i : Nat) (k : Fin 4) :
    (c.slotColumn i k).toNat = 4 * (i % c.rowBytes.toNat) + k.val :=
  column_toNat (Nat.lt_of_lt_of_le (Nat.mod_lt i c.rowBytes_toNat_pos) c.rowBytes_toNat_le) k

variable {c : Canvas}

theorem div_rowBytes_lt {i : Nat} (h : i < c.packedLength.toNat) :
    i / c.rowBytes.toNat < c.height.toNat := by
  rw [packedLength_toNat] at h
  exact (Nat.div_lt_iff_lt_mul c.rowBytes_toNat_pos).mpr h

theorem slotRow_toNat {i : Nat} (h : i < c.packedLength.toNat) :
    (c.slotRow i).toNat = i / c.rowBytes.toNat :=
  toNat_ofNat_of_lt_toNat (div_rowBytes_lt h)

theorem contains_slot_iff {i : Nat} (h : i < c.packedLength.toNat) (k : Fin 4) :
    c.contains (c.slotColumn i k) (c.slotRow i) = true ↔ ¬ c.IsPadding i k := by
  rw [contains_iff, slotColumn_toNat, slotRow_toNat h, isPadding_iff, Nat.not_le]
  exact ⟨And.left, fun before => ⟨before, div_rowBytes_lt h⟩⟩

theorem fieldOf_slotColumn (c : Canvas) (i : Nat) (k : Fin 4) : fieldOf (c.slotColumn i k) = k := by
  have field_lt := k.isLt
  apply Fin.eq_of_val_eq
  rw [fieldOf_val, slotColumn_toNat]
  omega

theorem offset_slot {i : Nat} (h : i < c.packedLength.toNat) (k : Fin 4) :
    (c.offset (c.slotColumn i k) (c.slotRow i)).toNat = i := by
  have group : (4 * (i % c.rowBytes.toNat) + k.val) / 4 = i % c.rowBytes.toNat := by omega
  rw [offset_toNat, slotRow_toNat h, slotColumn_toNat, group, Nat.div_add_mod']

section
variable {x y : UInt32} (inside : c.contains x y = true)
include inside

theorem offset_lt_packedLength : (c.offset x y).toNat < c.packedLength.toNat := by
  obtain ⟨hx, hy⟩ := (contains_iff _ _ _).mp inside
  rw [packedLength_toNat, offset_toNat]
  exact row_position_lt hy (div_four_lt_rowBytes hx)

theorem slotColumn_offset : c.slotColumn (c.offset x y).toNat (fieldOf x) = x := by
  obtain ⟨hx, _⟩ := (contains_iff _ _ _).mp inside
  apply UInt32.toNat_inj.mp
  rw [slotColumn_toNat, offset_toNat, row_position_mod (div_four_lt_rowBytes hx), fieldOf_val,
    Nat.div_add_mod]

theorem slotRow_offset : c.slotRow (c.offset x y).toNat = y := by
  obtain ⟨hx, _⟩ := (contains_iff _ _ _).mp inside
  apply UInt32.toNat_inj.mp
  rw [slotRow_toNat (offset_lt_packedLength inside), offset_toNat,
    row_position_div (div_four_lt_rowBytes hx)]

/-- A byte holds pixels of one row and one group of columns. -/
theorem offset_eq_iff (i : Nat) :
    (c.offset x y).toNat = i ↔ x.toNat / 4 = i % c.rowBytes.toNat ∧ y.toNat = i / c.rowBytes.toNat := by
  obtain ⟨hx, _⟩ := (contains_iff _ _ _).mp inside
  have byte_lt := div_four_lt_rowBytes hx
  rw [offset_toNat]
  constructor
  · rintro rfl
    rw [row_position_mod byte_lt, row_position_div byte_lt]
    exact ⟨rfl, rfl⟩
  · rintro ⟨column, row⟩
    rw [column, row, Nat.div_add_mod']

theorem slot_eq_iff {i : Nat} (h : i < c.packedLength.toNat) (k : Fin 4) :
    c.slotColumn i k = x ∧ c.slotRow i = y ↔ i = (c.offset x y).toNat ∧ k = fieldOf x := by
  constructor
  · rintro ⟨rfl, rfl⟩
    rw [offset_slot h, fieldOf_slotColumn]
    exact ⟨rfl, rfl⟩
  · rintro ⟨rfl, rfl⟩
    exact ⟨slotColumn_offset inside, slotRow_offset inside⟩

theorem not_isPadding_offset : ¬ c.IsPadding (c.offset x y).toNat (fieldOf x) := by
  rw [← contains_slot_iff (offset_lt_packedLength inside), slotColumn_offset inside, slotRow_offset inside]
  exact inside

end

end TwoBitAlpha.Canvas
