import TwoBitAlpha.Proofs.PackedMap.Packing

/-!
Nothing wraps on the way from a pixel to its byte.

The sizes and offsets of a canvas are the numbers that their formulas give without any bound on the words, and so
are the columns that packing visits. There is no room to spare: in the widest row the last field stands for column
`2 ^ 32 - 1`, the largest word. So a field beyond the right edge is seen to lie there, and never passes for a column
at the left edge.
-/

namespace TwoBitAlpha

namespace Canvas

/-- A row has the fewest bytes that have room for its pixels. -/
theorem rowBytes_le_iff (c : Canvas) (n : Nat) : c.rowBytes.toNat ≤ n ↔ c.width.toNat ≤ 4 * n := by
  rw [rowBytes_toNat]
  omega

section
variable {c : Canvas} {group : Nat} (h : group < c.rowBytes.toNat)
include h

theorem groupStart_toNat : (UInt32.ofNat group * pixelsPerByte).toNat = group * 4 := by
  have row := c.rowBytes_toNat_le
  rw [UInt32.toNat_mul, UInt32.toNat_ofNat']
  change group % 2 ^ 32 * 4 % 2 ^ 32 = _
  omega

theorem column_toNat_of_lt_rowBytes (i : Fin 4) : (column group i).toNat = group * 4 + i.val := by
  rw [column_toNat (Nat.lt_of_lt_of_le h c.rowBytes_toNat_le), Nat.mul_comm]

theorem column_lt_width_iff (i : Fin 4) : column group i < c.width ↔ group * 4 + i.val < c.width.toNat := by
  rw [UInt32.lt_iff_toNat_lt, column_toNat_of_lt_rowBytes h]

/-- Two fields of a row never stand for one column. -/
theorem column_injective {group' : Nat} (h' : group' < c.rowBytes.toNat) {i j : Fin 4}
    (same : column group i = column group' j) : group = group' ∧ i = j := by
  have columns := congrArg UInt32.toNat same
  rw [column_toNat_of_lt_rowBytes h, column_toNat_of_lt_rowBytes h'] at columns
  have hi := i.isLt
  have hj := j.isLt
  refine ⟨by omega, Fin.eq_of_val_eq (by omega)⟩

end

end Canvas

namespace Raster

variable {r : Raster} {c : Canvas} {y : UInt32} {k : Nat}

theorem field_group_inside (size : r.width = c.width ∧ r.height = c.height) (hy : y < c.height)
    (hk : k < c.rowBytes.toNat) {i : Fin 4} (inside : k * 4 + i.val < c.width.toNat) :
    ∃ p, r.pixel? (.ofNat (k * 4 + i.val)) y = some p ∧
      Group.field (r.group y k).toByte i = Level.ofAlpha p.alpha := by
  have column : Canvas.column k i = .ofNat (k * 4 + i.val) := by
    rw [← Canvas.column_toNat_of_lt_rowBytes hk, UInt32.ofNat_toNat]
  have before := (Canvas.column_lt_width_iff hk i).mpr inside
  have also : r.contains (Canvas.column k i) y = true := by
    rw [contains, size.1, size.2, decide_eq_true before, decide_eq_true hy]
    rfl
  rw [field_group, levelAt, ← column, pixel?, dif_pos also]
  exact ⟨_, rfl, rfl⟩

theorem field_group_beyond (width : r.width = c.width) (hk : k < c.rowBytes.toNat) {i : Fin 4}
    (beyond : c.width.toNat ≤ k * 4 + i.val) : Group.field (r.group y k).toByte i = .transparent := by
  rw [field_group]
  apply levelAt_eq_transparent
  intro inside
  have before := ((contains_iff _ _ _).mp inside).1
  rw [width, Canvas.column_toNat_of_lt_rowBytes hk] at before
  omega

end Raster

/-- Every size and offset of a canvas is the number that its formula gives, for coordinates outside the canvas too, and
so is the column of every field of a row. The test on the column tells the fields with a pixel from the padding: packing
gives a field the level of the pixel at that column, or leaves it transparent beyond the right edge. -/
theorem Canvas.arithmetic_exact (c : Canvas) :
    (c.rowBytes.toNat = (c.width.toNat + 3) / 4 ∧ ∀ n, c.rowBytes.toNat ≤ n ↔ c.width.toNat ≤ 4 * n) ∧
    (c.packedLength.toNat = (c.width.toNat + 3) / 4 * c.height.toNat ∧
      c.pixelCount.toNat = c.width.toNat * c.height.toNat ∧
      c.sampleStride.toNat = c.width.toNat * 4) ∧
    (∀ x y, (c.rowStart y).toNat = y.toNat * ((c.width.toNat + 3) / 4) ∧
      (c.offset x y).toNat = y.toNat * ((c.width.toNat + 3) / 4) + x.toNat / 4) ∧
    (∀ y, y < c.height →
      (c.rowStart y + c.rowBytes).toNat = y.toNat * ((c.width.toNat + 3) / 4) + (c.width.toNat + 3) / 4) ∧
    (∀ group < c.rowBytes.toNat, ∀ i,
      (UInt32.ofNat group * pixelsPerByte).toNat = group * 4 ∧
      (column group i).toNat = group * 4 + i.val ∧
      (column group i < c.width ↔ group * 4 + i.val < c.width.toNat)) ∧
    (∀ group < c.rowBytes.toNat, ∀ group' < c.rowBytes.toNat, ∀ i j,
      column group i = column group' j → group = group' ∧ i = j) ∧
    ∀ r : Raster, r.width = c.width ∧ r.height = c.height → ∀ y, y < c.height →
      ∀ group < c.rowBytes.toNat, ∃ b, (r.packRow y c.rowBytes.toNat)[group]? = some b ∧ ∀ i : Fin 4,
        (group * 4 + i.val < c.width.toNat → ∃ p, r.pixel? (.ofNat (group * 4 + i.val)) y = some p ∧
          Group.field b i = Level.ofAlpha p.alpha) ∧
        (c.width.toNat ≤ group * 4 + i.val → Group.field b i = .transparent) := by
  rw [← c.rowBytes_toNat]
  refine ⟨⟨rfl, c.rowBytes_le_iff⟩, ⟨?_, c.pixelCount_toNat, c.sampleStride_toNat⟩, ?_, ?_, ?_, ?_, ?_⟩
  · rw [packedLength_toNat, Nat.mul_comm]
  · exact fun x y => ⟨c.rowStart_toNat y, c.offset_toNat x y⟩
  · exact fun y _ => c.rowEnd_toNat y
  · exact fun group h i =>
      ⟨groupStart_toNat h, column_toNat_of_lt_rowBytes h i, column_lt_width_iff h i⟩
  · exact fun group h group' h' i j => column_injective h h'
  · intro r size y hy group h
    refine ⟨_, r.getElem?_packRow y h, fun i => ⟨?_, ?_⟩⟩
    · exact Raster.field_group_inside size hy h
    · exact Raster.field_group_beyond size.1 h

/-- The widest row: its last byte has one field beyond the right edge, and that field stands for the largest word. -/
theorem Canvas.arithmetic_exact_widest :
    let c : Canvas := ⟨0xffffffff, 0xffffffff, by decide, by decide⟩
    c.rowBytes.toNat = 2 ^ 30 ∧ c.pixelCount.toNat = 2 ^ 64 - 2 ^ 33 + 1 ∧
      (c.rowStart 0xfffffffe + c.rowBytes).toNat = 0xffffffff * 2 ^ 30 ∧
      (column (2 ^ 30 - 1) 3).toNat = 2 ^ 32 - 1 ∧ ¬ column (2 ^ 30 - 1) 3 < c.width ∧
      column (2 ^ 30 - 1) 2 < c.width := by
  intro c
  obtain ⟨⟨row, _⟩, ⟨_, pixels, _⟩, _, ends, columns, _⟩ := c.arithmetic_exact
  have last : 2 ^ 30 - 1 < c.rowBytes.toNat := by decide
  refine ⟨row.trans (by decide), pixels.trans (by decide), (ends 0xfffffffe (by decide)).trans (by decide),
    (columns _ last 3).2.1, ?_, (columns _ last 2).2.2.mpr (by decide)⟩
  rw [(columns _ last 3).2.2]
  decide

end TwoBitAlpha
