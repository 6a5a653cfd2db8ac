import TwoBitAlpha.PackedMap.Packing
import TwoBitAlpha.Proofs.PackedMap.Drawing

/-!
What packing a raster puts into each field.

The field of a pixel holds the level of its alpha, and a field beyond the right edge is transparent. With
the facts about drawings this gives the round trip from a raster to bytes and back.
-/

namespace TwoBitAlpha

namespace Raster

theorem levelAt_eq_transparent {r : Raster} {x y : UInt32} (outside : ¬ r.contains x y = true) :
    r.levelAt x y = .transparent := by
  rw [levelAt, pixel?_outside outside]

theorem levelAt_congr {r s : Raster} {x y u v : UInt32} (pixel : r.pixel? x y = s.pixel? u v) :
    r.levelAt x y = s.levelAt u v := by
  rw [levelAt, levelAt, pixel]

/-- The test on the column only saves a look-up: past the right edge there is no pixel. -/
theorem field_group (r : Raster) (y : UInt32) (k : Nat) (i : Fin 4) :
    Group.field (r.group y k).toByte i = r.levelAt (Canvas.column k i) y := by
  rw [Group.field_toByte]
  simp only [group, Fin.getElem_fin, Vector.getElem_ofFn]
  split
  · rfl
  · rename_i beyond
    refine (levelAt_eq_transparent fun inside => beyond ?_).symm
    exact UInt32.lt_iff_toNat_lt.mpr ((contains_iff _ _ _).mp inside).1

theorem getElem?_packRow (r : Raster) (y : UInt32) {n k : Nat} (hk : k < n) :
    (r.packRow y n)[k]? = some (r.group y k).toByte := by
  rw [packRow, List.getElem?_map, List.getElem?_range hk, Option.map_some]

/-- What is packed of a row depends on the levels of that row alone. -/
theorem packRow_congr {r s : Raster} {y z : UInt32} (levels : ∀ x, s.levelAt x z = r.levelAt x y) (n : Nat) :
    s.packRow z n = r.packRow y n := by
  apply List.map_congr_left
  intro k _
  apply Group.eq_of_field_eq
  intro i
  rw [field_group, field_group, levels]

end Raster

namespace PackedMap

variable {r : Raster} {c : Canvas} {m : PackedMap}

theorem zipIdx_map_range {β : Type} (f : Nat → β) (n : Nat) :
    ((List.range n).map f).zipIdx = (List.range n).map fun y => (f y, y) := by
  apply List.ext_getElem?
  intro y
  rw [List.getElem?_zipIdx, List.getElem?_map, List.getElem?_map]
  by_cases row : y < n
  · rw [List.getElem?_range row, Option.map_some, Option.map_some, Option.map_some, Nat.zero_add]
  · rw [List.getElem?_eq_none (by rw [List.length_range]; omega), Option.map_none, Option.map_none,
      Option.map_none]

theorem rowWrites_eq (r : Raster) (c : Canvas) :
    rowWrites r c = RowWrite.rows c.height.toNat c.rowBytes.toNat fun y =>
      r.packRow (UInt32.ofNat y) c.rowBytes.toNat := by
  have spans := Span.cut_mul c.height.toNat c.rowBytes_toNat_pos
  rw [← c.packedLength_toNat] at spans
  simp only [rowWrites, spans, zipIdx_map_range, List.map_map, RowWrite.rows]
  rfl

theorem length_packRow (r : Raster) (c : Canvas) : ∀ y < c.height.toNat,
    (r.packRow (UInt32.ofNat y) c.rowBytes.toNat).length = c.rowBytes.toNat := by
  intro y _
  rw [Raster.packRow, List.length_map, List.length_range]

theorem ofRaster_eq_ok (size : r.width = c.width ∧ r.height = c.height) :
    ∃ m, ofRaster r c = .ok m := by
  rw [ofRaster, if_pos size]
  exact ⟨_, rfl⟩

theorem ofRaster_inv (packed : ofRaster r c = .ok m) :
    (r.width = c.width ∧ r.height = c.height) ∧ m.canvas = c ∧
      m.bytes = RowWrite.runAll (rowWrites r c) (Array.replicate c.packedLength.toNat 0) := by
  rw [ofRaster] at packed
  split at packed
  · rename_i size
    cases packed
    exact ⟨size, rfl, rfl⟩
  · cases packed

theorem bytes_ofRaster (packed : ofRaster r c = .ok m) :
    m.bytes = ofRows c.height.toNat fun y => r.packRow (UInt32.ofNat y) c.rowBytes.toNat := by
  obtain ⟨_, _, bytes⟩ := ofRaster_inv packed
  rw [bytes]
  apply RowWrite.runAll_rows (.of_eq (rowWrites_eq r c)) (length_packRow r c)
  rw [Array.size_replicate, c.packedLength_toNat]

theorem getElem?_ofRaster (packed : ofRaster r c = .ok m) {y k : Nat} (hy : y < c.height.toNat)
    (hk : k < c.rowBytes.toNat) :
    m.bytes[y * c.rowBytes.toNat + k]? = some (r.group (UInt32.ofNat y) k).toByte := by
  rw [bytes_ofRaster packed, getElem?_ofRows (length_packRow r c) hy hk, r.getElem?_packRow _ hk]

/-- Each field of a packed map holds the level at its column and row, which is transparent past the edge. -/
theorem field_ofRaster (packed : ofRaster r c = .ok m) {i : Nat} {b : UInt8} (byte : m.bytes[i]? = some b)
    (k : Fin 4) : Group.field b k = r.levelAt (c.slotColumn i k) (c.slotRow i) := by
  obtain ⟨_, canvas, _⟩ := ofRaster_inv packed
  obtain ⟨i_lt, _⟩ := Array.getElem?_eq_some_iff.mp byte
  rw [m.size_eq, canvas] at i_lt
  have written := getElem?_ofRaster packed (Canvas.div_rowBytes_lt i_lt) (Nat.mod_lt i c.rowBytes_toNat_pos)
  rw [Nat.div_add_mod', byte] at written
  rw [Option.some.inj written, Raster.field_group]
  rfl

theorem levelAt?_ofRaster (packed : ofRaster r c = .ok m) (x y : UInt32) :
    m.levelAt? x y = (r.pixel? x y).map fun p => Level.ofAlpha p.alpha := by
  obtain ⟨⟨width, height⟩, rfl, _⟩ := ofRaster_inv packed
  by_cases inside : m.canvas.contains x y = true
  · have also : r.contains x y = true := by rwa [Raster.contains, width, height]
    obtain ⟨b, byte, level⟩ := m.levelAt?_inside inside
    rw [level, field_ofRaster packed byte, Canvas.slotColumn_offset inside, Canvas.slotRow_offset inside,
      Raster.levelAt, Raster.pixel?, dif_pos also, Option.map_some]
  · have also : ¬ r.contains x y = true := by rwa [Raster.contains, width, height]
    rw [m.levelAt?_outside inside, Raster.pixel?_outside also, Option.map_none]

end PackedMap

end TwoBitAlpha
