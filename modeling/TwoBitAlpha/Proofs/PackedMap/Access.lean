import TwoBitAlpha.Proofs.PackedMap.Drawing

/-!
Access to one pixel or one row of a map, beside decoding all of it.
-/

namespace TwoBitAlpha.PackedMap

variable {c : Canvas} {bytes : Array UInt8}

theorem eq_of_bytes_eq {m n : PackedMap} (canvas : m.canvas = n.canvas) (bytes : m.bytes = n.bytes) : m = n := by
  cases m
  cases n
  cases canvas
  cases bytes
  rfl

theorem ofBytes_bytes (m : PackedMap) : ofBytes m.bytes m.canvas = .ok m := dif_pos m.size_eq

theorem ofBytes_inv {m : PackedMap} (wrapped : ofBytes bytes c = .ok m) : m.canvas = c ∧ m.bytes = bytes := by
  rw [ofBytes] at wrapped
  split at wrapped
  · cases wrapped
    exact ⟨rfl, rfl⟩
  · cases wrapped

theorem ofBytes_eq_error_iff (e : LengthMismatch) :
    ofBytes bytes c = .error e ↔
      bytes.size ≠ c.packedLength.toNat ∧ e = ⟨c.packedLength, .ofNat bytes.size⟩ := by
  rw [ofBytes]
  split
  · rename_i size
    constructor
    · intro refused
      cases refused
    · intro refused
      exact absurd size refused.1
  · rename_i size
    rw [Except.error.injEq, eq_comm]
    exact ⟨fun mismatch => ⟨size, mismatch⟩, And.right⟩

theorem ofPackedBytes_eq_map : Raster.ofPackedBytes bytes c = (ofBytes bytes c).map toRaster := by
  rw [Raster.ofPackedBytes, ofBytes]
  split
  · rfl
  · rfl

theorem ofPackedBytes_inv {r : Raster} (decoded : Raster.ofPackedBytes bytes c = .ok r) :
    ∃ size : bytes.size = c.packedLength.toNat, r = toRaster ⟨c, bytes, size⟩ := by
  rw [Raster.ofPackedBytes] at decoded
  split at decoded
  · rename_i size
    exact ⟨size, (Except.ok.inj decoded).symm⟩
  · cases decoded

theorem exists_ofPackedBytes_iff (bytes : Array UInt8) (c : Canvas) :
    (∃ s, Raster.ofPackedBytes bytes c = .ok s) ↔ bytes.size = c.packedLength.toNat := by
  constructor
  · rintro ⟨s, decoded⟩
    exact (ofPackedBytes_inv decoded).1
  · intro size
    exact ⟨_, ofPackedBytes_bytes ⟨c, bytes, size⟩⟩

theorem levelAt?_eq_none_iff (m : PackedMap) (x y : UInt32) :
    m.levelAt? x y = none ↔ m.canvas.width ≤ x ∨ m.canvas.height ≤ y := by
  have outside : ¬ m.canvas.contains x y = true ↔ m.canvas.width ≤ x ∨ m.canvas.height ≤ y := by
    rw [Canvas.contains_iff, UInt32.le_iff_toNat_le, UInt32.le_iff_toNat_le]
    omega
  rw [← outside]
  constructor
  · intro missing inside
    obtain ⟨b, _, level⟩ := m.levelAt?_inside inside
    rw [missing] at level
    cases level
  · exact m.levelAt?_outside

theorem row?_inside (m : PackedMap) {y : UInt32} (inside : y < m.canvas.height) :
    m.row? y = some (m.bytes.extract (y.toNat * m.canvas.rowBytes.toNat)
      (y.toNat * m.canvas.rowBytes.toNat + m.canvas.rowBytes.toNat)) := by
  simp only [row?, if_pos inside, Canvas.rowStart_toNat, Canvas.rowEnd_toNat]

theorem row?_eq_none_iff (m : PackedMap) (y : UInt32) : m.row? y = none ↔ m.canvas.height ≤ y := by
  rw [← UInt32.not_lt]
  constructor
  · intro missing inside
    rw [m.row?_inside inside] at missing
    cases missing
  · intro outside
    rw [row?, if_neg outside]

theorem getElem?_row (m : PackedMap) {x y : UInt32} {row : Array UInt8}
    (inside : m.canvas.contains x y = true) (found : m.row? y = some row) :
    row[x.toNat / 4]? = m.bytes[(m.canvas.offset x y).toNat]? := by
  obtain ⟨hx, hy⟩ := (Canvas.contains_iff _ _ _).mp inside
  have byte_lt := Canvas.div_four_lt_rowBytes hx
  have offset_lt := m.offset_lt inside
  have row_end := row_end_le_size m.size_eq hy
  rw [m.row?_inside (UInt32.lt_iff_toNat_lt.mpr hy)] at found
  cases found
  rw [Array.getElem?_extract, if_pos (by omega), Canvas.offset_toNat]

theorem length_pos (m : PackedMap) : 0 < m.length := by
  rw [length, m.size_eq, Canvas.packedLength_toNat]
  exact Nat.mul_pos m.canvas.height_toNat_pos m.canvas.rowBytes_toNat_pos

theorem flatMap_extract (bytes : Array UInt8) (size n : Nat) :
    ((List.range n).flatMap fun y => (bytes.extract (y * size) (y * size + size)).toList) =
      bytes.toList.take (n * size) := by
  simp only [Array.toList_extract, List.extract_eq_take_drop, Nat.add_sub_cancel_left, flatMap_take_drop]

theorem flatMap_rows (m : PackedMap) :
    ∃ rows : List (Array UInt8),
      (List.range m.canvas.height.toNat).map (fun y => m.row? (.ofNat y)) = rows.map some ∧
      rows.flatMap Array.toList = m.bytes.toList := by
  refine ⟨(List.range m.canvas.height.toNat).map fun y =>
    m.bytes.extract (y * m.canvas.rowBytes.toNat) (y * m.canvas.rowBytes.toNat + m.canvas.rowBytes.toNat),
    ?_, ?_⟩
  · rw [List.map_map]
    apply List.map_congr_left
    intro y member
    have row_lt := List.mem_range.mp member
    have row : (UInt32.ofNat y).toNat = y := toNat_ofNat_of_lt_toNat row_lt
    rw [m.row?_inside (UInt32.lt_iff_toNat_lt.mpr (by rwa [row])), row]
    rfl
  · have all : m.canvas.height.toNat * m.canvas.rowBytes.toNat = m.bytes.size := by
      rw [m.size_eq, Canvas.packedLength_toNat]
    rw [List.flatMap_map, flatMap_extract, all]
    exact List.take_of_length_le (Nat.le_of_eq Array.length_toList)

theorem shift_fieldOf (x : UInt32) :
    (6 - 2 * (x % 4)).toUInt8 = 6 - 2 * UInt8.ofNat (Canvas.fieldOf x).val := by
  have shift : ∀ k : Fin 4, (6 - 2 * UInt32.ofNat k.val).toUInt8 = 6 - 2 * UInt8.ofNat k.val := by decide
  have field : UInt32.ofNat (Canvas.fieldOf x).val = x % 4 := UInt32.ofNat_toNat
  rw [← shift, field]

/-- Decoding in one go is wrapping and then drawing, errors included, and every way to reach a pixel of the
wrapped bytes finds the same field: the look-up, the row with its byte, the offset, and the picture. -/
theorem random_access_agrees (c : Canvas) (bytes : Array UInt8) :
    Raster.ofPackedBytes bytes c = (ofBytes bytes c).map toRaster ∧
    (∀ e, ofBytes bytes c = .error e ↔
      bytes.size ≠ c.packedLength.toNat ∧ e = ⟨c.packedLength, .ofNat bytes.size⟩) ∧
    ∀ m, ofBytes bytes c = .ok m →
      m.canvas = c ∧ m.bytes = bytes ∧
      (∀ x y, m.levelAt? x y = none ↔ c.width ≤ x ∨ c.height ≤ y) ∧
      (∀ x y, x < c.width → y < c.height → ∃ row b l,
        m.row? y = some row ∧ row[(x / 4).toNat]? = some b ∧ bytes[(c.offset x y).toNat]? = some b ∧
        m.levelAt? x y = some l ∧ l.toBits = (b >>> (6 - 2 * (x % 4)).toUInt8) &&& 3 ∧
        m.toRaster.pixel? x y = some ⟨255, 255, 255, l.alpha⟩) ∧
      (∀ y, m.row? y = none ↔ c.height ≤ y) ∧
      ∃ rows : List (Array UInt8),
        (List.range c.height.toNat).map (fun y => m.row? (.ofNat y)) = rows.map some ∧
        rows.flatMap Array.toList = bytes.toList := by
  refine ⟨ofPackedBytes_eq_map, ofBytes_eq_error_iff, ?_⟩
  intro m wrapped
  obtain ⟨rfl, rfl⟩ := ofBytes_inv wrapped
  refine ⟨rfl, rfl, m.levelAt?_eq_none_iff, ?_, m.row?_eq_none_iff, m.flatMap_rows⟩
  intro x y hx hy
  have inside : m.canvas.contains x y = true :=
    (Canvas.contains_iff _ _ _).mpr ⟨UInt32.lt_iff_toNat_lt.mp hx, UInt32.lt_iff_toNat_lt.mp hy⟩
  obtain ⟨b, byte, level⟩ := m.levelAt?_inside inside
  have row := m.row?_inside hy
  refine ⟨_, b, _, row, (m.getElem?_row inside row).trans byte, byte, level, ?_, ?_⟩
  · rw [Group.toBits_field, shift_fieldOf]
  · rw [pixel?_toRaster, level, Option.map_some, Level.whitePixel]

end TwoBitAlpha.PackedMap
