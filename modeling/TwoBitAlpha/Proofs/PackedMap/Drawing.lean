import TwoBitAlpha.PackedMap.Drawing
import TwoBitAlpha.Proofs.Canvas.Layout
import TwoBitAlpha.Proofs.Raster
import TwoBitAlpha.Proofs.Rows

/-!
What a drawing shows at each pixel.

The walk over rows, bytes and fields gives pixel `(x, y)` the entry of the level that a look-up at
`(x, y)` finds: `PackedMap.getElem?_draw_level`. No entry of the fresh buffer is left over.
-/

namespace TwoBitAlpha.PackedMap

/-- The spans of four cut the fields of a row down to its pixels, wherever the last group ends. -/
theorem rowLevels_eq (row : List UInt8) (n : Nat) :
    rowLevels row n = (row.flatMap fun b => (Group.ofByte b).toList).take n := by
  induction row generalizing n with
  | nil => rw [rowLevels, List.zip_nil_left, List.flatMap_nil, List.flatMap_nil, List.take_nil]
  | cons b rest ih =>
      rcases Nat.eq_zero_or_pos n with rfl | pos
      · rw [rowLevels, Span.cut_zero (by decide), List.zip_nil_right, List.flatMap_nil, List.take_zero]
      · rw [rowLevels, Span.cut_of_pos (by decide) pos, List.zip_cons_cons, List.flatMap_cons,
          List.zip_map_right, List.flatMap_map]
        change (Group.ofByte b).toList.take (min 4 n) ++ rowLevels rest (n - 4) = _
        rw [ih, List.flatMap_cons, List.take_append, Vector.length_toList]
        congr 1
        rw [List.take_eq_take_iff, Vector.length_toList]
        omega

theorem length_flatMap_ofByte (row : List UInt8) :
    (row.flatMap fun b => (Group.ofByte b).toList).length = 4 * row.length := by
  induction row with
  | nil => rfl
  | cons b rest ih =>
      rw [List.flatMap_cons, List.length_append, ih, Vector.length_toList, List.length_cons]
      omega

theorem length_rowLevels {row : List UInt8} {n : Nat} (h : n ≤ 4 * row.length) :
    (rowLevels row n).length = n := by
  rw [rowLevels_eq, List.length_take, length_flatMap_ofByte, Nat.min_eq_left h]

theorem getElem?_flatMap_ofByte (row : List UInt8) (x : Nat) :
    (row.flatMap fun b => (Group.ofByte b).toList)[x]? =
      row[x / 4]?.map fun b => Group.field b ⟨x % 4, Nat.mod_lt _ (by decide)⟩ := by
  induction row generalizing x with
  | nil => rfl
  | cons b rest ih =>
      rw [List.flatMap_cons]
      by_cases first : x < 4
      · have group : x / 4 = 0 := Nat.div_eq_of_lt first
        have field : x % 4 = x := Nat.mod_eq_of_lt first
        rw [List.getElem?_append_left (by rwa [Vector.length_toList])]
        simp only [group, field, List.getElem?_cons_zero, Option.map_some]
        rw [List.getElem?_eq_getElem (by rwa [Vector.length_toList]), Vector.getElem_toList]
        rfl
      · have group : x / 4 = (x - 4) / 4 + 1 := by omega
        have field : (x - 4) % 4 = x % 4 := by omega
        rw [List.getElem?_append_right (by rw [Vector.length_toList]; omega), Vector.length_toList, ih]
        simp only [group, field, List.getElem?_cons_succ]

theorem getElem?_rowLevels {x n : Nat} (row : List UInt8) (h : x < n) :
    (rowLevels row n)[x]? = row[x / 4]?.map fun b => Group.field b ⟨x % 4, Nat.mod_lt _ (by decide)⟩ := by
  rw [rowLevels_eq, List.getElem?_take_of_lt h, getElem?_flatMap_ofByte]

section
variable {α : Type} (entry : Level → α) (blank : α) {bytes : Array UInt8} {c : Canvas}

/-- As many rows of pixels as rows of bytes, so that pairing them loses none. -/
theorem drawWrites_eq (size : bytes.size = c.packedLength.toNat) :
    drawWrites entry bytes c = RowWrite.rows c.height.toNat c.width.toNat fun y =>
      (rowLevels (Span.read ⟨y * c.rowBytes.toNat, c.rowBytes.toNat⟩ bytes) c.width.toNat).map entry := by
  rw [drawWrites, c.pixelCount_toNat, size, c.packedLength_toNat, Nat.mul_comm c.width.toNat,
    Span.cut_mul _ c.width_toNat_pos, Span.cut_mul _ c.rowBytes_toNat_pos, List.zip_map', List.map_map]
  rfl

theorem row_end_le_size (size : bytes.size = c.packedLength.toNat) {y : Nat} (hy : y < c.height.toNat) :
    y * c.rowBytes.toNat + c.rowBytes.toNat ≤ bytes.size := by
  rw [size, c.packedLength_toNat]
  exact row_end_le hy

/-- A row of bytes has enough fields for a row of pixels. -/
theorem length_drawnRow (size : bytes.size = c.packedLength.toNat) {y : Nat} (hy : y < c.height.toNat) :
    ((rowLevels (Span.read ⟨y * c.rowBytes.toNat, c.rowBytes.toNat⟩ bytes) c.width.toNat).map entry).length =
      c.width.toNat := by
  have wide : c.width.toNat ≤ 4 * c.rowBytes.toNat := by
    rw [c.rowBytes_toNat]
    omega
  rw [List.length_map, length_rowLevels (by rwa [Span.length_read (row_end_le_size size hy)])]

theorem draw_eq_ofRows (size : bytes.size = c.packedLength.toNat) :
    draw entry blank bytes c = ofRows c.height.toNat fun y =>
      (rowLevels (Span.read ⟨y * c.rowBytes.toNat, c.rowBytes.toNat⟩ bytes) c.width.toNat).map entry := by
  apply RowWrite.runAll_rows (.of_eq (drawWrites_eq entry size)) fun y hy => length_drawnRow entry size hy
  rw [Array.size_replicate, c.pixelCount_toNat, Nat.mul_comm]

theorem getElem?_draw (size : bytes.size = c.packedLength.toNat) {x y : Nat} (hx : x < c.width.toNat)
    (hy : y < c.height.toNat) :
    (draw entry blank bytes c)[y * c.width.toNat + x]? = bytes[y * c.rowBytes.toNat + x / 4]?.map
      fun b => entry (Group.field b ⟨x % 4, Nat.mod_lt _ (by decide)⟩) := by
  rw [draw_eq_ofRows entry blank size, getElem?_ofRows (fun z hz => length_drawnRow entry size hz) hy hx,
    List.getElem?_map, getElem?_rowLevels _ hx,
    Span.getElem?_read (row_end_le_size size hy) (Canvas.div_four_lt_rowBytes hx), Option.map_map]
  rfl

end

theorem offset_lt (m : PackedMap) {x y : UInt32} (inside : m.canvas.contains x y = true) :
    (m.canvas.offset x y).toNat < m.bytes.size := by
  rw [m.size_eq]
  exact Canvas.offset_lt_packedLength inside

theorem levelAt?_inside (m : PackedMap) {x y : UInt32} (inside : m.canvas.contains x y = true) :
    ∃ b, m.bytes[(m.canvas.offset x y).toNat]? = some b ∧
      m.levelAt? x y = some (Group.field b (Canvas.fieldOf x)) := by
  refine ⟨_, Array.getElem?_eq_getElem (m.offset_lt inside), ?_⟩
  rw [levelAt?, if_pos inside, Array.getElem?_eq_getElem (m.offset_lt inside), Option.map_some]

theorem levelAt?_outside (m : PackedMap) {x y : UInt32} (outside : ¬ m.canvas.contains x y = true) :
    m.levelAt? x y = none := by
  rw [levelAt?, if_neg outside]

/-- Bulk drawing and look-up of one pixel find the same level. -/
theorem getElem?_draw_level {α : Type} (entry : Level → α) (blank : α) (m : PackedMap) {x y : UInt32}
    (inside : m.canvas.contains x y = true) :
    (draw entry blank m.bytes m.canvas)[y.toNat * m.canvas.width.toNat + x.toNat]? =
      (m.levelAt? x y).map entry := by
  obtain ⟨hx, hy⟩ := (Canvas.contains_iff _ _ _).mp inside
  rw [getElem?_draw entry blank m.size_eq hx hy, levelAt?, if_pos inside, Canvas.offset_toNat,
    Option.map_map]
  rfl

theorem ofPackedBytes_bytes (m : PackedMap) : Raster.ofPackedBytes m.bytes m.canvas = .ok m.toRaster := by
  rw [Raster.ofPackedBytes, if_pos m.size_eq, toRaster]

theorem pixel?_toRaster (m : PackedMap) (x y : UInt32) :
    m.toRaster.pixel? x y = (m.levelAt? x y).map Level.whitePixel := by
  by_cases inside : m.canvas.contains x y = true
  · rw [Raster.pixel?_inside (r := m.toRaster) inside]
    exact getElem?_draw_level Level.whitePixel Pixel.clear m inside
  · rw [Raster.pixel?_outside (r := m.toRaster) inside, m.levelAt?_outside inside, Option.map_none]

end TwoBitAlpha.PackedMap
