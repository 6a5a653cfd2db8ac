import TwoBitAlpha.Proofs.PackedMap.Access
import TwoBitAlpha.Proofs.PackedMap.Padding

/-!
Cutting a map and its picture into rows, and rows into groups.

A map has as many bytes as its canvas asks for, however it was made. So the bytes fall into one span for each
row of the picture, and the bytes of a row into one for each group of its pixels. Rows and groups can be
paired without losing any, and each pixel is drawn by one row.
-/

namespace TwoBitAlpha

namespace Span

/-- Cutting into spans of `size` gives `n` spans, all of them full. -/
structure CutsEvenly (total size n : Nat) : Prop where
  size_pos : 0 < size
  count : (cut total size).length = n
  full : ∀ s ∈ cut total size, s.size = size

theorem cutsEvenly_mul (n : Nat) {size : Nat} (h : 0 < size) : CutsEvenly (n * size) size n := by
  refine ⟨h, ?_, ?_⟩
  · rw [cut_mul n h, List.length_map, List.length_range]
  · intro s member
    rw [cut_mul n h] at member
    obtain ⟨k, _, rfl⟩ := List.mem_map.mp member
    rfl

theorem length_cut (total size : Nat) : (cut total size).length = (total + size - 1) / size := by
  rw [cut, List.length_map, List.length_range]

theorem getElem?_cut {total size k : Nat} (h : k < (total + size - 1) / size) :
    (cut total size)[k]? = some ⟨k * size, min size (total - k * size)⟩ := by
  rw [cut, List.getElem?_map, List.getElem?_range h, Option.map_some]

end Span

namespace RowWrite

variable {α : Type}

/-- Each position of the buffer is written by one row. -/
theorem countP_rows {n size : Nat} {row : Nat → List α} (len : ∀ y < n, (row y).length = size) {y j : Nat}
    (hy : y < n) (hj : j < size) :
    (rows n size row).countP (fun w => (w.entryAt (y * size + j)).isSome) = 1 := by
  have reached : ∀ z ∈ List.range n,
      ((⟨z * size, row z⟩ : RowWrite α).entryAt (y * size + j)).isSome = true ↔ (z == y) = true := by
    intro z member
    rw [beq_iff_eq]
    constructor
    · intro found
      obtain ⟨b, left⟩ := Option.isSome_iff_exists.mp found
      exact row_eq_of_entryAt (len z (List.mem_range.mp member)) hj left
    · rintro rfl
      rw [entryAt_row, List.getElem?_eq_getElem (by rwa [len z hy])]
      rfl
  have once : (List.range n).count y = 1 := by
    rw [List.count_range, if_pos hy]
  rw [rows, List.countP_map]
  exact (List.countP_congr reached).trans once

end RowWrite

namespace Canvas

/-- A row of pixels has as many groups of four as a packed row has bytes. -/
theorem length_cut_width (c : Canvas) : (Span.cut c.width.toNat 4).length = c.rowBytes.toNat := by
  rw [Span.length_cut, rowBytes_toNat]
  rfl

theorem length_cut_sampleStride (c : Canvas) :
    (Span.cut c.sampleStride.toNat 16).length = c.rowBytes.toNat := by
  rw [Span.length_cut, sampleStride_toNat, rowBytes_toNat]
  omega

theorem cutsEvenly_pixelCount (c : Canvas) :
    Span.CutsEvenly c.pixelCount.toNat c.width.toNat c.height.toNat := by
  rw [pixelCount_toNat, Nat.mul_comm]
  exact Span.cutsEvenly_mul _ c.width_toNat_pos

theorem cutsEvenly_samples (c : Canvas) :
    Span.CutsEvenly (c.pixelCount.toNat * 4) c.sampleStride.toNat c.height.toNat := by
  have stride := c.sampleStride_toNat
  have width_pos := c.width_toNat_pos
  rw [pixelCount_toNat, Nat.mul_comm c.width.toNat, Nat.mul_assoc, ← stride]
  exact Span.cutsEvenly_mul _ (by omega)

end Canvas

namespace PackedMap

variable {m : PackedMap}

/-- The maps that can be had: packed from a raster, wrapped around bytes, or wrapped around the bytes of a
map that was had before, for any canvas. A step that fails gives no map. -/
inductive Obtained : PackedMap → Prop
  | packed {r : Raster} {c : Canvas} {m : PackedMap} : ofRaster r c = .ok m → Obtained m
  | wrapped {bytes : Array UInt8} {c : Canvas} {m : PackedMap} : ofBytes bytes c = .ok m → Obtained m
  | rewrapped {n : PackedMap} {c : Canvas} {m : PackedMap} :
      Obtained n → ofBytes n.bytes c = .ok m → Obtained m

section
variable {r : Raster} {bytes : Array UInt8} {c : Canvas}

/-- Packing fills a buffer that was made for the canvas. -/
theorem length_ofRaster (packed : ofRaster r c = .ok m) : m.length = m.canvas.packedLength.toNat := by
  obtain ⟨_, canvas, bytes⟩ := ofRaster_inv packed
  rw [length, canvas, bytes, RowWrite.size_runAll, Array.size_replicate]

/-- Wrapping looks at the number of bytes first. -/
theorem length_ofBytes (wrapped : ofBytes bytes c = .ok m) : m.length = m.canvas.packedLength.toNat := by
  rw [ofBytes] at wrapped
  split at wrapped
  · rename_i size
    cases wrapped
    exact size
  · cases wrapped

end

theorem Obtained.length_eq (had : Obtained m) : m.length = m.canvas.packedLength.toNat := by
  induction had with
  | packed done => exact length_ofRaster done
  | wrapped done => exact length_ofBytes done
  | rewrapped _ done _ => exact length_ofBytes done

section
variable (size : m.length = m.canvas.packedLength.toNat)
include size

theorem rowEnd_le_length {y : UInt32} (inside : y < m.canvas.height) :
    (m.canvas.rowStart y + m.canvas.rowBytes).toNat ≤ m.length := by
  rw [size, Canvas.packedLength_toNat, Canvas.rowEnd_toNat]
  exact row_end_le (UInt32.lt_iff_toNat_lt.mp inside)

theorem cutsEvenly_length :
    Span.CutsEvenly m.length m.canvas.rowBytes.toNat m.canvas.height.toNat := by
  rw [size, Canvas.packedLength_toNat]
  exact Span.cutsEvenly_mul _ m.canvas.rowBytes_toNat_pos

/-- One row draws a pixel, and no other. -/
theorem countP_drawWrites {α : Type} (entry : Level → α) {x y : UInt32}
    (inside : m.canvas.contains x y = true) :
    (drawWrites entry m.bytes m.canvas).countP
      (fun w => (w.entryAt (y.toNat * m.canvas.width.toNat + x.toNat)).isSome) = 1 := by
  obtain ⟨hx, hy⟩ := (Canvas.contains_iff _ _ _).mp inside
  rw [drawWrites_eq entry size]
  exact RowWrite.countP_rows (fun z hz => length_drawnRow entry size hz) hy hx

end

/-- A group of pixels leaves out the fields of its byte that are padding, and those alone. -/
theorem exists_group_eq (m : PackedMap) (i : Nat) (k : Fin 4) :
    ∃ group, (Span.cut m.canvas.width.toNat 4)[i % m.canvas.rowBytes.toNat]? = some group ∧
      group.start = 4 * (i % m.canvas.rowBytes.toNat) ∧
      (group.size ≤ k.val ↔ m.canvas.IsPadding i k) := by
  have byte_lt := Nat.mod_lt i m.canvas.rowBytes_toNat_pos
  have groups : m.canvas.rowBytes.toNat = (m.canvas.width.toNat + 4 - 1) / 4 := m.canvas.rowBytes_toNat
  refine ⟨_, Span.getElem?_cut (by omega), Nat.mul_comm _ _, ?_⟩
  rw [Canvas.isPadding_iff]
  have field_lt := k.isLt
  simp only
  omega

/-- A field that is not padding has a pixel, and every drawing shows it there. -/
theorem draw_slot (m : PackedMap) {i : Nat} {b : UInt8} {k : Fin 4} (byte : m.bytes[i]? = some b)
    (shown : ¬ m.canvas.IsPadding i k) :
    m.canvas.contains (m.canvas.slotColumn i k) (m.canvas.slotRow i) = true ∧
    ∀ (α : Type) (entry : Level → α) (blank : α),
      (draw entry blank m.bytes m.canvas)[(m.canvas.slotRow i).toNat * m.canvas.width.toNat +
        (m.canvas.slotColumn i k).toNat]? = some (entry (Group.field b k)) := by
  obtain ⟨i_lt, _⟩ := Array.getElem?_eq_some_iff.mp byte
  rw [m.size_eq] at i_lt
  have inside := (Canvas.contains_slot_iff i_lt k).mpr shown
  refine ⟨inside, ?_⟩
  intro α entry blank
  rw [getElem?_draw_level entry blank m inside, m.levelAt?_slot byte, if_neg shown, Option.map_some]

/-- However a map was had, it is as long as its canvas asks for and not empty. So every row and every byte that
is asked for lies in the map, the bytes and the entries or samples of a picture fall into full rows, as many as the
canvas has, and the bytes and groups of a row are equal in number. Each pixel is drawn by one row, the fields that no
group takes are the padding, and every other field is drawn at its pixel. -/
theorem obtained_splits (had : Obtained m) :
    (m.length = m.canvas.packedLength.toNat ∧ m.length ≠ 0 ∧ m.isEmpty = false) ∧
    (∀ y, y < m.canvas.height →
      (m.canvas.rowStart y + m.canvas.rowBytes).toNat =
        (m.canvas.rowStart y).toNat + m.canvas.rowBytes.toNat ∧
      (m.canvas.rowStart y + m.canvas.rowBytes).toNat ≤ m.length) ∧
    (∀ x y, m.canvas.contains x y = true → (m.canvas.offset x y).toNat < m.length) ∧
    (Span.CutsEvenly m.length m.canvas.rowBytes.toNat m.canvas.height.toNat ∧
      Span.CutsEvenly m.canvas.pixelCount.toNat m.canvas.width.toNat m.canvas.height.toNat ∧
      Span.CutsEvenly (m.canvas.pixelCount.toNat * 4) m.canvas.sampleStride.toNat m.canvas.height.toNat) ∧
    ((Span.cut m.canvas.width.toNat 4).length = m.canvas.rowBytes.toNat ∧
      (Span.cut m.canvas.sampleStride.toNat 16).length = m.canvas.rowBytes.toNat) ∧
    (∀ (α : Type) (entry : Level → α),
      (drawWrites entry m.bytes m.canvas).length = m.canvas.height.toNat ∧
      ∀ x y, m.canvas.contains x y = true →
        (drawWrites entry m.bytes m.canvas).countP
          (fun w => (w.entryAt (y.toNat * m.canvas.width.toNat + x.toNat)).isSome) = 1) ∧
    (∀ i < m.length, ∀ k : Fin 4,
      ∃ group, (Span.cut m.canvas.width.toNat 4)[i % m.canvas.rowBytes.toNat]? = some group ∧
        group.start = 4 * (i % m.canvas.rowBytes.toNat) ∧
        (group.size ≤ k.val ↔ m.canvas.IsPadding i k)) ∧
    ∀ (i : Nat) (b : UInt8) (k : Fin 4), m.bytes[i]? = some b → ¬ m.canvas.IsPadding i k →
      m.canvas.contains (m.canvas.slotColumn i k) (m.canvas.slotRow i) = true ∧
      ∀ (α : Type) (entry : Level → α) (blank : α),
        (draw entry blank m.bytes m.canvas)[(m.canvas.slotRow i).toNat * m.canvas.width.toNat +
          (m.canvas.slotColumn i k).toNat]? = some (entry (Group.field b k)) := by
  have size := had.length_eq
  have length_pos := m.length_pos
  refine ⟨⟨size, by omega, ?_⟩, ?_, ?_, ⟨cutsEvenly_length size, m.canvas.cutsEvenly_pixelCount,
    m.canvas.cutsEvenly_samples⟩, ⟨m.canvas.length_cut_width, m.canvas.length_cut_sampleStride⟩, ?_, ?_, ?_⟩
  · rw [isEmpty, Array.isEmpty_eq_false_iff_exists_mem]
    exact ⟨m.bytes[0], Array.getElem_mem length_pos⟩
  · intro y inside
    refine ⟨?_, rowEnd_le_length size inside⟩
    rw [Canvas.rowEnd_toNat, Canvas.rowStart_toNat]
  · intro x y inside
    rw [size]
    exact Canvas.offset_lt_packedLength inside
  · intro α entry
    refine ⟨?_, fun x y inside => countP_drawWrites size entry inside⟩
    rw [drawWrites_eq entry size, RowWrite.rows, List.length_map, List.length_range]
  · intro i _ k
    exact m.exists_group_eq i k
  · intro i b k byte shown
    exact m.draw_slot byte shown

/-- Five columns and two rows, wrapped again as thirteen columns of one row. -/
theorem obtained_splits_rewrapped :
    ∃ n m, ofRaster (.ofFn 5 2 fun x y => ⟨0, 0, 0, .ofNat (50 * x + y)⟩) ⟨5, 2, by decide, by decide⟩ = .ok n ∧
      ofBytes n.bytes ⟨13, 1, by decide, by decide⟩ = .ok m ∧ m.length = 4 ∧ m.isEmpty = false ∧
      (m.canvas.offset 12 0).toNat < m.length ∧
      ∀ b, m.bytes[3]? = some b →
        (draw id .transparent m.bytes m.canvas)[12]? = some (Group.field b 0) := by
  obtain ⟨n, packed⟩ := ofRaster_eq_ok (r := .ofFn 5 2 fun x y => ⟨0, 0, 0, .ofNat (50 * x + y)⟩)
    (c := ⟨5, 2, by decide, by decide⟩) ⟨rfl, rfl⟩
  have size : n.bytes.size = 4 := by
    rw [n.size_eq, (ofRaster_inv packed).2.1]
    decide
  obtain ⟨m, wrapped⟩ : ∃ m, ofBytes n.bytes ⟨13, 1, by decide, by decide⟩ = .ok m := by
    rw [ofBytes, dif_pos (size.trans (by decide))]
    exact ⟨_, rfl⟩
  have splits := obtained_splits (.rewrapped (.packed packed) wrapped)
  obtain ⟨canvas, bytes⟩ := ofBytes_inv wrapped
  refine ⟨n, m, packed, wrapped, ?_, splits.1.2.2, splits.2.2.1 12 0 ?_, ?_⟩
  · rw [splits.1.1, canvas]
    decide
  · rw [canvas]
    decide
  · intro b byte
    obtain ⟨_, drawn⟩ := splits.2.2.2.2.2.2.2 3 b 0 byte (by rw [canvas]; decide)
    rw [canvas] at drawn ⊢
    exact drawn Level id .transparent

end PackedMap

end TwoBitAlpha
