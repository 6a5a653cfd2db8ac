import TwoBitAlpha.Palette
import TwoBitAlpha.Proofs.PackedMap.Access
import TwoBitAlpha.Proofs.PackedMap.Packing

/-!
A picture above another.

No byte holds pixels of two rows, so pictures that stand above each other pack to the bytes of the one and then those of
the other, and bytes that are joined are shown above each other. The smallest case is a single row.
-/

namespace TwoBitAlpha

namespace Canvas

theorem rowBytes_congr {c d : Canvas} (width : d.width = c.width) : d.rowBytes = c.rowBytes := by
  rw [rowBytes, rowBytes, width]

def oneRow (c : Canvas) : Canvas := ⟨c.width, 1, c.width_pos, by decide⟩

theorem rowBytes_oneRow (c : Canvas) : c.oneRow.rowBytes = c.rowBytes := rfl

section
variable (c d : Canvas) (fits : c.height.toNat + d.height.toNat < 2 ^ 32)

/-- A canvas with the rows of another, of the same width, added below. -/
def above : Canvas where
  width := c.width
  height := c.height + d.height
  width_pos := c.width_pos
  height_pos := by
    have rows := c.height_toNat_pos
    rw [UInt32.lt_iff_toNat_lt, UInt32.toNat_add, Nat.mod_eq_of_lt fits]
    exact Nat.add_pos_left rows _

theorem width_above : (c.above d fits).width = c.width := rfl

theorem rowBytes_above : (c.above d fits).rowBytes = c.rowBytes := rfl

theorem height_above : (c.above d fits).height.toNat = c.height.toNat + d.height.toNat := by
  change (c.height + d.height).toNat = _
  rw [UInt32.toNat_add, Nat.mod_eq_of_lt fits]

theorem packedLength_above (width : d.width = c.width) :
    (c.above d fits).packedLength.toNat = c.packedLength.toNat + d.packedLength.toNat := by
  rw [packedLength_toNat, packedLength_toNat, packedLength_toNat, height_above, rowBytes_congr width, rowBytes_above,
    Nat.add_mul]

end

end Canvas

namespace Raster

variable {r s : Raster}

/-- A raster above another of the same width. -/
def above (r s : Raster) (width : s.width = r.width) (fits : r.height.toNat + s.height.toNat < 2 ^ 32) : Raster where
  width := r.width
  height := r.height + s.height
  pixels := r.pixels ++ s.pixels
  size_eq := by
    rw [Array.size_append, r.size_eq, s.size_eq, width, UInt32.toNat_add, Nat.mod_eq_of_lt fits, Nat.mul_add]

def onlyRow (r : Raster) (y : UInt32) (inside : y < r.height) : Raster where
  width := r.width
  height := 1
  pixels := r.pixels.extract (y.toNat * r.width.toNat) (y.toNat * r.width.toNat + r.width.toNat)
  size_eq := by
    have row_end : y.toNat * r.width.toNat + r.width.toNat ≤ r.height.toNat * r.width.toNat :=
      row_end_le (UInt32.lt_iff_toNat_lt.mp inside)
    rw [Array.size_extract, r.size_eq, Nat.mul_comm r.width.toNat r.height.toNat]
    change _ = r.width.toNat * 1
    omega

section
variable (width : s.width = r.width) (fits : r.height.toNat + s.height.toNat < 2 ^ 32)

theorem contains_above (x z : UInt32) :
    (r.above s width fits).contains x z = true ↔
      x.toNat < r.width.toNat ∧ z.toNat < r.height.toNat + s.height.toNat := by
  have height : (r.above s width fits).height.toNat = r.height.toNat + s.height.toNat := by
    change (r.height + s.height).toNat = _
    rw [UInt32.toNat_add, Nat.mod_eq_of_lt fits]
  rw [contains_iff, height]
  rfl

theorem pixel?_above_upper {x y : UInt32} (upper : y < r.height) :
    (r.above s width fits).pixel? x y = r.pixel? x y := by
  have row := UInt32.lt_iff_toNat_lt.mp upper
  refine (pixel?_congr ?_ ?_).symm
  · rw [contains_iff, contains_above]
    omega
  · intro inside
    exact (Array.getElem?_append_left (index_lt inside)).symm

theorem pixel?_above_lower {x y z : UInt32} (lower : z.toNat = r.height.toNat + y.toNat) :
    (r.above s width fits).pixel? x z = s.pixel? x y := by
  have place : (r.above s width fits).index x z = r.pixels.size + s.index x y := by
    change z.toNat * r.width.toNat + x.toNat = _
    rw [index, r.size_eq, width, lower, Nat.add_mul, Nat.mul_comm r.width.toNat, Nat.add_assoc]
  apply pixel?_congr
  · rw [contains_above, contains_iff, width, lower]
    omega
  · intro _
    rw [place]
    change (r.pixels ++ s.pixels)[r.pixels.size + s.index x y]? = _
    rw [Array.getElem?_append_right (Nat.le_add_right _ _), Nat.add_sub_cancel_left]

end

theorem pixel?_onlyRow {y : UInt32} (inside : y < r.height) (x : UInt32) :
    (r.onlyRow y inside).pixel? x 0 = r.pixel? x y := by
  have row := UInt32.lt_iff_toNat_lt.mp inside
  have row_end : y.toNat * r.width.toNat + r.width.toNat ≤ r.height.toNat * r.width.toNat := row_end_le row
  have place : (r.onlyRow y inside).index x 0 = x.toNat := by
    change 0 * r.width.toNat + x.toNat = _
    rw [Nat.zero_mul, Nat.zero_add]
  refine (pixel?_congr ?_ ?_).symm
  · rw [contains_iff, contains_iff]
    change _ ↔ x.toNat < r.width.toNat ∧ 0 < 1
    omega
  · intro here
    have column := ((contains_iff r x y).mp here).1
    rw [place]
    change _ = (r.pixels.extract _ _)[x.toNat]?
    rw [Array.getElem?_extract, r.size_eq, Nat.mul_comm r.width.toNat r.height.toNat, if_pos (by omega), index]

end Raster

namespace PackedMap

theorem bytes_above {c d : Canvas} {r s : Raster} {m n both : PackedMap} (width : d.width = c.width)
    (fits : c.height.toNat + d.height.toNat < 2 ^ 32) {width' : s.width = r.width}
    {fits' : r.height.toNat + s.height.toNat < 2 ^ 32} (first : ofRaster r c = .ok m) (second : ofRaster s d = .ok n)
    (packed : ofRaster (r.above s width' fits') (c.above d fits) = .ok both) :
    both.bytes = m.bytes ++ n.bytes := by
  obtain ⟨⟨_, height⟩, _⟩ := ofRaster_inv first
  rw [bytes_ofRaster first, bytes_ofRaster second, bytes_ofRaster packed, c.height_above,
    Canvas.rowBytes_congr width, c.rowBytes_above]
  -- Each row of the whole is a row of the one part or of the other, and rows are packed one by one.
  apply ofRows_split
  · intro y hy
    have row : (UInt32.ofNat y).toNat = y := toNat_ofNat_of_lt_toNat hy
    have upper : UInt32.ofNat y < r.height := by rwa [UInt32.lt_iff_toNat_lt, row, height]
    exact Raster.packRow_congr (fun x => Raster.levelAt_congr (Raster.pixel?_above_upper width' fits' upper)) _
  · intro y hy
    have row : (UInt32.ofNat y).toNat = y := toNat_ofNat_of_lt_toNat hy
    have lower : (UInt32.ofNat (c.height.toNat + y)).toNat = r.height.toNat + (UInt32.ofNat y).toNat := by
      rw [row, height]
      apply toNat_ofNat_of_lt_toNat (w := (c.above d fits).height)
      rw [c.height_above]
      exact Nat.add_lt_add_left hy _
    exact Raster.packRow_congr (fun x => Raster.levelAt_congr (Raster.pixel?_above_lower width' fits' lower)) _

section
variable (m n : PackedMap) (width : n.canvas.width = m.canvas.width)
  (fits : m.canvas.height.toNat + n.canvas.height.toNat < 2 ^ 32)

/-- The bytes of a map and then those of another of the same width. -/
def above : PackedMap where
  canvas := m.canvas.above n.canvas fits
  bytes := m.bytes ++ n.bytes
  size_eq := by
    rw [Array.size_append, m.size_eq, n.size_eq, m.canvas.packedLength_above n.canvas fits width]

theorem draw_above {α : Type} (entry : Level → α) (blank : α) :
    draw entry blank (m.above n width fits).bytes (m.above n width fits).canvas =
      draw entry blank m.bytes m.canvas ++ draw entry blank n.bytes n.canvas := by
  rw [draw_eq_ofRows entry blank (m.above n width fits).size_eq, draw_eq_ofRows entry blank m.size_eq,
    draw_eq_ofRows entry blank n.size_eq, Canvas.rowBytes_congr width, width]
  simp only [above, Canvas.height_above, Canvas.rowBytes_above]
  rw [Canvas.width_above]
  apply ofRows_split
  · intro y hy
    rw [Span.read_append_left (row_end_le_size m.size_eq hy)]
  · intro y _
    have start : (m.canvas.height.toNat + y) * m.canvas.rowBytes.toNat =
        m.bytes.size + y * m.canvas.rowBytes.toNat := by
      rw [m.size_eq, Canvas.packedLength_toNat, Nat.add_mul]
    have read := Span.read_append_right m.bytes n.bytes ⟨y * m.canvas.rowBytes.toNat, m.canvas.rowBytes.toNat⟩
    rw [start, read]

theorem toRaster_above : (m.above n width fits).toRaster = m.toRaster.above n.toRaster width fits := by
  apply Raster.eq_of_pixels_eq
  · rfl
  · rfl
  · exact m.draw_above n width fits Level.whitePixel Pixel.clear

end

theorem row?_ofRaster {r : Raster} {c : Canvas} {m : PackedMap} (packed : ofRaster r c = .ok m) {y : UInt32}
    (inside : y < r.height) :
    ∃ line, ofRaster (r.onlyRow y inside) c.oneRow = .ok line ∧ m.row? y = some line.bytes := by
  obtain ⟨⟨width, height⟩, rfl, _⟩ := ofRaster_inv packed
  obtain ⟨line, alone⟩ := ofRaster_eq_ok (r := r.onlyRow y inside) (c := m.canvas.oneRow) ⟨width, rfl⟩
  have row : y < m.canvas.height := height ▸ inside
  have hy := UInt32.lt_iff_toNat_lt.mp row
  have len := length_packRow r m.canvas
  have levels : ∀ x, (r.onlyRow y inside).levelAt x 0 = r.levelAt x y :=
    fun x => Raster.levelAt_congr (Raster.pixel?_onlyRow inside x)
  have packs : line.bytes = ((r.onlyRow y inside).packRow 0 m.canvas.rowBytes.toNat).toArray := by
    rw [bytes_ofRaster alone, Canvas.rowBytes_oneRow]
    exact ofRows_one _
  refine ⟨line, alone, ?_⟩
  rw [m.row?_inside row, packs, Raster.packRow_congr levels, Option.some.injEq]
  apply Array.toList_inj.mp
  rw [bytes_ofRaster packed, toList_extract_ofRows len hy (Nat.le_refl _),
    List.take_of_length_le (Nat.le_of_eq (len y.toNat hy)), UInt32.ofNat_toNat]

/-- No byte is shared by two rows. Pictures above each other pack to the bytes of the upper one and then those of the
lower one; bytes that are joined decode to the pictures above each other, and in every palette their framebuffer is
the two framebuffers, joined. On every canvas a row of a packed map is what that row alone packs to. -/
theorem stacking_concatenates :
    (∀ (c d : Canvas) (fits : c.height.toNat + d.height.toNat < 2 ^ 32), d.width = c.width →
      (∀ r s : Raster, r.width = c.width ∧ r.height = c.height → s.width = d.width ∧ s.height = d.height →
        ∃ width' fits' m n both, ofRaster r c = .ok m ∧ ofRaster s d = .ok n ∧
          ofRaster (r.above s width' fits') (c.above d fits) = .ok both ∧ both.bytes = m.bytes ++ n.bytes) ∧
      ∀ a b : Array UInt8, a.size = c.packedLength.toNat → b.size = d.packedLength.toNat →
        (∃ r s width' fits', Raster.ofPackedBytes a c = .ok r ∧ Raster.ofPackedBytes b d = .ok s ∧
          Raster.ofPackedBytes (a ++ b) (c.above d fits) = .ok (r.above s width' fits')) ∧
        ∃ m n both, ofBytes a c = .ok m ∧ ofBytes b d = .ok n ∧ ofBytes (a ++ b) (c.above d fits) = .ok both ∧
          ∀ p : Palette, p.framebuffer both = p.framebuffer m ++ p.framebuffer n) ∧
    ∀ (r : Raster) (c : Canvas) (m : PackedMap), ofRaster r c = .ok m → ∀ (y : UInt32) (inside : y < r.height),
      ∃ line, ofRaster (r.onlyRow y inside) c.oneRow = .ok line ∧ m.row? y = some line.bytes := by
  refine ⟨?_, fun r c m packed y inside => row?_ofRaster packed inside⟩
  intro c d fits width
  refine ⟨?_, ?_⟩
  · intro r s size size'
    obtain ⟨m, first⟩ := ofRaster_eq_ok size
    obtain ⟨n, second⟩ := ofRaster_eq_ok size'
    have width' : s.width = r.width := by rw [size.1, size'.1, width]
    have fits' : r.height.toNat + s.height.toNat < 2 ^ 32 := by rwa [size.2, size'.2]
    have joined : (r.above s width' fits').width = c.width ∧
        (r.above s width' fits').height = (c.above d fits).height := by
      refine ⟨size.1, ?_⟩
      change r.height + s.height = c.height + d.height
      rw [size.2, size'.2]
    obtain ⟨both, packed⟩ := ofRaster_eq_ok (c := c.above d fits) joined
    exact ⟨width', fits', m, n, both, first, second, packed, bytes_above width fits first second packed⟩
  · intro a b first second
    let m : PackedMap := ⟨c, a, first⟩
    let n : PackedMap := ⟨d, b, second⟩
    let both := m.above n width fits
    have decoded := both.ofPackedBytes_bytes
    rw [m.toRaster_above n width fits] at decoded
    refine ⟨⟨m.toRaster, n.toRaster, width, fits, m.ofPackedBytes_bytes, n.ofPackedBytes_bytes, decoded⟩, ?_⟩
    exact ⟨m, n, both, m.ofBytes_bytes, n.ofBytes_bytes, both.ofBytes_bytes, fun p =>
      m.draw_above n width fits p.color 0⟩

/-- Five columns, two rows above one: the last byte of each row holds one pixel. -/
theorem stacking_concatenates_five_columns :
    let c : Canvas := ⟨5, 2, by decide, by decide⟩
    let d : Canvas := ⟨5, 1, by decide, by decide⟩
    let r : Raster := .ofFn 5 2 fun x y => ⟨7, 7, 7, .ofNat (50 * x + y)⟩
    let s : Raster := .ofFn 5 1 fun x _ => ⟨7, 7, 7, .ofNat (255 - 50 * x)⟩
    let a : Array UInt8 := #[0, 64, 128, 192]
    let b : Array UInt8 := #[255, 255]
    ∃ fits, (∃ width' fits' m n both, ofRaster r c = .ok m ∧ ofRaster s d = .ok n ∧
        ofRaster (r.above s width' fits') (c.above d fits) = .ok both ∧ both.bytes = m.bytes ++ n.bytes) ∧
      (∃ m n both, ofBytes a c = .ok m ∧ ofBytes b d = .ok n ∧ ofBytes (a ++ b) (c.above d fits) = .ok both ∧
        ∀ p : Palette, p.framebuffer both = p.framebuffer m ++ p.framebuffer n) ∧
      ∃ m line, ofRaster r c = .ok m ∧ ofRaster (r.onlyRow 1 (by decide)) c.oneRow = .ok line ∧
        m.row? 1 = some line.bytes := by
  intro c d r s a b
  obtain ⟨stacking, rows⟩ := stacking_concatenates
  have fits : c.height.toNat + d.height.toNat < 2 ^ 32 := by decide
  obtain ⟨packing, joining⟩ := stacking c d fits rfl
  obtain ⟨_, shown⟩ := joining a b (by decide) (by decide)
  obtain ⟨m, packed⟩ := ofRaster_eq_ok (r := r) (c := c) ⟨rfl, rfl⟩
  obtain ⟨line, alone, row⟩ := rows r c m packed 1 (by decide)
  exact ⟨fits, packing r s ⟨rfl, rfl⟩ ⟨rfl, rfl⟩, shown, m, line, packed, alone, row⟩

end PackedMap

end TwoBitAlpha
