import TwoBitAlpha.Proofs.PackedMap.Padding
import TwoBitAlpha.Proofs.Palette.Preview

/-!
What a device shows of a map.

Each entry of the framebuffer is the color of the level that a look-up of its pixel finds, so two maps that agree
outside the padding are shown alike. The preview has no transparent pixel and packs to the map that is solid
everywhere.
-/

namespace TwoBitAlpha

namespace PackedMap

variable {c : Canvas} {m n : PackedMap}

theorem draw_congr {α : Type} (entry : Level → α) (blank : α) (canvas : n.canvas = m.canvas)
    (levels : ∀ x y, n.levelAt? x y = m.levelAt? x y) :
    draw entry blank n.bytes n.canvas = draw entry blank m.bytes m.canvas := by
  have size := (size_draw entry blank n.bytes n.canvas).trans n.canvas.pixelCount_toNat
  apply Raster.ext_position size
  · rw [size_draw, canvas, m.canvas.pixelCount_toNat]
  · intro x y hx hy
    have inside := (Canvas.contains_iff _ _ _).mpr ⟨hx, hy⟩
    have also : m.canvas.contains x y = true := canvas ▸ inside
    rw [getElem?_draw_level entry blank n inside, levels, canvas, getElem?_draw_level entry blank m also]

/-- The bytes that are solid wherever there is a pixel. -/
def solidBytes (c : Canvas) : Array UInt8 := clearPadding c (Array.replicate c.packedLength.toNat 0xff)

/-- A raster with full coverage packs to the solid bytes. -/
theorem bytes_of_solid {r : Raster} (packed : ofRaster r c = .ok m)
    (solid : ∀ x y, c.contains x y = true → r.levelAt x y = .solid) : m.bytes = solidBytes c := by
  have full : ∀ k, Group.field 0xff k = .solid := by decide
  obtain ⟨⟨width, height⟩, canvas, _⟩ := ofRaster_inv packed
  apply eq_of_fields_eq
  · rw [m.size_eq, canvas, solidBytes, clearPadding, Array.size_mapIdx, Array.size_replicate]
  · intro i k a b byte other
    obtain ⟨i_lt, _⟩ := Array.getElem?_eq_some_iff.mp byte
    rw [m.size_eq, canvas] at i_lt
    obtain ⟨d, before, field⟩ := field_clearPadding other k
    rw [Array.getElem?_replicate, if_pos i_lt] at before
    cases before
    rw [field, full, field_ofRaster packed byte]
    split
    · rename_i padding
      apply Raster.levelAt_eq_transparent
      rw [Raster.contains, width, height]
      exact fun inside => (Canvas.contains_slot_iff i_lt k).mp inside padding
    · rename_i shown
      exact solid _ _ ((Canvas.contains_slot_iff i_lt k).mpr shown)

end PackedMap

namespace Palette

variable {m : PackedMap}

theorem exists_entry (p : Palette) (m : PackedMap) {x y : UInt32} (inside : m.canvas.contains x y = true) :
    ∃ l, m.levelAt? x y = some l ∧
      (p.framebuffer m)[y.toNat * m.canvas.width.toNat + x.toNat]? = some (p.color l) := by
  obtain ⟨b, _, level⟩ := m.levelAt?_inside inside
  refine ⟨_, level, ?_⟩
  rw [getElem?_framebuffer p m inside, level, Option.map_some]

theorem levelAt_preview (p : Palette) (m : PackedMap) {x y : UInt32} (inside : m.canvas.contains x y = true) :
    (p.preview m).levelAt x y = .solid := by
  obtain ⟨e, _, pixel⟩ := pixel?_preview p m inside
  rw [Raster.levelAt, pixel]
  rfl

/-- The framebuffer has one entry for each pixel, which is the color of the level at that pixel, whatever the padding
holds. On a canvas of at most `2 ^ 32` pixels the preview shows each entry at its pixel, in full coverage, and so
packs to level three at each pixel and clear padding. -/
theorem rendering_agrees (p : Palette) (m : PackedMap) :
    (p.framebuffer m).size = m.canvas.width.toNat * m.canvas.height.toNat ∧
    (∀ x y, m.canvas.contains x y = true → ∃ l, m.levelAt? x y = some l ∧
      (p.framebuffer m)[y.toNat * m.canvas.width.toNat + x.toNat]? = some (p.color l)) ∧
    (∀ n : PackedMap, n.canvas = m.canvas →
      (∀ i k a b, n.bytes[i]? = some a → m.bytes[i]? = some b → ¬ m.canvas.IsPadding i k →
        Group.field a k = Group.field b k) →
      p.framebuffer n = p.framebuffer m) ∧
    (m.canvas.width.toNat * m.canvas.height.toNat ≤ 2 ^ 32 →
      ((p.preview m).width = m.canvas.width ∧ (p.preview m).height = m.canvas.height) ∧
      (∀ x y, m.canvas.contains x y = true → ∃ e,
        (p.framebuffer m)[y.toNat * m.canvas.width.toNat + x.toNat]? = some e ∧
        (p.preview m).pixel? x y = some (Rgb332.toPixel e) ∧ (Rgb332.toPixel e).alpha = 255) ∧
      ∃ n, PackedMap.ofRaster (p.preview m) m.canvas = .ok n ∧
        (∀ x y, m.canvas.contains x y = true → n.levelAt? x y = some .solid) ∧
        PackedMap.PaddingClear m.canvas n.bytes ∧ n.bytes = PackedMap.solidBytes m.canvas) := by
  refine ⟨?_, fun x y => exists_entry p m, ?_, ?_⟩
  · rw [size_framebuffer, Nat.mul_comm]
  · intro n canvas fields
    have levels := (PackedMap.levelAt?_eq_iff canvas).mpr (canvas ▸ fields)
    exact PackedMap.draw_congr p.color 0 canvas levels
  · intro small
    obtain ⟨n, packed⟩ := PackedMap.ofRaster_eq_ok (r := p.preview m) (c := m.canvas) ⟨rfl, rfl⟩
    refine ⟨⟨rfl, rfl⟩, ?_, n, packed, ?_, PackedMap.paddingClear_ofRaster packed,
      PackedMap.bytes_of_solid packed fun x y => levelAt_preview p m⟩
    · intro x y inside
      obtain ⟨e, entry, pixel⟩ := pixel?_preview p m inside
      rw [Nat.mod_eq_of_lt (place_lt_of_pixelCount_le small inside)] at entry
      exact ⟨e, entry, pixel, rfl⟩
    · intro x y inside
      obtain ⟨e, _, pixel⟩ := pixel?_preview p m inside
      rw [PackedMap.levelAt?_ofRaster packed, pixel]
      rfl

/-- Six columns and two rows with padding that is not clear. -/
theorem rendering_agrees_six_columns :
    let c : Canvas := ⟨6, 2, by decide, by decide⟩
    let m : PackedMap := ⟨c, #[0x1b, 0x4f, 0xe4, 0xbf], by decide⟩
    (device.framebuffer m)[1 * 6 + 5]? = some 0x49 ∧
      device.framebuffer ⟨c, #[0x1b, 0x40, 0xe4, 0xb0], by decide⟩ = device.framebuffer m ∧
      ∃ n, PackedMap.ofRaster (device.preview m) c = .ok n ∧ n.bytes = #[0xff, 0xf0, 0xff, 0xf0] := by
  intro c m
  obtain ⟨_, entries, padding, shown⟩ := rendering_agrees device m
  obtain ⟨l, level, entry⟩ := entries 5 1 (by decide)
  have solid : l = .solid := Option.some.inj (level.symm.trans (by decide))
  obtain ⟨_, _, n, packed, _, _, bytes⟩ := shown (by decide)
  refine ⟨?_, padding ⟨c, #[0x1b, 0x40, 0xe4, 0xb0], by decide⟩ rfl ?_, n, packed, bytes.trans (by decide)⟩
  · rw [solid] at entry
    exact entry
  · have fields : ∀ i k : Fin 4, ¬ c.IsPadding i.val k →
        Group.field #[0x1b, 0x40, 0xe4, 0xb0][i.val] k = Group.field #[0x1b, 0x4f, 0xe4, 0xbf][i.val] k := by decide
    intro i k a b new old visible
    obtain ⟨i_lt, rfl⟩ := Array.getElem?_eq_some_iff.mp new
    obtain ⟨_, rfl⟩ := Array.getElem?_eq_some_iff.mp old
    exact fields ⟨i, i_lt⟩ k visible

end Palette

end TwoBitAlpha
