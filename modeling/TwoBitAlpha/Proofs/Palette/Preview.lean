import TwoBitAlpha.Palette
import TwoBitAlpha.Proofs.PackedMap.Drawing

/-!
The preview beside the framebuffer.

The place of a pixel in the framebuffer is a word of 32 bits. On a canvas of at most `2 ^ 32` pixels every
place fits, and the preview shows each pixel in the color of its entry. On a larger canvas the places
start again from zero, and what the preview shows from there on is the top of the picture.
-/

namespace TwoBitAlpha

namespace PackedMap

/-- The map whose only byte other than zero is the one of a pixel, with all fields solid. -/
def dot (c : Canvas) (x y : UInt32) : PackedMap where
  canvas := c
  bytes := (Array.replicate c.packedLength.toNat 0).setIfInBounds (c.offset x y).toNat 0xff
  size_eq := by simp

theorem levelAt?_dot {c : Canvas} {x y u v : UInt32} (inside : c.contains u v = true) :
    (dot c x y).levelAt? u v =
      some (if (c.offset x y).toNat = (c.offset u v).toNat then .solid else .transparent) := by
  have solid : ∀ k, Group.field 0xff k = .solid := by decide
  have transparent : ∀ k, Group.field 0 k = .transparent := by decide
  have offset_lt := Canvas.offset_lt_packedLength inside
  obtain ⟨b, byte, level⟩ := (dot c x y).levelAt?_inside inside
  simp only [dot, Array.getElem?_setIfInBounds] at byte
  rw [level]
  split at byte
  · rename_i here
    rw [Array.size_replicate, here, if_pos offset_lt] at byte
    cases byte
    rw [if_pos here, solid]
  · rename_i elsewhere
    rw [Array.getElem?_replicate, if_pos offset_lt] at byte
    cases byte
    rw [if_neg elsewhere, transparent]

end PackedMap

namespace Palette

variable {c : Canvas} {m : PackedMap} {x y : UInt32}

theorem framebufferIndex_toNat (c : Canvas) (x y : UInt32) :
    (framebufferIndex c x y).toNat = (y.toNat * c.width.toNat + x.toNat) % 2 ^ 32 := by
  rw [framebufferIndex, UInt32.toNat_add, UInt32.toNat_mul, Nat.mod_add_mod]

theorem size_framebuffer (p : Palette) (m : PackedMap) :
    (p.framebuffer m).size = m.canvas.height.toNat * m.canvas.width.toNat := by
  rw [framebuffer, PackedMap.size_draw, Canvas.pixelCount_toNat, Nat.mul_comm]

theorem getElem?_framebuffer (p : Palette) (m : PackedMap) (inside : m.canvas.contains x y = true) :
    (p.framebuffer m)[y.toNat * m.canvas.width.toNat + x.toNat]? = (m.levelAt? x y).map p.color :=
  PackedMap.getElem?_draw_level p.color 0 m inside

theorem pixel?_preview (p : Palette) (m : PackedMap) (inside : m.canvas.contains x y = true) :
    ∃ e, (p.framebuffer m)[(y.toNat * m.canvas.width.toNat + x.toNat) % 2 ^ 32]? = some e ∧
      (p.preview m).pixel? x y = some (Rgb332.toPixel e) := by
  obtain ⟨hx, hy⟩ := (Canvas.contains_iff _ _ _).mp inside
  have place_lt : (y.toNat * m.canvas.width.toNat + x.toNat) % 2 ^ 32 < (p.framebuffer m).size := by
    rw [size_framebuffer]
    exact Nat.lt_of_le_of_lt (Nat.mod_le _ _) (row_position_lt hy hx)
  refine ⟨_, Array.getElem?_eq_getElem place_lt, ?_⟩
  rw [preview, Raster.pixel?_ofFn _ inside]
  simp only [UInt32.ofNat_toNat, framebufferIndex_toNat, Array.getD_eq_getD_getElem?]
  rw [Array.getElem?_eq_getElem place_lt, Option.getD_some]

theorem place_lt_of_pixelCount_le (small : c.width.toNat * c.height.toNat ≤ 2 ^ 32)
    (inside : c.contains x y = true) : y.toNat * c.width.toNat + x.toNat < 2 ^ 32 := by
  obtain ⟨hx, hy⟩ := (Canvas.contains_iff _ _ _).mp inside
  have place_lt := row_position_lt hy hx
  rw [Nat.mul_comm] at small
  exact Nat.lt_of_lt_of_le place_lt small

theorem exists_place_eq (large : 2 ^ 32 < c.width.toNat * c.height.toNat) :
    ∃ x y, c.contains x y = true ∧ y.toNat * c.width.toNat + x.toNat = 2 ^ 32 := by
  obtain ⟨x, y, within, place⟩ := Raster.exists_position_eq large
  exact ⟨x, y, (Canvas.contains_iff _ _ _).mpr within, place⟩

/-- The dot at that place is in the framebuffer, but the preview shows the color of the first pixel. -/
theorem preview_dot (inside : c.contains x y = true) (place : y.toNat * c.width.toNat + x.toNat = 2 ^ 32) :
    (device.framebuffer (.dot c x y))[2 ^ 32]? = some 0x49 ∧
      (device.preview (.dot c x y)).pixel? x y = some (Rgb332.toPixel 0x00) := by
  have origin : c.contains 0 0 = true :=
    (Canvas.contains_iff _ _ _).mpr ⟨c.width_toNat_pos, c.height_toNat_pos⟩
  have apart : (c.offset x y).toNat ≠ (c.offset 0 0).toNat := by
    have column_lt := x.toNat_lt
    have row_pos : 0 < y.toNat := by
      rcases Nat.eq_zero_or_pos y.toNat with top | below
      · rw [top, Nat.zero_mul] at place
        omega
      · exact below
    have start_pos := Nat.mul_pos row_pos c.rowBytes_toNat_pos
    rw [Canvas.offset_toNat, Canvas.offset_toNat]
    change _ ≠ 0 * c.rowBytes.toNat + 0
    omega
  have last := getElem?_framebuffer device (.dot c x y) inside
  have first := getElem?_framebuffer device (.dot c x y) origin
  obtain ⟨e, shown, pixel⟩ := pixel?_preview device (.dot c x y) inside
  change (device.framebuffer (.dot c x y))[y.toNat * c.width.toNat + x.toNat]? = _ at last
  change (device.framebuffer (.dot c x y))[0 * c.width.toNat + 0]? = _ at first
  change (device.framebuffer (.dot c x y))[(y.toNat * c.width.toNat + x.toNat) % 2 ^ 32]? = _ at shown
  rw [place, PackedMap.levelAt?_dot inside, if_pos rfl] at last
  rw [Nat.zero_mul, PackedMap.levelAt?_dot origin, if_neg apart] at first
  rw [place, Nat.mod_self, first] at shown
  cases shown
  exact ⟨last, pixel⟩

/-- The preview is that of the framebuffer exactly on the canvases of at most `2 ^ 32` pixels. There neither
the product nor the sum in the place of a pixel overflows, and each pixel has the color of its own entry. -/
theorem preview_exact_iff (c : Canvas) :
    ((∀ x y, c.contains x y = true →
        (y * c.width).toNat = y.toNat * c.width.toNat ∧
        (framebufferIndex c x y).toNat = y.toNat * c.width.toNat + x.toNat) ↔
      c.width.toNat * c.height.toNat ≤ 2 ^ 32) ∧
    ((∀ (p : Palette) (m : PackedMap), m.canvas = c → ∀ x y, c.contains x y = true →
        ∃ e, (p.framebuffer m)[y.toNat * c.width.toNat + x.toNat]? = some e ∧
          (p.preview m).pixel? x y = some (Rgb332.toPixel e)) ↔
      c.width.toNat * c.height.toNat ≤ 2 ^ 32) := by
  refine ⟨⟨?_, ?_⟩, ⟨?_, ?_⟩⟩
  · intro exact_index
    apply Nat.le_of_not_lt
    intro large
    obtain ⟨x, y, inside, place⟩ := exists_place_eq large
    have index_lt := (framebufferIndex c x y).toNat_lt
    rw [(exact_index x y inside).2, place] at index_lt
    exact Nat.lt_irrefl _ index_lt
  · intro small x y inside
    have place_lt := place_lt_of_pixelCount_le small inside
    refine ⟨?_, ?_⟩
    · rw [UInt32.toNat_mul]
      exact Nat.mod_eq_of_lt (by omega)
    · rw [framebufferIndex_toNat]
      exact Nat.mod_eq_of_lt place_lt
  · intro exact_preview
    apply Nat.le_of_not_lt
    intro large
    obtain ⟨x, y, inside, place⟩ := exists_place_eq large
    obtain ⟨last, pixel⟩ := preview_dot inside place
    obtain ⟨e, entry, shown⟩ := exact_preview device (.dot c x y) rfl x y inside
    rw [place, last] at entry
    cases entry
    rw [pixel] at shown
    exact absurd shown (by decide)
  · rintro small p m rfl x y inside
    obtain ⟨e, entry, pixel⟩ := pixel?_preview p m inside
    rw [Nat.mod_eq_of_lt (place_lt_of_pixelCount_le small inside)] at entry
    exact ⟨e, entry, pixel⟩

/-- On 65536 columns and 65537 rows, the last row of the preview repeats the first. -/
theorem preview_repeats_first_row :
    let c : Canvas := ⟨65536, 65537, by decide, by decide⟩
    (c.contains 0 65536 = true ∧ framebufferIndex c 0 65536 = 0) ∧
    (device.framebuffer (.dot c 0 65536))[65536 * 65536 + 0]? = some 0x49 ∧
    (device.preview (.dot c 0 65536)).pixel? 0 65536 = some (Rgb332.toPixel 0x00) ∧
    Rgb332.toPixel 0x00 ≠ Rgb332.toPixel 0x49 := by
  intro c
  obtain ⟨last, pixel⟩ := preview_dot (c := c) (x := 0) (y := 65536) (by decide) (by decide)
  exact ⟨by decide, last, pixel, by decide⟩

end Palette

end TwoBitAlpha
