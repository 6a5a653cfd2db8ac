import TwoBitAlpha.Proofs.PackedMap.PixelPass
import TwoBitAlpha.Proofs.Palette.Rendering

/-!
What can be told from a drawn map.

A drawing tells two maps apart where it shows them in different colors. With four distinct colors it determines the
level of every pixel, and so does the preview, since stretching a channel loses nothing. Padding is never drawn.
-/

namespace TwoBitAlpha

namespace Rgb332

/-- The color that the highest bits of each channel make. -/
def ofPixel (p : Pixel) : UInt8 := ((p.red >>> 5) <<< 5) ||| ((p.green >>> 5) <<< 2) ||| (p.blue >>> 6)

/-- Stretching rounds down, but never into the highest bits of a channel. -/
theorem ofPixel_toPixel (color : UInt8) : ofPixel (toPixel color) = color := by
  have h : ∀ v : BitVec 8, ofPixel (toPixel ⟨v⟩) = ⟨v⟩ := by decide +kernel
  exact h color.toBitVec

theorem toPixel_injective {a b : UInt8} (same : toPixel a = toPixel b) : a = b := by
  rw [← ofPixel_toPixel a, same, ofPixel_toPixel]

end Rgb332

namespace Palette

variable {p : Palette} {m n : PackedMap}

theorem getElem?_colors (p : Palette) (l : Level) : p.colors.toList[l.toBits.toNat]? = some (p.color l) := by
  have bits_lt : l.toBits.toNat < 4 := UInt8.lt_iff_toNat_lt.mp l.toBits_lt
  rw [List.getElem?_eq_getElem (by rwa [Vector.length_toList]), Vector.getElem_toList]
  rfl

theorem color_injective (distinct : p.colors.toList.Nodup) {k l : Level} (same : p.color k = p.color l) : k = l := by
  have bits_lt : k.toBits.toNat < p.colors.toList.length := by
    rw [Vector.length_toList]
    exact UInt8.lt_iff_toNat_lt.mp k.toBits_lt
  apply Level.toBits_injective
  apply UInt8.toNat_inj.mp
  apply (List.getElem?_inj bits_lt distinct).mp
  rw [getElem?_colors, getElem?_colors, same]

theorem framebuffer_ext {p : Palette} (canvas : m.canvas = n.canvas)
    (entries : ∀ x y, m.canvas.contains x y = true →
      (p.framebuffer m)[y.toNat * m.canvas.width.toNat + x.toNat]? =
        (p.framebuffer n)[y.toNat * m.canvas.width.toNat + x.toNat]?) :
    p.framebuffer m = p.framebuffer n := by
  apply Raster.ext_position ((size_framebuffer p m).trans (Nat.mul_comm _ _))
  · rw [size_framebuffer, canvas, Nat.mul_comm]
  · exact fun x y hx hy => entries x y ((Canvas.contains_iff m.canvas x y).mpr ⟨hx, hy⟩)

/-- A framebuffer shows of two levels whether they have the same color, and nothing else. -/
theorem framebuffer_eq_iff (p : Palette) (canvas : m.canvas = n.canvas) :
    p.framebuffer m = p.framebuffer n ↔ ∀ x y, m.canvas.contains x y = true →
      (m.levelAt? x y).map p.color = (n.levelAt? x y).map p.color := by
  have right : ∀ x y, m.canvas.contains x y = true →
      (p.framebuffer n)[y.toNat * m.canvas.width.toNat + x.toNat]? = (n.levelAt? x y).map p.color := by
    rw [canvas]
    exact fun x y => getElem?_framebuffer p n
  constructor
  · intro same x y inside
    rw [← getElem?_framebuffer p m inside, ← right x y inside, same]
  · intro colors
    apply framebuffer_ext canvas
    intro x y inside
    rw [getElem?_framebuffer p m inside, right x y inside, colors x y inside]

theorem pixel?_preview_small (p : Palette) (small : m.canvas.width.toNat * m.canvas.height.toNat ≤ 2 ^ 32)
    {x y : UInt32} (inside : m.canvas.contains x y = true) :
    (p.preview m).pixel? x y =
      (p.framebuffer m)[y.toNat * m.canvas.width.toNat + x.toNat]?.map Rgb332.toPixel := by
  obtain ⟨e, entry, pixel⟩ := pixel?_preview p m inside
  rw [Nat.mod_eq_of_lt (place_lt_of_pixelCount_le small inside)] at entry
  rw [pixel, entry, Option.map_some]

/-- Every entry of the framebuffer can be told from the preview, and the preview is made from the framebuffer alone. -/
theorem preview_eq_iff (p : Palette) (canvas : m.canvas = n.canvas)
    (small : m.canvas.width.toNat * m.canvas.height.toNat ≤ 2 ^ 32) :
    p.preview m = p.preview n ↔ p.framebuffer m = p.framebuffer n := by
  constructor
  · intro same
    apply framebuffer_ext canvas
    intro x y inside
    have pixel := pixel?_preview_small p small inside
    rw [same, canvas, pixel?_preview_small p (canvas ▸ small) (canvas ▸ inside)] at pixel
    rw [canvas]
    exact ((Option.map_inj_right fun _ _ => Rgb332.toPixel_injective).mp pixel).symm
  · intro same
    simp only [preview, same, canvas]

/-- At each pixel there are two levels to compare. -/
theorem same_colors_iff (p : Palette) (canvas : m.canvas = n.canvas) {x y : UInt32}
    (inside : m.canvas.contains x y = true) :
    (m.levelAt? x y).map p.color = (n.levelAt? x y).map p.color ↔
      ∃ k l, m.levelAt? x y = some k ∧ n.levelAt? x y = some l ∧ p.color k = p.color l := by
  obtain ⟨a, _, left⟩ := m.levelAt?_inside inside
  obtain ⟨b, _, right⟩ := n.levelAt?_inside (canvas ▸ inside)
  rw [left, right, Option.map_some, Option.map_some, Option.some_inj]
  constructor
  · exact fun same => ⟨_, _, rfl, rfl, same⟩
  · rintro ⟨_, _, ⟨⟩, ⟨⟩, same⟩
    exact same

/-- With distinct colors, two framebuffers are equal if and only if the previews are, the levels are at every pixel, the
decoded pictures are, and the bytes are outside the padding. With any colors, the framebuffers and the previews are
equal if and only if the two levels have the same color at every pixel. -/
theorem drawing_determines_levels (p : Palette) {m n : PackedMap} (canvas : m.canvas = n.canvas)
    (small : m.canvas.width.toNat * m.canvas.height.toNat ≤ 2 ^ 32) :
    (p.colors.toList.Nodup →
      (p.framebuffer m = p.framebuffer n ↔ p.preview m = p.preview n) ∧
      (p.preview m = p.preview n ↔ ∀ x y, m.canvas.contains x y = true → m.levelAt? x y = n.levelAt? x y) ∧
      ((∀ x y, m.canvas.contains x y = true → m.levelAt? x y = n.levelAt? x y) ↔ m.toRaster = n.toRaster) ∧
      (m.toRaster = n.toRaster ↔ ∀ i k a b, m.bytes[i]? = some a → n.bytes[i]? = some b → ¬ m.canvas.IsPadding i k →
        Group.field a k = Group.field b k)) ∧
    (p.framebuffer m = p.framebuffer n ↔ ∀ x y, m.canvas.contains x y = true →
      ∃ k l, m.levelAt? x y = some k ∧ n.levelAt? x y = some l ∧ p.color k = p.color l) ∧
    (p.preview m = p.preview n ↔ p.framebuffer m = p.framebuffer n) := by
  have shown := preview_eq_iff p canvas small
  refine ⟨fun distinct => ⟨shown.symm, ?_, ?_, ?_⟩, ?_, shown⟩
  · rw [shown, framebuffer_eq_iff p canvas]
    simp only [Option.map_inj_right fun _ _ => color_injective distinct]
  · rw [PackedMap.toRaster_eq_iff canvas]
    constructor
    · intro levels x y
      by_cases inside : m.canvas.contains x y = true
      · exact levels x y inside
      · rw [m.levelAt?_outside inside, n.levelAt?_outside (canvas ▸ inside)]
    · exact fun levels x y _ => levels x y
  · rw [PackedMap.toRaster_eq_iff canvas, PackedMap.levelAt?_eq_iff canvas]
  · rw [framebuffer_eq_iff p canvas]
    exact forall₃_congr fun x y inside => same_colors_iff p canvas inside

/-- Six columns, with other padding and then with another level, in four shades; the device draws that level alike. -/
theorem drawing_determines_levels_six_columns :
    let c : Canvas := ⟨6, 1, by decide, by decide⟩
    let shades : Palette := ⟨"shades", #v[0x00, 0x49, 0xb6, 0xff]⟩
    let m : PackedMap := ⟨c, #[0x1b, 0x4f], by decide⟩
    let padded : PackedMap := ⟨c, #[0x1b, 0x40], by decide⟩
    let other : PackedMap := ⟨c, #[0x1f, 0x4f], by decide⟩
    (shades.preview m = shades.preview padded ∧ m.toRaster = padded.toRaster) ∧
      (shades.preview m ≠ shades.preview other ∧ m.toRaster ≠ other.toRaster) ∧
      device.preview m = device.preview other := by
  intro c shades m padded other
  obtain ⟨buffers, levels, pictures, _⟩ :=
    (drawing_determines_levels shades (n := padded) (m := m) rfl (by decide)).1 (by decide)
  obtain ⟨buffers', levels', pictures', _⟩ :=
    (drawing_determines_levels shades (n := other) (m := m) rfl (by decide)).1 (by decide)
  have same := buffers.mp (by decide)
  have apart := mt buffers'.mpr (by decide)
  refine ⟨⟨same, pictures.mp (levels.mp same)⟩, ⟨apart, mt (levels'.trans pictures').mpr apart⟩, ?_⟩
  exact (drawing_determines_levels device (n := other) (m := m) rfl (by decide)).2.2.mpr (by decide)

end Palette

end TwoBitAlpha
