import TwoBitAlpha.Palette
import TwoBitAlpha.Proofs.PackedMap.Access
import TwoBitAlpha.Proofs.PackedMap.Packing

/-!
A canvas whose rows end within a byte, beside the canvas that is as wide as the bytes.

Both lay out the same bytes. To pack a picture on the narrow canvas is to pack it on the wide one with transparent
columns added, and the narrow canvas shows of any bytes the left columns of what the wide one shows.
-/

namespace TwoBitAlpha

/-- The first `k` columns of `n` rows that have `width` entries each. -/
def leftColumns {α : Type} (width k n : Nat) (entries : Array α) : Array α :=
  ofRows n fun y => (entries.extract (y * width) (y * width + k)).toList

theorem leftColumns_ofRows {α : Type} {row : Nat → List α} {width k n : Nat}
    (len : ∀ y < n, (row y).length = width) (narrow : k ≤ width) :
    leftColumns width k n (ofRows n row) = ofRows n fun y => (row y).take k :=
  ofRows_congr fun _ hy => toList_extract_ofRows len hy narrow

theorem size_leftColumns {α : Type} {entries : Array α} {width k n : Nat} (size : entries.size = n * width)
    (narrow : k ≤ width) : (leftColumns width k n entries).size = n * k := by
  apply size_ofRows
  intro y hy
  have row_end : y * width + width ≤ n * width := row_end_le hy
  rw [Array.length_toList, Array.size_extract]
  omega

namespace Canvas

variable {c d : Canvas}

/-- The canvas `d` is as high as `c` and has as many columns as the packed rows of `c` have fields. -/
structure WholeGroups (c d : Canvas) : Prop where
  width : d.width.toNat = 4 * ((c.width.toNat + 3) / 4)
  height : d.height = c.height

theorem WholeGroups.width_le (whole : WholeGroups c d) : c.width ≤ d.width := by
  rw [UInt32.le_iff_toNat_le, whole.width]
  omega

theorem WholeGroups.rowBytes_eq (whole : WholeGroups c d) : d.rowBytes = c.rowBytes := by
  apply UInt64.toNat_inj.mp
  rw [rowBytes_toNat, rowBytes_toNat, whole.width]
  omega

theorem WholeGroups.packedLength_eq (whole : WholeGroups c d) : d.packedLength = c.packedLength := by
  rw [packedLength, packedLength, whole.rowBytes_eq, whole.height]

theorem WholeGroups.offset_eq (whole : WholeGroups c d) (x y : UInt32) : d.offset x y = c.offset x y := by
  rw [offset, offset, whole.rowBytes_eq]

end Canvas

namespace Raster

variable {r s : Raster}

/-- The first `w` columns of a raster. -/
def leftColumns (r : Raster) (w : UInt32) (narrow : w ≤ r.width) : Raster where
  width := w
  height := r.height
  pixels := TwoBitAlpha.leftColumns r.width.toNat w.toNat r.height.toNat r.pixels
  size_eq := by
    rw [size_leftColumns (by rw [r.size_eq, Nat.mul_comm]) (UInt32.le_iff_toNat_le.mp narrow), Nat.mul_comm]

/-- The pixels that `s` has beside those of `r` lie to their right, and they are transparent, of any color. -/
structure Widened (r s : Raster) : Prop where
  kept : ∀ x y, x < r.width → s.pixel? x y = r.pixel? x y
  added : ∀ x y p, r.width ≤ x → s.pixel? x y = some p → p.alpha = 0

theorem levelAt_beyond {x : UInt32} (beyond : r.width ≤ x) (y : UInt32) : r.levelAt x y = .transparent := by
  apply levelAt_eq_transparent
  rw [contains_iff]
  have edge := UInt32.le_iff_toNat_le.mp beyond
  omega

theorem Widened.levelAt_eq (wide : Widened r s) (x y : UInt32) : s.levelAt x y = r.levelAt x y := by
  by_cases before : x < r.width
  · exact levelAt_congr (wide.kept x y before)
  · have beyond := UInt32.not_lt.mp before
    rw [levelAt_beyond beyond, levelAt]
    cases pixel : s.pixel? x y with
    | none => rfl
    | some p =>
        have clear := wide.added x y p beyond pixel
        simp only [clear, Level.ofAlpha, if_true]

theorem widened_ofFn {w v h : UInt32} {f g : Nat → Nat → Pixel} (wide : w ≤ v)
    (kept : ∀ x y, x < w.toNat → g x y = f x y) (added : ∀ x y, w.toNat ≤ x → (g x y).alpha = 0) :
    Widened (ofFn w h f) (ofFn v h g) := by
  have edge := UInt32.le_iff_toNat_le.mp wide
  constructor
  · intro x y before
    have column : x.toNat < w.toNat := UInt32.lt_iff_toNat_lt.mp before
    by_cases inside : (ofFn w h f).contains x y = true
    · have also : (ofFn v h g).contains x y = true :=
        (contains_iff _ x y).mpr ⟨Nat.lt_of_lt_of_le column edge, ((contains_iff _ x y).mp inside).2⟩
      rw [pixel?_ofFn f inside, pixel?_ofFn g also, kept x.toNat y.toNat column]
    · have also : ¬ (ofFn v h g).contains x y = true := by
        rw [contains_iff] at inside ⊢
        exact fun within => inside ⟨column, within.2⟩
      rw [pixel?_outside inside, pixel?_outside also]
  · intro x y p beyond pixel
    by_cases inside : (ofFn v h g).contains x y = true
    · rw [pixel?_ofFn g inside] at pixel
      rw [← Option.some.inj pixel]
      exact added _ _ (UInt32.le_iff_toNat_le.mp beyond)
    · rw [pixel?_outside inside] at pixel
      cases pixel

end Raster

namespace PackedMap

variable {c d : Canvas} {r s : Raster} {m n : PackedMap}

theorem bytes_of_widened (whole : c.WholeGroups d) (wide : r.Widened s) (narrow : ofRaster r c = .ok m)
    (packed : ofRaster s d = .ok n) : n.bytes = m.bytes := by
  rw [bytes_ofRaster narrow, bytes_ofRaster packed, whole.height, whole.rowBytes_eq]
  apply ofRows_congr
  intro y _
  exact Raster.packRow_congr (fun x => wide.levelAt_eq x _) _

theorem draw_narrow {α : Type} (entry : Level → α) (blank : α) (whole : c.WholeGroups d) {bytes : Array UInt8}
    (size : bytes.size = c.packedLength.toNat) :
    draw entry blank bytes c =
      leftColumns d.width.toNat c.width.toNat d.height.toNat (draw entry blank bytes d) := by
  have also : bytes.size = d.packedLength.toNat := by rw [size, whole.packedLength_eq]
  have narrow := UInt32.le_iff_toNat_le.mp whole.width_le
  rw [draw_eq_ofRows entry blank size, draw_eq_ofRows entry blank also,
    leftColumns_ofRows (fun y hy => length_drawnRow entry also hy) narrow, whole.height, whole.rowBytes_eq]
  apply ofRows_congr
  intro y _
  rw [rowLevels_eq, rowLevels_eq, ← List.map_take, List.take_take, Nat.min_eq_left narrow]

section
variable (whole : m.canvas.WholeGroups n.canvas) (bytes : n.bytes = m.bytes)
include whole bytes

theorem levelAt?_narrow {x : UInt32} (before : x < m.canvas.width) (y : UInt32) :
    n.levelAt? x y = m.levelAt? x y := by
  have also : x < n.canvas.width := UInt32.lt_of_lt_of_le before whole.width_le
  simp only [levelAt?, bytes, whole.offset_eq, Canvas.contains, whole.height, before, also]

theorem toRaster_narrow : m.toRaster = n.toRaster.leftColumns m.canvas.width whole.width_le := by
  apply Raster.eq_of_pixels_eq
  · rfl
  · exact whole.height.symm
  · change draw _ _ m.bytes m.canvas = leftColumns _ _ _ (draw _ _ n.bytes n.canvas)
    rw [bytes]
    exact draw_narrow Level.whitePixel Pixel.clear whole m.size_eq

theorem levelAt?_added (packed : ofRaster r m.canvas = .ok m) {x y : UInt32} (beyond : m.canvas.width ≤ x)
    (inside : n.canvas.contains x y = true) : n.levelAt? x y = some .transparent := by
  obtain ⟨⟨width, _⟩, _⟩ := ofRaster_inv packed
  obtain ⟨b, byte, level⟩ := n.levelAt?_inside inside
  -- The pixel lies in the padding of the narrow canvas, where packing has put what is past the edge.
  have column : m.canvas.slotColumn (n.canvas.offset x y).toNat (Canvas.fieldOf x) = x := by
    rw [Canvas.slotColumn, ← whole.rowBytes_eq]
    exact Canvas.slotColumn_offset inside
  rw [bytes] at byte
  rw [level, field_ofRaster packed byte, column, Raster.levelAt_beyond (width ▸ beyond)]

end

/-- Padding is transparent columns. On a canvas and on the one that is as wide as its bytes, a picture and the same picture
with transparent columns on its right pack to the same bytes. Bytes that the one canvas takes, the other takes, and it
shows their left columns, as a picture and in the colors of every palette. The bytes of a packed picture keep
its levels when they are wrapped for the wide canvas, and the other columns are transparent. -/
theorem padding_is_transparent (c d : Canvas) (whole : c.WholeGroups d) :
    (∀ r s : Raster, r.width = c.width ∧ r.height = c.height → s.width = d.width ∧ s.height = d.height →
      r.Widened s → ∃ m n, ofRaster r c = .ok m ∧ ofRaster s d = .ok n ∧ n.bytes = m.bytes) ∧
    (∀ bytes : Array UInt8,
      ((∃ s, Raster.ofPackedBytes bytes c = .ok s) ↔ ∃ t, Raster.ofPackedBytes bytes d = .ok t) ∧
      (∀ t, Raster.ofPackedBytes bytes d = .ok t → ∃ narrow : c.width ≤ t.width,
        Raster.ofPackedBytes bytes c = .ok (t.leftColumns c.width narrow)) ∧
      ∀ n, ofBytes bytes d = .ok n → ∃ m, ofBytes bytes c = .ok m ∧ ∀ p : Palette,
        p.framebuffer m = leftColumns d.width.toNat c.width.toNat d.height.toNat (p.framebuffer n)) ∧
    ∀ r : Raster, r.width = c.width ∧ r.height = c.height →
      ∃ m n, ofRaster r c = .ok m ∧ ofBytes m.bytes d = .ok n ∧
        (∀ x y, x < c.width → n.levelAt? x y = m.levelAt? x y) ∧
        ∀ x y, c.width ≤ x → d.contains x y = true → n.levelAt? x y = some .transparent := by
  have takes : ∀ bytes : Array UInt8, bytes.size = c.packedLength.toNat ↔ bytes.size = d.packedLength.toNat := by
    intro bytes
    rw [whole.packedLength_eq]
  refine ⟨?_, ?_, ?_⟩
  · intro r s size size' wide
    obtain ⟨m, narrow⟩ := ofRaster_eq_ok size
    obtain ⟨n, packed⟩ := ofRaster_eq_ok size'
    exact ⟨m, n, narrow, packed, bytes_of_widened whole wide narrow packed⟩
  · intro bytes
    refine ⟨?_, ?_, ?_⟩
    · rw [exists_ofPackedBytes_iff, exists_ofPackedBytes_iff, takes]
    · intro t decoded
      obtain ⟨size, rfl⟩ := ofPackedBytes_inv decoded
      let m : PackedMap := ⟨c, bytes, (takes bytes).mpr size⟩
      let n : PackedMap := ⟨d, bytes, size⟩
      have cut := toRaster_narrow (m := m) (n := n) whole rfl
      exact ⟨whole.width_le, m.ofPackedBytes_bytes.trans (congrArg Except.ok cut)⟩
    · intro n wrapped
      obtain ⟨rfl, rfl⟩ := ofBytes_inv wrapped
      have size : n.bytes.size = c.packedLength.toNat := (takes n.bytes).mpr n.size_eq
      exact ⟨⟨c, n.bytes, size⟩, dif_pos size, fun p => draw_narrow p.color 0 whole size⟩
  · intro r size
    obtain ⟨m, packed⟩ := ofRaster_eq_ok size
    obtain ⟨_, rfl, _⟩ := ofRaster_inv packed
    let n : PackedMap := ⟨d, m.bytes, (takes m.bytes).mp m.size_eq⟩
    exact ⟨m, n, packed, n.ofBytes_bytes, fun x y before => levelAt?_narrow (n := n) whole rfl before y,
      fun x y beyond inside => levelAt?_added (n := n) whole rfl packed beyond inside⟩

/-- Five columns beside eight, with colors in the added columns. -/
theorem padding_is_transparent_five_columns :
    let c : Canvas := ⟨5, 2, by decide, by decide⟩
    let d : Canvas := ⟨8, 2, by decide, by decide⟩
    let r : Raster := .ofFn 5 2 fun x y => ⟨7, 7, 7, .ofNat (50 * x + y)⟩
    let s : Raster := .ofFn 8 2 fun x y => ⟨7, 7, 7, if x < 5 then .ofNat (50 * x + y) else 0⟩
    (∃ m n, ofRaster r c = .ok m ∧ ofRaster s d = .ok n ∧ n.bytes = m.bytes) ∧
      ∃ m n, ofRaster r c = .ok m ∧ ofBytes m.bytes d = .ok n ∧ n.levelAt? 4 1 = m.levelAt? 4 1 ∧
        n.levelAt? 5 1 = some .transparent := by
  intro c d r s
  have whole : c.WholeGroups d := ⟨by decide, rfl⟩
  have wide : r.Widened s := by
    apply Raster.widened_ofFn (by decide)
    · intro x y before
      exact congrArg (Pixel.mk 7 7 7) (if_pos before)
    · intro x y beyond
      exact if_neg (Nat.not_lt.mpr beyond)
  obtain ⟨packing, _, wrapping⟩ := padding_is_transparent c d whole
  obtain ⟨m, n, packed, wrapped, kept, added⟩ := wrapping r ⟨rfl, rfl⟩
  exact ⟨packing r s ⟨rfl, rfl⟩ ⟨rfl, rfl⟩ wide, m, n, packed, wrapped, kept 4 1 (by decide),
    added 5 1 (by decide) (by decide)⟩

end PackedMap

end TwoBitAlpha
