import TwoBitAlpha.Proofs.PackedMap.Packing

/-!
Packing writes transparent padding and unpacking does not look at it. So bytes that are unpacked and packed
again come back with their padding cleared and nothing else changed, and two maps show the same picture
if and only if they agree outside the padding.
-/

namespace TwoBitAlpha

theorem Level.whitePixel_injective {a b : Level} (h : a.whitePixel = b.whitePixel) : a = b :=
  alpha_injective (congrArg Pixel.alpha h)

namespace PackedMap

variable {c : Canvas} {i : Nat} {b : UInt8}

/-- The bytes with each padding field made transparent. -/
def clearPadding (c : Canvas) (bytes : Array UInt8) : Array UInt8 :=
  bytes.mapIdx fun i b =>
    Group.toByte (.ofFn fun k => if c.IsPadding i k then .transparent else Group.field b k)

def PaddingClear (c : Canvas) (bytes : Array UInt8) : Prop :=
  ∀ i k b, bytes[i]? = some b → c.IsPadding i k → Group.field b k = .transparent

theorem field_clearPadding {bytes : Array UInt8} (byte : (clearPadding c bytes)[i]? = some b) (k : Fin 4) :
    ∃ a, bytes[i]? = some a ∧
      Group.field b k = if c.IsPadding i k then .transparent else Group.field a k := by
  rw [clearPadding, Array.getElem?_mapIdx] at byte
  obtain ⟨a, before, rfl⟩ := Option.map_eq_some_iff.mp byte
  refine ⟨a, before, ?_⟩
  rw [Group.field_toByte, Fin.getElem_fin, Vector.getElem_ofFn]

theorem eq_of_fields_eq {bytes other : Array UInt8} (size : bytes.size = other.size)
    (fields : ∀ (i : Nat) k a b, bytes[i]? = some a → other[i]? = some b →
      Group.field a k = Group.field b k) :
    bytes = other := by
  apply Array.ext size
  intro i hi hj
  apply Group.eq_of_field_eq
  intro k
  exact fields i k _ _ (Array.getElem?_eq_getElem hi) (Array.getElem?_eq_getElem hj)

theorem clearPadding_eq_self_iff {bytes : Array UInt8} :
    clearPadding c bytes = bytes ↔ PaddingClear c bytes := by
  constructor
  · intro same i k b byte padding
    obtain ⟨a, _, field⟩ := field_clearPadding (by rwa [same]) k
    rw [field, if_pos padding]
  · intro clear
    apply eq_of_fields_eq (by rw [clearPadding, Array.size_mapIdx])
    intro i k a b after before
    obtain ⟨b', before', field⟩ := field_clearPadding after k
    rw [before] at before'
    cases before'
    rw [field]
    split
    · rename_i padding
      exact (clear i k b before padding).symm
    · rfl

theorem paddingClear_of_whole (whole : c.width % 4 = 0) (bytes : Array UInt8) : PaddingClear c bytes :=
  fun i k _ _ padding => absurd padding (Canvas.not_isPadding_of_whole whole i k)

theorem paddingClear_ofRaster {r : Raster} {m : PackedMap} (packed : ofRaster r c = .ok m) :
    PaddingClear c m.bytes := by
  intro i k b byte padding
  obtain ⟨⟨width, height⟩, rfl, _⟩ := ofRaster_inv packed
  obtain ⟨i_lt, _⟩ := Array.getElem?_eq_some_iff.mp byte
  rw [m.size_eq] at i_lt
  rw [field_ofRaster packed byte]
  apply Raster.levelAt_eq_transparent
  rw [Raster.contains, width, height]
  exact fun inside => (Canvas.contains_slot_iff i_lt k).mp inside padding

/-- Padding has no pixel, and any other field is found at its pixel. -/
theorem levelAt?_slot (m : PackedMap) (byte : m.bytes[i]? = some b) (k : Fin 4) :
    m.levelAt? (m.canvas.slotColumn i k) (m.canvas.slotRow i) =
      if m.canvas.IsPadding i k then none else some (Group.field b k) := by
  obtain ⟨i_lt, _⟩ := Array.getElem?_eq_some_iff.mp byte
  rw [m.size_eq] at i_lt
  split
  · rename_i padding
    exact m.levelAt?_outside fun inside => (Canvas.contains_slot_iff i_lt k).mp inside padding
  · rename_i shown
    obtain ⟨b', byte', level⟩ := m.levelAt?_inside ((Canvas.contains_slot_iff i_lt k).mpr shown)
    rw [Canvas.offset_slot i_lt, byte] at byte'
    rw [level, Canvas.fieldOf_slotColumn, Option.some.inj byte']

theorem levelAt_toRaster (m : PackedMap) (x y : UInt32) :
    m.toRaster.levelAt x y = (m.levelAt? x y).getD .transparent := by
  rw [Raster.levelAt, pixel?_toRaster]
  cases m.levelAt? x y with
  | none => rfl
  | some l => exact Level.ofAlpha_alpha l

/-- Packing what was unpacked clears the padding and keeps every other field. -/
theorem ofRaster_toRaster {m n : PackedMap} (packed : ofRaster m.toRaster m.canvas = .ok n) :
    n.bytes = clearPadding m.canvas m.bytes := by
  obtain ⟨_, canvas, _⟩ := ofRaster_inv packed
  apply eq_of_fields_eq (by rw [n.size_eq, canvas, clearPadding, Array.size_mapIdx, m.size_eq])
  intro i k a b again cleared
  obtain ⟨before, byte, field⟩ := field_clearPadding cleared k
  rw [field_ofRaster packed again, levelAt_toRaster, m.levelAt?_slot byte, field]
  split
  · rfl
  · rfl

theorem toRaster_eq_iff {m n : PackedMap} (canvas : m.canvas = n.canvas) :
    m.toRaster = n.toRaster ↔ ∀ x y, m.levelAt? x y = n.levelAt? x y := by
  constructor
  · intro same x y
    have pixel : m.toRaster.pixel? x y = n.toRaster.pixel? x y := by rw [same]
    rw [pixel?_toRaster, pixel?_toRaster] at pixel
    exact (Option.map_inj_right fun _ _ => Level.whitePixel_injective).mp pixel
  · intro levels
    apply Raster.ext_pixel? (congrArg Canvas.width canvas) (congrArg Canvas.height canvas)
    intro x y
    rw [pixel?_toRaster, pixel?_toRaster, levels]

theorem levelAt?_eq_iff {m n : PackedMap} (canvas : m.canvas = n.canvas) :
    (∀ x y, m.levelAt? x y = n.levelAt? x y) ↔
      ∀ i k a b, m.bytes[i]? = some a → n.bytes[i]? = some b → ¬ m.canvas.IsPadding i k →
        Group.field a k = Group.field b k := by
  constructor
  · intro levels i k a b left right shown
    have level := levels (m.canvas.slotColumn i k) (m.canvas.slotRow i)
    rw [m.levelAt?_slot left, canvas, n.levelAt?_slot right, ← canvas, if_neg shown, if_neg shown] at level
    exact Option.some.inj level
  · intro fields x y
    by_cases inside : m.canvas.contains x y = true
    · obtain ⟨a, left, level⟩ := m.levelAt?_inside inside
      obtain ⟨b, right, level'⟩ := n.levelAt?_inside (canvas ▸ inside)
      rw [← canvas] at right
      rw [level, level', fields _ _ a b left right (Canvas.not_isPadding_offset inside)]
    · rw [m.levelAt?_outside inside, n.levelAt?_outside (canvas ▸ inside)]

/-- Packing undoes unpacking up to the padding. The bytes that packing makes are those with clear padding,
and the bytes that unpacking takes for one picture are those that agree outside the padding. -/
theorem pack_unpack (c : Canvas) :
    (∀ bytes : Array UInt8, bytes.size = c.packedLength.toNat →
      ∃ r m, Raster.ofPackedBytes bytes c = .ok r ∧ ofRaster r c = .ok m ∧
        m.bytes = clearPadding c bytes ∧ (m.bytes = bytes ↔ PaddingClear c bytes) ∧
        (c.width % 4 = 0 → m.bytes = bytes)) ∧
    (∀ bytes : Array UInt8, (∃ r m, ofRaster r c = .ok m ∧ m.bytes = bytes) ↔
      bytes.size = c.packedLength.toNat ∧ PaddingClear c bytes) ∧
    ∀ bytes other : Array UInt8,
      bytes.size = c.packedLength.toNat → other.size = c.packedLength.toNat →
      (Raster.ofPackedBytes bytes c = Raster.ofPackedBytes other c ↔
        ∀ (i : Nat) k a b, bytes[i]? = some a → other[i]? = some b → ¬ c.IsPadding i k →
          Group.field a k = Group.field b k) := by
  have repack : ∀ m : PackedMap, m.canvas = c →
      ∃ n, ofRaster m.toRaster c = .ok n ∧ n.bytes = clearPadding c m.bytes := by
    rintro m rfl
    obtain ⟨n, packed⟩ := ofRaster_eq_ok (r := m.toRaster) (c := m.canvas) ⟨rfl, rfl⟩
    exact ⟨n, packed, ofRaster_toRaster packed⟩
  refine ⟨?_, ?_, ?_⟩
  · intro bytes size
    obtain ⟨n, packed, cleared⟩ := repack ⟨c, bytes, size⟩ rfl
    refine ⟨_, n, ofPackedBytes_bytes ⟨c, bytes, size⟩, packed, cleared, ?_, ?_⟩
    · rw [cleared]
      exact clearPadding_eq_self_iff
    · intro whole
      rw [cleared]
      exact clearPadding_eq_self_iff.mpr (paddingClear_of_whole whole bytes)
  · intro bytes
    constructor
    · rintro ⟨r, m, packed, rfl⟩
      obtain ⟨_, canvas, _⟩ := ofRaster_inv packed
      exact ⟨canvas ▸ m.size_eq, paddingClear_ofRaster packed⟩
    · rintro ⟨size, clear⟩
      obtain ⟨n, packed, cleared⟩ := repack ⟨c, bytes, size⟩ rfl
      exact ⟨_, n, packed, cleared.trans (clearPadding_eq_self_iff.mpr clear)⟩
  · intro bytes other size size'
    let m : PackedMap := ⟨c, bytes, size⟩
    let n : PackedMap := ⟨c, other, size'⟩
    have left : Raster.ofPackedBytes bytes c = .ok m.toRaster := m.ofPackedBytes_bytes
    have right : Raster.ofPackedBytes other c = .ok n.toRaster := n.ofPackedBytes_bytes
    have canvas : m.canvas = n.canvas := rfl
    rw [left, right, Except.ok.injEq]
    exact (toRaster_eq_iff canvas).trans (levelAt?_eq_iff canvas)

theorem pack_unpack_six_columns :
    ∃ r m, Raster.ofPackedBytes #[0xff, 0xff, 0x00, 0xff] ⟨6, 2, by decide, by decide⟩ = .ok r ∧
      ofRaster r ⟨6, 2, by decide, by decide⟩ = .ok m ∧ m.bytes = #[0xff, 0xf0, 0x00, 0xf0] := by
  obtain ⟨r, m, unpacked, packed, cleared, _⟩ :=
    (pack_unpack ⟨6, 2, by decide, by decide⟩).1 #[0xff, 0xff, 0x00, 0xff] (by decide)
  exact ⟨r, m, unpacked, packed, cleared.trans (by decide)⟩

end PackedMap

end TwoBitAlpha
