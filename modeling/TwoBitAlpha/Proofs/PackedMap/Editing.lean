import TwoBitAlpha.Conversion
import TwoBitAlpha.Proofs.PackedMap.Access
import TwoBitAlpha.Proofs.PackedMap.Padding

/-!
What a change in one place does on the other side.

A pixel that is replaced changes its own field of the packed map and nothing else, and a byte that is replaced changes
the pixels whose fields it holds and no others.
-/

namespace TwoBitAlpha

theorem Raster.levelAt_setPixel {r : Raster} {x y : UInt32} (inside : r.contains x y = true) (p : Pixel)
    (u v : UInt32) :
    (r.setPixel x y p).levelAt u v = if u = x ∧ v = y then Level.ofAlpha p.alpha else r.levelAt u v := by
  rw [levelAt, pixel?_setPixel inside]
  by_cases here : u = x ∧ v = y
  · rw [if_pos here, if_pos here]
  · rw [if_neg here, if_neg here, levelAt]

namespace PackedMap

variable {c : Canvas} {m n : PackedMap} {x y : UInt32} {i : Nat}

section
variable {r : Raster} {p : Pixel} (inside : c.contains x y = true) (packed : ofRaster r c = .ok m)
  (edited : ofRaster (r.setPixel x y p) c = .ok n)
include inside packed edited

theorem field_setPixel {a b : UInt8} (before : m.bytes[i]? = some a) (after : n.bytes[i]? = some b) (k : Fin 4) :
    Group.field b k =
      if i = (c.offset x y).toNat ∧ k = Canvas.fieldOf x then Level.ofAlpha p.alpha else Group.field a k := by
  obtain ⟨⟨width, height⟩, canvas, _⟩ := ofRaster_inv packed
  have also : r.contains x y = true := by rwa [Raster.contains, width, height]
  obtain ⟨i_lt, _⟩ := Array.getElem?_eq_some_iff.mp before
  rw [m.size_eq, canvas] at i_lt
  rw [field_ofRaster packed before, field_ofRaster edited after, Raster.levelAt_setPixel also]
  simp only [Canvas.slot_eq_iff inside i_lt]

/-- Every other byte stays, as all its fields do. -/
theorem getElem?_setPixel_other (other : i ≠ (c.offset x y).toNat) : n.bytes[i]? = m.bytes[i]? := by
  have size : n.bytes.size = m.bytes.size := by
    rw [n.size_eq, m.size_eq, (ofRaster_inv packed).2.1, (ofRaster_inv edited).2.1]
  by_cases within : i < m.bytes.size
  · have before := Array.getElem?_eq_getElem within
    have after := Array.getElem?_eq_getElem (size ▸ within)
    rw [before, after, Option.some_inj]
    apply Group.eq_of_field_eq
    intro k
    rw [field_setPixel inside packed edited before after, if_neg fun here => other here.1]
  · rw [Array.getElem?_eq_none (by omega), Array.getElem?_eq_none (by omega)]

theorem setPixel_eq_iff {old : Pixel} (pixel : r.pixel? x y = some old) :
    n = m ↔ Level.ofAlpha p.alpha = Level.ofAlpha old.alpha := by
  obtain ⟨⟨width, height⟩, canvas, _⟩ := ofRaster_inv packed
  obtain ⟨_, canvas', _⟩ := ofRaster_inv edited
  have also : r.contains x y = true := by rwa [Raster.contains, width, height]
  have before := levelAt?_ofRaster packed x y
  have after := levelAt?_ofRaster edited x y
  rw [pixel, Option.map_some] at before
  rw [Raster.pixel?_setPixel also, if_pos ⟨rfl, rfl⟩, Option.map_some] at after
  constructor
  · rintro rfl
    exact Option.some.inj (after.symm.trans before)
  · intro level
    apply eq_of_bytes_eq (canvas'.trans canvas.symm)
    apply eq_of_fields_eq (by rw [n.size_eq, m.size_eq, canvas, canvas'])
    intro j k b a new byte
    rw [field_setPixel inside packed edited byte new]
    split
    · rename_i here
      obtain ⟨rfl, rfl⟩ := here
      rw [field_ofRaster packed byte, Canvas.slotColumn_offset inside, Canvas.slotRow_offset inside,
        Raster.levelAt, pixel, level]
    · rfl

end

theorem ofBytes_setByte (m : PackedMap) (i : Nat) (b : UInt8) :
    ofBytes (m.bytes.setIfInBounds i b) m.canvas = .ok (m.setByte i b) :=
  (m.setByte i b).ofBytes_bytes

theorem levelAt?_setByte (inside : m.canvas.contains x y = true) (within : i < m.bytes.size) (b : UInt8) :
    (m.setByte i b).levelAt? x y =
      if (m.canvas.offset x y).toNat = i then some (Group.field b (Canvas.fieldOf x)) else m.levelAt? x y := by
  obtain ⟨a, byte, level⟩ := (m.setByte i b).levelAt?_inside inside
  obtain ⟨a', byte', level'⟩ := m.levelAt?_inside inside
  change (m.bytes.setIfInBounds i b)[(m.canvas.offset x y).toNat]? = some a at byte
  rw [level, level']
  split
  · rename_i here
    rw [here, Array.getElem?_setIfInBounds_self, if_pos within] at byte
    rw [Option.some.inj byte]
  · rename_i elsewhere
    rw [Array.getElem?_setIfInBounds_ne (Ne.symm elsewhere), byte'] at byte
    rw [Option.some.inj byte]

/-- The pixels of a byte take their levels from its new fields. -/
theorem levelAt?_setByte_at (inside : m.canvas.contains x y = true) (within : i < m.bytes.size) (b : UInt8)
    {k : Fin 4} (column : x.toNat = 4 * (i % m.canvas.rowBytes.toNat) + k.val)
    (row : y.toNat = i / m.canvas.rowBytes.toNat) :
    (m.setByte i b).levelAt? x y = some (Group.field b k) := by
  have field_lt := k.isLt
  have group : x.toNat / 4 = i % m.canvas.rowBytes.toNat := by omega
  have field : Canvas.fieldOf x = k := by
    apply Fin.eq_of_val_eq
    rw [Canvas.fieldOf_val]
    omega
  rw [levelAt?_setByte inside within, if_pos ((Canvas.offset_eq_iff inside i).mpr ⟨group, row⟩), field]

theorem levelAt?_setByte_other (inside : m.canvas.contains x y = true) (within : i < m.bytes.size) (b : UInt8)
    (other : ∀ k : Fin 4, ¬ (x.toNat = 4 * (i % m.canvas.rowBytes.toNat) + k.val ∧
      y.toNat = i / m.canvas.rowBytes.toNat)) :
    (m.setByte i b).levelAt? x y = m.levelAt? x y := by
  rw [levelAt?_setByte inside within, if_neg]
  intro here
  obtain ⟨group, row⟩ := (Canvas.offset_eq_iff inside i).mp here
  refine other (Canvas.fieldOf x) ⟨?_, row⟩
  rw [Canvas.fieldOf_val, ← group, Nat.div_add_mod]

/-- A pixel that gets another value changes at most its field of its byte, and changes the map if and only if its level
changes. A byte that gets another value changes at most its pixels, in the decoded picture and in the colors of every
palette alike, and those that the canvas has take the levels of the new byte. -/
theorem edits_are_local (c : Canvas) :
    (∀ r : Raster, r.width = c.width ∧ r.height = c.height → ∀ x y, c.contains x y = true → ∀ p : Pixel,
      ∃ old m n, r.pixel? x y = some old ∧ ofRaster r c = .ok m ∧ ofRaster (r.setPixel x y p) c = .ok n ∧
        (∀ i, i ≠ (c.offset x y).toNat → n.bytes[i]? = m.bytes[i]?) ∧
        (∃ a b, m.bytes[(c.offset x y).toNat]? = some a ∧ n.bytes[(c.offset x y).toNat]? = some b ∧
          (b >>> (6 - 2 * (x % 4)).toUInt8) &&& 3 = (Level.ofAlpha p.alpha).toBits ∧
          ∀ k, k ≠ Canvas.fieldOf x → Group.field b k = Group.field a k) ∧
        (n = m ↔ Level.ofAlpha p.alpha = Level.ofAlpha old.alpha)) ∧
    ∀ bytes : Array UInt8, bytes.size = c.packedLength.toNat → ∀ i < bytes.size, ∀ b : UInt8,
      ∃ m n, ofBytes bytes c = .ok m ∧ ofBytes (bytes.setIfInBounds i b) c = .ok n ∧
        Raster.ofPackedBytes bytes c = .ok m.toRaster ∧
        Raster.ofPackedBytes (bytes.setIfInBounds i b) c = .ok n.toRaster ∧
        ∀ x y, c.contains x y = true →
          (∀ k : Fin 4, x.toNat = 4 * (i % c.rowBytes.toNat) + k.val → y.toNat = i / c.rowBytes.toNat →
            n.toRaster.pixel? x y = some (Group.field b k).whitePixel ∧
            ∀ p : Palette, (p.framebuffer n)[y.toNat * c.width.toNat + x.toNat]? = some (p.color (Group.field b k))) ∧
          ((∀ k : Fin 4, ¬ (x.toNat = 4 * (i % c.rowBytes.toNat) + k.val ∧ y.toNat = i / c.rowBytes.toNat)) →
            n.toRaster.pixel? x y = m.toRaster.pixel? x y ∧
            ∀ p : Palette, (p.framebuffer n)[y.toNat * c.width.toNat + x.toNat]? =
              (p.framebuffer m)[y.toNat * c.width.toNat + x.toNat]?) := by
  refine ⟨?_, ?_⟩
  · intro r size x y inside p
    have also : r.contains x y = true := by rwa [Raster.contains, size.1, size.2]
    obtain ⟨old, pixel⟩ : ∃ old, r.pixel? x y = some old :=
      Option.ne_none_iff_exists'.mp fun missing => (r.pixel?_eq_none_iff x y).mp missing also
    obtain ⟨m, packed⟩ := ofRaster_eq_ok size
    obtain ⟨n, edited⟩ := ofRaster_eq_ok (r := r.setPixel x y p) size
    obtain ⟨_, rfl, _⟩ := ofRaster_inv packed
    have canvas : n.canvas = m.canvas := (ofRaster_inv edited).2.1
    obtain ⟨a, before, _⟩ := m.levelAt?_inside inside
    obtain ⟨b, after, _⟩ := n.levelAt?_inside (canvas ▸ inside)
    rw [canvas] at after
    have fields := field_setPixel inside packed edited before after
    refine ⟨old, m, n, pixel, packed, edited, fun i => getElem?_setPixel_other inside packed edited,
      ⟨a, b, before, after, ?_, ?_⟩, setPixel_eq_iff inside packed edited pixel⟩
    · rw [shift_fieldOf, ← Group.toBits_field, fields, if_pos ⟨rfl, rfl⟩]
    · intro k other
      rw [fields, if_neg fun here => other here.2]
  · intro bytes size i within b
    let m : PackedMap := ⟨c, bytes, size⟩
    refine ⟨m, m.setByte i b, m.ofBytes_bytes, m.ofBytes_setByte i b, m.ofPackedBytes_bytes,
      (m.setByte i b).ofPackedBytes_bytes, ?_⟩
    intro x y inside
    have shown := fun p : Palette => getElem?_draw_level p.color 0 m inside
    have shown' := fun p : Palette => getElem?_draw_level p.color 0 (m.setByte i b) inside
    refine ⟨?_, ?_⟩
    · intro k column row
      have level := levelAt?_setByte_at (m := m) inside within b column row
      refine ⟨?_, fun p => ?_⟩
      · rw [pixel?_toRaster, level, Option.map_some]
      · exact (shown' p).trans (by rw [level, Option.map_some])
    · intro other
      have level := levelAt?_setByte_other (m := m) inside within b other
      refine ⟨?_, fun p => ?_⟩
      · rw [pixel?_toRaster, pixel?_toRaster, level]
      · exact (shown' p).trans (by rw [level, ← shown p]; rfl)

/-- The last pixel of five columns and two rows, which has its byte to itself, set in the picture and in the map. -/
theorem edits_are_local_five_columns :
    let c : Canvas := ⟨5, 2, by decide, by decide⟩
    (∃ m n, ofRaster (.blank 5 2) c = .ok m ∧ ofRaster ((Raster.blank 5 2).setPixel 4 1 ⟨9, 9, 9, 200⟩) c = .ok n ∧
      n ≠ m ∧ n.bytes[2]? = m.bytes[2]?) ∧
    ∃ m n, ofBytes #[0, 0, 0, 0] c = .ok m ∧ ofBytes #[0, 0, 0, 0xff] c = .ok n ∧
      n.toRaster.pixel? 4 1 = some ⟨255, 255, 255, 255⟩ ∧ n.toRaster.pixel? 3 1 = m.toRaster.pixel? 3 1 := by
  intro c
  refine ⟨?_, ?_⟩
  · obtain ⟨old, m, n, pixel, packed, edited, others, _, same⟩ :=
      (edits_are_local c).1 (.blank 5 2) ⟨rfl, rfl⟩ 4 1 (by decide) ⟨9, 9, 9, 200⟩
    have clear : old = .clear := Option.some.inj (pixel.symm.trans (by decide))
    refine ⟨m, n, packed, edited, ?_, others 2 (by decide)⟩
    rw [Ne, same, clear]
    decide
  · obtain ⟨m, n, before, after, _, _, pixels⟩ :=
      (edits_are_local c).2 #[0, 0, 0, 0] (by decide) 3 (by decide) 0xff
    refine ⟨m, n, before, after, ((pixels 4 1 (by decide)).1 0 (by decide) (by decide)).1.trans (by decide), ?_⟩
    exact ((pixels 3 1 (by decide)).2 (by decide)).1

end PackedMap

end TwoBitAlpha
