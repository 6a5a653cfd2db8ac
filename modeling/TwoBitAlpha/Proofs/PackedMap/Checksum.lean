import TwoBitAlpha.Proofs.Crc32
import TwoBitAlpha.Proofs.PackedMap.Editing

/-!
What the checksum of a map notices: every change within four bytes in a row, and so every pixel that gets another level.
-/

namespace TwoBitAlpha.PackedMap

variable {c : Canvas} {m n : PackedMap}

theorem checksum_ne_of_window (canvas : m.canvas = n.canvas) (apart : m.bytes ≠ n.bytes) {i : Nat}
    (outside : ∀ j, j < i ∨ i + 4 ≤ j → m.bytes[j]? = n.bytes[j]?) : m.checksum ≠ n.checksum := by
  refine Crc32.ofBytes_ne_of_window ?_ apart outside
  rw [m.size_eq, n.size_eq, canvas]

/-- One byte is a window that begins at itself. -/
theorem checksum_ne_of_byte (canvas : m.canvas = n.canvas) (apart : m.bytes ≠ n.bytes) {i : Nat}
    (others : ∀ j, j ≠ i → m.bytes[j]? = n.bytes[j]?) : m.checksum ≠ n.checksum := by
  apply checksum_ne_of_window (i := i) canvas apart
  intro j outside
  exact others j (by omega)

/-- Two maps of one canvas whose bytes differ, but only within four in a row, have different checksums. So a pixel that
gets another level changes the checksum of what a picture packs to, and a byte that gets another value changes the
checksum of a map. -/
theorem checksum_tells_apart (c : Canvas) :
    (∀ m n : PackedMap, m.canvas = c → n.canvas = c → m.bytes ≠ n.bytes →
      (∃ i, ∀ j, j < i ∨ i + 4 ≤ j → m.bytes[j]? = n.bytes[j]?) → m.checksum ≠ n.checksum) ∧
    (∀ r : Raster, r.width = c.width ∧ r.height = c.height → ∀ x y old, r.pixel? x y = some old → ∀ p : Pixel,
      Level.ofAlpha p.alpha ≠ Level.ofAlpha old.alpha →
      ∃ m n, ofRaster r c = .ok m ∧ ofRaster (r.setPixel x y p) c = .ok n ∧ m.checksum ≠ n.checksum) ∧
    ∀ bytes : Array UInt8, bytes.size = c.packedLength.toNat → ∀ (i : Nat) (a b : UInt8), bytes[i]? = some a → b ≠ a →
      ∃ m n, ofBytes bytes c = .ok m ∧ ofBytes (bytes.setIfInBounds i b) c = .ok n ∧ m.checksum ≠ n.checksum := by
  refine ⟨?_, ?_, ?_⟩
  · rintro m n rfl canvas apart ⟨i, outside⟩
    exact checksum_ne_of_window canvas.symm apart outside
  · intro r size x y old pixel p level
    have inside : c.contains x y = true := by
      apply Classical.byContradiction
      intro beyond
      rw [Canvas.contains, ← size.1, ← size.2] at beyond
      rw [Raster.pixel?_outside beyond] at pixel
      cases pixel
    obtain ⟨m, packed⟩ := ofRaster_eq_ok size
    obtain ⟨n, edited⟩ := ofRaster_eq_ok (r := r.setPixel x y p) size
    have canvas : m.canvas = n.canvas := (ofRaster_inv packed).2.1.trans (ofRaster_inv edited).2.1.symm
    refine ⟨m, n, packed, edited, checksum_ne_of_byte (i := (c.offset x y).toNat) canvas ?_ ?_⟩
    · intro same
      exact level ((setPixel_eq_iff inside packed edited pixel).mp (eq_of_bytes_eq canvas same).symm)
    · exact fun j other => (getElem?_setPixel_other inside packed edited other).symm
  · intro bytes size i a b byte other
    let m : PackedMap := ⟨c, bytes, size⟩
    obtain ⟨i_lt, _⟩ := Array.getElem?_eq_some_iff.mp byte
    refine ⟨m, m.setByte i b, m.ofBytes_bytes, m.ofBytes_setByte i b, checksum_ne_of_byte (i := i) rfl ?_ ?_⟩
    · intro same
      have set : (bytes.setIfInBounds i b)[i]? = some b := by
        rw [Array.getElem?_setIfInBounds_self, if_pos i_lt]
      change bytes = bytes.setIfInBounds i b at same
      rw [← same, byte] at set
      exact other (Option.some.inj set).symm
    · exact fun j elsewhere => (Array.getElem?_setIfInBounds_ne (Ne.symm elsewhere)).symm

/-- Four bytes over the end of a row, one pixel, and one byte of padding and pixels, on nine columns and two rows. -/
theorem checksum_tells_apart_nine_columns :
    let c : Canvas := ⟨9, 2, by decide, by decide⟩
    let m : PackedMap := ⟨c, #[0x1b, 0xe4, 0x40, 0x00, 0xff, 0xc0], by decide⟩
    m.checksum ≠ PackedMap.checksum ⟨c, #[0x1b, 0x1b, 0x4f, 0xff, 0x00, 0xc0], by decide⟩ ∧
    (∃ m n, ofRaster (.blank 9 2) c = .ok m ∧ ofRaster ((Raster.blank 9 2).setPixel 8 1 ⟨0, 0, 0, 1⟩) c = .ok n ∧
      m.checksum ≠ n.checksum) ∧
    ∃ n, ofBytes #[0x1b, 0xe4, 0x41, 0x00, 0xff, 0xc0] c = .ok n ∧ m.checksum ≠ n.checksum := by
  intro c m
  obtain ⟨windows, pixels, bytes⟩ := checksum_tells_apart c
  refine ⟨?_, ?_, ?_⟩
  · refine windows m _ rfl rfl (by decide) ⟨1, ?_⟩
    intro j outside
    obtain rfl | rfl | beyond : j = 0 ∨ j = 5 ∨ 6 ≤ j := by omega
    · rfl
    · rfl
    · rw [Array.getElem?_eq_none beyond, Array.getElem?_eq_none beyond]
  · exact pixels (.blank 9 2) ⟨rfl, rfl⟩ 8 1 .clear (by decide) ⟨0, 0, 0, 1⟩ (by decide)
  · obtain ⟨m', n, before, after, apart⟩ := bytes m.bytes m.size_eq 2 0x40 0x41 rfl (by decide)
    cases before.symm.trans m.ofBytes_bytes
    exact ⟨n, after, apart⟩

end TwoBitAlpha.PackedMap
