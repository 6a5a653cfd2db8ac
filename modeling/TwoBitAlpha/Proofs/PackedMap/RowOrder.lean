import TwoBitAlpha.Palette
import TwoBitAlpha.Proofs.PackedMap.PixelPass

/-!
The rows of a map or of a picture, in any order.

Packing and drawing have one task for each row, and the tasks tile the buffer. In whatever order they are run, the
buffer ends up as after a pass over the single pixels.
-/

namespace TwoBitAlpha.PackedMap

variable {r : Raster} {c : Canvas}

theorem pixelCount_eq_rows (c : Canvas) : c.pixelCount.toNat = c.height.toNat * c.width.toNat := by
  rw [c.pixelCount_toNat, Nat.mul_comm]

section
variable {α : Type} (entry : Level → α) (blank : α) (m : PackedMap)

theorem tile_drawWrites :
    RowWrite.Tile (drawWrites entry m.bytes m.canvas) m.canvas.height.toNat m.canvas.width.toNat
      m.canvas.pixelCount.toNat := by
  rw [drawWrites_eq entry m.size_eq, pixelCount_eq_rows]
  exact RowWrite.tile_rows fun y hy => length_drawnRow entry m.size_eq hy

theorem runAll_drawWrites {order : List (RowWrite α)} (perm : order.Perm (drawWrites entry m.bytes m.canvas))
    {buffer : Array α} (size : buffer.size = m.canvas.pixelCount.toNat) :
    RowWrite.runAll order buffer = draw entry blank m.bytes m.canvas := by
  rw [pixelCount_eq_rows] at size
  rw [drawWrites_eq entry m.size_eq] at perm
  rw [draw_eq_ofRows entry blank m.size_eq]
  exact RowWrite.runAll_rows perm (fun y hy => length_drawnRow entry m.size_eq hy) size

end

theorem tile_rowWrites (r : Raster) (c : Canvas) :
    RowWrite.Tile (rowWrites r c) c.height.toNat c.rowBytes.toNat c.packedLength.toNat := by
  rw [rowWrites_eq, c.packedLength_toNat]
  exact RowWrite.tile_rows (length_packRow r c)

theorem runAll_rowWrites {m : PackedMap} (packed : ofRaster r c = .ok m) {order : List (RowWrite UInt8)}
    (perm : order.Perm (rowWrites r c)) {buffer : Array UInt8} (size : buffer.size = c.packedLength.toNat) :
    RowWrite.runAll order buffer = m.bytes := by
  rw [c.packedLength_toNat] at size
  rw [rowWrites_eq] at perm
  rw [bytes_ofRaster packed]
  exact RowWrite.runAll_rows perm (length_packRow r c) size

/-- Packing, decoding and drawing in the colors of a palette have one task for each row. The tasks fill disjoint parts
of the buffer and all of it, and in whatever order they are run, and whatever the buffer held, the result is that of
one pass over the pixels. -/
theorem rows_in_any_order (c : Canvas) :
    (∀ r : Raster, r.width = c.width ∧ r.height = c.height →
      RowWrite.Tile (rowWrites r c) c.height.toNat c.rowBytes.toNat c.packedLength.toNat ∧
      ∃ m, ofRaster r c = .ok m ∧ m.bytes = packPixels r c ∧
        ∀ order : List (RowWrite UInt8), order.Perm (rowWrites r c) →
          ∀ buffer : Array UInt8, buffer.size = c.packedLength.toNat →
            RowWrite.runAll order buffer = packPixels r c) ∧
    ∀ bytes : Array UInt8, bytes.size = c.packedLength.toNat →
      (RowWrite.Tile (drawWrites Level.whitePixel bytes c) c.height.toNat c.width.toNat c.pixelCount.toNat ∧
        ∃ r, Raster.ofPackedBytes bytes c = .ok r ∧
          r.pixels = drawPixels Level.whitePixel Pixel.clear bytes c ∧
          ∀ order : List (RowWrite Pixel), order.Perm (drawWrites Level.whitePixel bytes c) →
            ∀ buffer : Array Pixel, buffer.size = c.pixelCount.toNat →
              RowWrite.runAll order buffer = drawPixels Level.whitePixel Pixel.clear bytes c) ∧
      ∀ p : Palette,
        RowWrite.Tile (drawWrites p.color bytes c) c.height.toNat c.width.toNat c.pixelCount.toNat ∧
        ∃ m, ofBytes bytes c = .ok m ∧
          p.framebuffer m = drawPixels p.color 0 bytes c ∧
          ∀ order : List (RowWrite UInt8), order.Perm (drawWrites p.color bytes c) →
            ∀ buffer : Array UInt8, buffer.size = c.pixelCount.toNat →
              RowWrite.runAll order buffer = drawPixels p.color 0 bytes c := by
  refine ⟨?_, ?_⟩
  · intro r size
    obtain ⟨m, packed⟩ := ofRaster_eq_ok size
    have pixels := ofRaster_eq_packPixels packed
    refine ⟨tile_rowWrites r c, m, packed, pixels, ?_⟩
    intro order perm buffer fits
    rw [← pixels]
    exact runAll_rowWrites packed perm fits
  · intro bytes size
    let m : PackedMap := ⟨c, bytes, size⟩
    refine ⟨⟨tile_drawWrites Level.whitePixel m, m.toRaster, m.ofPackedBytes_bytes, ?_, ?_⟩, ?_⟩
    · exact draw_eq_drawPixels Level.whitePixel Pixel.clear m
    · intro order perm buffer fits
      rw [← draw_eq_drawPixels Level.whitePixel Pixel.clear m]
      exact runAll_drawWrites Level.whitePixel Pixel.clear m perm fits
    · intro p
      refine ⟨tile_drawWrites p.color m, m, dif_pos size, draw_eq_drawPixels p.color 0 m, ?_⟩
      intro order perm buffer fits
      rw [← draw_eq_drawPixels p.color 0 m]
      exact runAll_drawWrites p.color 0 m perm fits

/-- Five columns and two rows, the lower row first, in a buffer that is not clear. -/
theorem rows_in_any_order_backwards :
    let r : Raster := .ofFn 5 2 fun x y => ⟨7, 7, 7, .ofNat (50 * x + 90 * y)⟩
    let c : Canvas := ⟨5, 2, by decide, by decide⟩
    RowWrite.runAll (rowWrites r c).reverse #[1, 2, 3, 4] = #[0x1a, 0xc0, 0xaf, 0x40] := by
  intro r c
  obtain ⟨_, m, _, _, orders⟩ := (rows_in_any_order c).1 r ⟨rfl, rfl⟩
  rw [orders _ (List.reverse_perm _) #[1, 2, 3, 4] (by decide)]
  decide

end TwoBitAlpha.PackedMap
