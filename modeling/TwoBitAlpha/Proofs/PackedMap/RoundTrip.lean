import TwoBitAlpha.Proofs.PackedMap.Packing

/-!
From a raster to packed bytes and back: the level of every pixel survives, its color does not.
-/

namespace TwoBitAlpha.PackedMap

/-- Unpacking gives the white picture in which each pixel has the alpha of its level, on every canvas. -/
theorem unpack_pack (r : Raster) (c : Canvas) (size : r.width = c.width ∧ r.height = c.height) :
    ∃ m, ofRaster r c = .ok m ∧ m.canvas = c ∧ m.length = c.packedLength.toNat ∧
      Raster.ofPackedBytes m.bytes c = .ok m.toRaster ∧
      m.toRaster.width = c.width ∧ m.toRaster.height = c.height ∧
      ∀ x y, c.contains x y = true → ∃ p q,
        r.pixel? x y = some p ∧ m.toRaster.pixel? x y = some q ∧
        q = ⟨255, 255, 255, (Level.ofAlpha p.alpha).alpha⟩ ∧
        Level.ofAlpha q.alpha = Level.ofAlpha p.alpha := by
  obtain ⟨m, packed⟩ := ofRaster_eq_ok size
  obtain ⟨_, canvas, _⟩ := ofRaster_inv packed
  subst canvas
  refine ⟨m, packed, rfl, m.size_eq, m.ofPackedBytes_bytes, rfl, rfl, ?_⟩
  intro x y inside
  have also : r.contains x y = true := by rwa [Raster.contains, size.1, size.2]
  obtain ⟨p, pixel⟩ : ∃ p, r.pixel? x y = some p :=
    Option.ne_none_iff_exists'.mp fun missing => (r.pixel?_eq_none_iff x y).mp missing also
  refine ⟨p, (Level.ofAlpha p.alpha).whitePixel, pixel, ?_, rfl, Level.ofAlpha_alpha _⟩
  rw [pixel?_toRaster, levelAt?_ofRaster packed, pixel, Option.map_some, Option.map_some]

theorem unpack_pack_five_columns :
    ∃ m, ofRaster (.ofFn 5 2 fun x y => ⟨7, 7, 7, .ofNat (42 * x + y)⟩) ⟨5, 2, by decide, by decide⟩ = .ok m ∧
      m.toRaster.pixel? 2 1 = some ⟨255, 255, 255, 128⟩ := by
  obtain ⟨m, packed, _, _, _, _, _, pixels⟩ := unpack_pack
    (.ofFn 5 2 fun x y => ⟨7, 7, 7, .ofNat (42 * x + y)⟩) ⟨5, 2, by decide, by decide⟩ ⟨rfl, rfl⟩
  obtain ⟨p, q, before, after, white, _⟩ := pixels 2 1 (by decide)
  have alpha : p = ⟨7, 7, 7, 85⟩ := Option.some.inj (before.symm.trans (by decide))
  rw [alpha] at white
  exact ⟨m, packed, after.trans (congrArg some white)⟩

end TwoBitAlpha.PackedMap
