import TwoBitAlpha.Proofs.PackedMap.Packing
import TwoBitAlpha.Proofs.Resampling

/-!
Two pictures that differ in color alone, on their way into a packed map.

Resampling treats each channel as a plane by itself, so what becomes of a channel does not depend on the other
three, whatever the arithmetic of the kernel is. Whether there is a result at all is a matter of sizes. Packing looks
at alpha only. Together: color never reaches the map, with resampling or without.
-/

namespace TwoBitAlpha

namespace Raster

/-- Two rasters of one size that agree in a channel. -/
structure SameIn (get : Pixel → UInt8) (r s : Raster) : Prop where
  width : r.width = s.width
  height : r.height = s.height
  value : ∀ x y, (r.pixel? x y).map get = (s.pixel? x y).map get

variable {get : Pixel → UInt8} {r s : Raster}

theorem sameIn_ofFn {width height : UInt32} {f g : Nat → Nat → Pixel} (same : ∀ x y, get (f x y) = get (g x y)) :
    SameIn get (ofFn width height f) (ofFn width height g) := by
  refine ⟨rfl, rfl, ?_⟩
  intro x y
  by_cases inside : (ofFn width height f).contains x y = true
  · have also : (ofFn width height g).contains x y = true := inside
    rw [pixel?_ofFn f inside, pixel?_ofFn g also, Option.map_some, Option.map_some, same]
  · have also : ¬ (ofFn width height g).contains x y = true := inside
    rw [pixel?_outside inside, pixel?_outside also]

theorem SameIn.map_pixels (same : SameIn get r s) : r.pixels.map get = s.pixels.map get := by
  have size : (r.pixels.map get).size = r.width.toNat * r.height.toNat := by rw [Array.size_map, r.size_eq]
  apply ext_position size
  · rw [Array.size_map, s.size_eq, same.width, same.height]
  · intro x y hx hy
    have inside := (contains_iff r x y).mpr ⟨hx, hy⟩
    have also : s.contains x y = true := by rwa [contains, ← same.width, ← same.height]
    have value := same.value x y
    rw [pixel?_inside inside, pixel?_inside also, index, index, ← same.width] at value
    rw [Array.getElem?_map, Array.getElem?_map, value]

end Raster

namespace Resampling

variable {get : Pixel → UInt8} {r r' s : Raster}

theorem plane_congr (same : r.SameIn get s) : Plane.ofRaster r get = Plane.ofRaster s get := by
  have values := congrArg (Array.map UInt8.toFloat32) same.map_pixels
  rw [Array.map_map, Array.map_map] at values
  rw [Plane.ofRaster, Plane.ofRaster, same.width]
  exact congrArg (Plane.mk s.width.toNat) values

/-- A resampled channel is made from that channel alone. -/
theorem channel_congr (same : r.SameIn get s) (width height : UInt32) :
    channel r width height get = channel s width height get := by
  rw [channel, channel, plane_congr same, same.width, same.height]

theorem canResize_congr (same : r.SameIn get s) (width height : UInt32) :
    canResize r width height = canResize s width height := by
  rw [canResize, canResize, same.width, same.height]

theorem sameIn_mixed (same : r.SameIn Pixel.alpha s) (width height : UInt32) :
    (mixed r width height).SameIn Pixel.alpha (mixed s width height) := by
  rw [mixed, mixed]
  apply Raster.sameIn_ofFn
  intro x y
  rw [channel_congr same]

theorem exists_resize_sameIn (same : r.SameIn Pixel.alpha s) {width height : UInt32}
    (resized : resize r width height = some r') : ∃ s', resize s width height = some s' ∧ r'.SameIn Pixel.alpha s' := by
  rw [resize_eq_some_iff, same.width, same.height, canResize_congr same] at resized
  obtain ⟨empty, rfl⟩ | ⟨pixels, weights, rfl⟩ := resized
  · exact ⟨_, resize_eq_some_iff.mpr (.inl ⟨empty, rfl⟩), rfl, rfl, fun _ _ => rfl⟩
  · exact ⟨_, resize_eq_some_iff.mpr (.inr ⟨pixels, weights, rfl⟩), sameIn_mixed same width height⟩

end Resampling

namespace Raster

variable {r r' s : Raster} {c : Canvas}

theorem SameIn.canFit_iff (same : SameIn Pixel.alpha r s) (c : Canvas) : r.CanFit c ↔ s.CanFit c := by
  rw [CanFit, CanFit, same.width, same.height]

theorem SameIn.exists_fit (same : SameIn Pixel.alpha r s) (fitted : r.fit c = some r') :
    ∃ s', s.fit c = some s' ∧ SameIn Pixel.alpha r' s' := by
  by_cases size : r.width = c.width ∧ r.height = c.height
  · rw [fit_eq_self size] at fitted
    cases fitted
    rw [same.width, same.height] at size
    exact ⟨s, fit_eq_self size, same⟩
  · rw [fit_eq_resize size] at fitted
    rw [same.width, same.height] at size
    rw [fit_eq_resize size]
    exact Resampling.exists_resize_sameIn same fitted

theorem levelAt_eq_getD (r : Raster) (x y : UInt32) :
    r.levelAt x y = (((r.pixel? x y).map Pixel.alpha).map Level.ofAlpha).getD .transparent := by
  rw [levelAt]
  cases r.pixel? x y with
  | none => rfl
  | some p => rfl

theorem SameIn.levelAt (same : SameIn Pixel.alpha r s) (x y : UInt32) : r.levelAt x y = s.levelAt x y := by
  rw [levelAt_eq_getD, levelAt_eq_getD, same.value]

theorem SameIn.packRow (same : SameIn Pixel.alpha r s) (y : UInt32) (n : Nat) : r.packRow y n = s.packRow y n :=
  packRow_congr (fun x => same.levelAt x y) n

end Raster

namespace PackedMap

variable {r s : Raster}

theorem ofRaster_congr (same : r.SameIn Pixel.alpha s) (c : Canvas) : ofRaster r c = ofRaster s c := by
  have writes : rowWrites r c = rowWrites s c := by
    simp only [rowWrites, same.packRow]
  simp only [ofRaster, writes, same.width, same.height]

end PackedMap

end TwoBitAlpha
