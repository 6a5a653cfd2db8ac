import TwoBitAlpha.Picture
import TwoBitAlpha.Proofs.PackedMap.Padding
import TwoBitAlpha.Proofs.Resampling

/-!
Any raster can be packed once it is fitted.

Packing takes rasters of the canvas's size and refuses all others, and fitting gives that size whatever it starts from,
a raster without pixels included. Fitting what is fitted already changes nothing. Fitting itself can fail for one
reason: sizes so large that the rounding of their positions leaves a new row or column without anything to mix.
-/

namespace TwoBitAlpha

namespace Raster

theorem size_samples (r : Raster) : r.samples.size = r.width.toNat * r.height.toNat * 4 := by
  unfold samples
  rw [Array.size_ofFn]

variable {r s : Raster} {c : Canvas}

theorem eq_self_iff_of_fit (fitted : r.fit c = some s) : s = r ↔ r.width = c.width ∧ r.height = c.height := by
  constructor
  · rintro rfl
    exact size_fit fitted
  · intro size
    rw [fit_eq_self size] at fitted
    exact (Option.some.inj fitted).symm

theorem fit_fit (fitted : r.fit c = some s) : s.fit c = some s :=
  fit_eq_self (size_fit fitted)

theorem fit_empty (empty : r.width = 0 ∨ r.height = 0) (c : Canvas) : r.fit c = some (blank c.width c.height) := by
  have differs : ¬ (r.width = c.width ∧ r.height = c.height) := by
    rintro ⟨width, height⟩
    rcases empty with columns | rows
    · exact UInt32.pos_iff_ne_zero.mp c.width_pos (width ▸ columns)
    · exact UInt32.pos_iff_ne_zero.mp c.height_pos (height ▸ rows)
  rw [fit_eq_resize differs, Resampling.resize, if_pos empty]

theorem pixel?_fit (fitted : r.fit c = some s) (differs : ¬ (r.width = c.width ∧ r.height = c.height))
    (columns : r.width ≠ 0) (rows : r.height ≠ 0) {x y : UInt32} (inside : c.contains x y = true) :
    ∃ p, s.pixel? x y = some p ∧
      ∀ get ∈ [Pixel.red, Pixel.green, Pixel.blue, Pixel.alpha], ∀ sample, Resampling.Samples r get sample →
        get p = Resampling.resampled r c.width c.height sample x.toNat y.toNat := by
  obtain ⟨hx, hy⟩ := (Canvas.contains_iff _ _ _).mp inside
  rw [fit_eq_resize differs, Resampling.resize_eq_some_iff] at fitted
  obtain ⟨empty, _⟩ | ⟨_, _, rfl⟩ := fitted
  · exact absurd empty (not_or.mpr ⟨columns, rows⟩)
  · exact Resampling.pixel?_mixed columns rows hx hy

theorem levelAt_blank (width height x y : UInt32) : (blank width height).levelAt x y = .transparent := by
  by_cases inside : (blank width height).contains x y = true
  · have place : (blank width height).index x y < width.toNat * height.toNat :=
      (blank width height).size_eq ▸ index_lt inside
    have pixel : (blank width height).pixel? x y = some .clear := by
      rw [pixel?_inside inside]
      exact Array.getElem?_replicate.trans (if_pos place)
    rw [levelAt, pixel]
    rfl
  · exact levelAt_eq_transparent inside

end Raster

namespace PackedMap

variable {r : Raster} {c : Canvas} {m : PackedMap}

theorem ofRaster_eq_error_iff (e : SizeMismatch) :
    ofRaster r c = .error e ↔ ¬ (r.width = c.width ∧ r.height = c.height) ∧ e = ⟨c, r.width, r.height⟩ := by
  unfold ofRaster
  split
  · rename_i size
    simp [size]
  · rename_i differs
    simp [differs, eq_comm]

theorem bytes_of_transparent (packed : ofRaster r c = .ok m) (clear : ∀ x y, r.levelAt x y = .transparent) :
    m.bytes = Array.replicate c.packedLength.toNat 0 := by
  have zero : ∀ k, Group.field 0 k = .transparent := by decide
  obtain ⟨_, canvas, _⟩ := ofRaster_inv packed
  apply eq_of_fields_eq (by rw [m.size_eq, canvas, Array.size_replicate])
  intro i k a b byte other
  obtain ⟨_, rfl⟩ := Array.getElem?_eq_some_iff.mp other
  rw [field_ofRaster packed byte, clear, Array.getElem_replicate, zero]

end PackedMap

end TwoBitAlpha
