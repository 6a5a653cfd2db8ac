import TwoBitAlpha.Raster
import TwoBitAlpha.Proofs.RowWrite

/-!
A raster is its size and its pixels, and its pixels are found in scan order.
-/

namespace TwoBitAlpha.Raster

theorem contains_iff (r : Raster) (x y : UInt32) :
    r.contains x y = true ↔ x.toNat < r.width.toNat ∧ y.toNat < r.height.toNat := by
  simp only [contains, Bool.and_eq_true, decide_eq_true_eq, UInt32.lt_iff_toNat_lt]

theorem pixel?_inside {r : Raster} {x y : UInt32} (inside : r.contains x y = true) :
    r.pixel? x y = r.pixels[r.index x y]? := by
  rw [pixel?, dif_pos inside, Array.getElem?_eq_getElem (index_lt inside)]

theorem pixel?_outside {r : Raster} {x y : UInt32} (outside : ¬ r.contains x y = true) :
    r.pixel? x y = none := by
  rw [pixel?, dif_neg outside]

theorem pixel?_eq_none_iff (r : Raster) (x y : UInt32) :
    r.pixel? x y = none ↔ ¬ r.contains x y = true := by
  constructor
  · intro missing inside
    rw [pixel?, dif_pos inside] at missing
    cases missing
  · exact pixel?_outside

theorem exists_pixel?_iff (r : Raster) (x y : UInt32) : (∃ p, r.pixel? x y = some p) ↔ r.contains x y = true := by
  rw [← Option.ne_none_iff_exists', Ne, pixel?_eq_none_iff, Decidable.not_not]

theorem pixel?_congr {r s : Raster} {x y u v : UInt32} (within : r.contains x y = true ↔ s.contains u v = true)
    (entry : r.contains x y = true → r.pixels[r.index x y]? = s.pixels[s.index u v]?) :
    r.pixel? x y = s.pixel? u v := by
  by_cases inside : r.contains x y = true
  · rw [pixel?_inside inside, pixel?_inside (within.mp inside), entry inside]
  · rw [pixel?_outside inside, pixel?_outside (mt within.mpr inside)]

/-- Every position of the scan order is that of a pixel. -/
theorem exists_position_eq {width height : UInt32} {i : Nat} (h : i < width.toNat * height.toNat) :
    ∃ x y : UInt32, (x.toNat < width.toNat ∧ y.toNat < height.toNat) ∧
      y.toNat * width.toNat + x.toNat = i := by
  have width_pos : 0 < width.toNat := Nat.pos_of_mul_pos_right (Nat.zero_lt_of_lt h)
  have column_lt : i % width.toNat < width.toNat := Nat.mod_lt _ width_pos
  have row_lt : i / width.toNat < height.toNat := Nat.div_lt_of_lt_mul h
  have column : (UInt32.ofNat (i % width.toNat)).toNat = i % width.toNat :=
    toNat_ofNat_of_lt_toNat column_lt
  have row : (UInt32.ofNat (i / width.toNat)).toNat = i / width.toNat :=
    toNat_ofNat_of_lt_toNat row_lt
  refine ⟨.ofNat (i % width.toNat), .ofNat (i / width.toNat), ?_, ?_⟩
  · rw [column, row]
    exact ⟨column_lt, row_lt⟩
  · rw [column, row, Nat.div_add_mod']

theorem position_injective {width : Nat} {x y u v : UInt32} (hx : x.toNat < width) (hu : u.toNat < width)
    (same : y.toNat * width + x.toNat = v.toNat * width + u.toNat) : x = u ∧ y = v := by
  refine ⟨UInt32.toNat_inj.mp ?_, UInt32.toNat_inj.mp ?_⟩
  · rw [← row_position_mod (y := y.toNat) hx, same, row_position_mod hu]
  · rw [← row_position_div (y := y.toNat) hx, same, row_position_div hu]

theorem eq_of_pixels_eq {r s : Raster} (width : r.width = s.width) (height : r.height = s.height)
    (pixels : r.pixels = s.pixels) : r = s := by
  cases r
  cases s
  cases width
  cases height
  cases pixels
  rfl

/-- Buffers that hold one entry for each pixel are equal if they agree at every pixel. -/
theorem ext_position {α : Type} {width height : UInt32} {a b : Array α}
    (ha : a.size = width.toNat * height.toNat) (hb : b.size = width.toNat * height.toNat)
    (entry : ∀ x y : UInt32, x.toNat < width.toNat → y.toNat < height.toNat →
      a[y.toNat * width.toNat + x.toNat]? = b[y.toNat * width.toNat + x.toNat]?) : a = b := by
  apply Array.ext_getElem?
  intro i
  by_cases within : i < width.toNat * height.toNat
  · obtain ⟨x, y, ⟨hx, hy⟩, rfl⟩ := exists_position_eq within
    exact entry x y hx hy
  · rw [Array.getElem?_eq_none (by omega), Array.getElem?_eq_none (by omega)]

/-- Rasters of one size with the same pixel everywhere are equal. -/
theorem ext_pixel? {r s : Raster} (width : r.width = s.width) (height : r.height = s.height)
    (pixel : ∀ x y, r.pixel? x y = s.pixel? x y) : r = s := by
  apply eq_of_pixels_eq width height
  apply ext_position r.size_eq (by rw [s.size_eq, width, height])
  intro x y hx hy
  have inside := (contains_iff r x y).mpr ⟨hx, hy⟩
  have also : s.contains x y = true := by rwa [contains, ← width, ← height]
  have same := pixel x y
  rwa [pixel?_inside inside, pixel?_inside also, index, index, ← width] at same

theorem pixel?_ofFn {width height x y : UInt32} (f : Nat → Nat → Pixel)
    (inside : (ofFn width height f).contains x y = true) :
    (ofFn width height f).pixel? x y = some (f x.toNat y.toNat) := by
  have column_lt : x.toNat < width.toNat := ((contains_iff _ _ _).mp inside).1
  rw [pixel?, dif_pos inside]
  simp only [ofFn, index, Array.getElem_ofFn]
  rw [row_position_mod column_lt, row_position_div column_lt]

theorem pixel?_setPixel {r : Raster} {x y : UInt32} (inside : r.contains x y = true) (p : Pixel) (u v : UInt32) :
    (r.setPixel x y p).pixel? u v = if u = x ∧ v = y then some p else r.pixel? u v := by
  by_cases also : r.contains u v = true
  · have within : (r.setPixel x y p).contains u v = true := also
    have pixels : (r.setPixel x y p).pixels = r.pixels.setIfInBounds (r.index x y) p := if_pos inside
    have place : (r.setPixel x y p).index u v = r.index u v := rfl
    rw [pixel?_inside within, pixel?_inside also, pixels, place]
    by_cases here : u = x ∧ v = y
    · obtain ⟨rfl, rfl⟩ := here
      rw [if_pos ⟨rfl, rfl⟩, Array.getElem?_setIfInBounds_self, if_pos (index_lt inside)]
    · rw [if_neg here, Array.getElem?_setIfInBounds_ne]
      intro same
      obtain ⟨rfl, rfl⟩ := position_injective ((contains_iff r x y).mp inside).1 ((contains_iff r u v).mp also).1 same
      exact here ⟨rfl, rfl⟩
  · have beyond : ¬ (r.setPixel x y p).contains u v = true := also
    rw [pixel?_outside beyond, pixel?_outside also, if_neg]
    rintro ⟨rfl, rfl⟩
    exact also inside

end TwoBitAlpha.Raster
