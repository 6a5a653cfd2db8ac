import TwoBitAlpha.Proofs.Raster
import TwoBitAlpha.Resampling

/-!
What a resampled picture is made of.

Floating point says where a window would like to lie, and with which weights. Both of its ends are clamped, so that it
is never empty and never leaves the source, whatever the arithmetic gives. So each sample of the result is a weighted
sum of weighted sums of samples of the raster, and what a plane answers beyond its edges plays no part. There is a
result unless some weights are no numbers.
-/

namespace TwoBitAlpha.Resampling

theorem clampInt_between (v : Int) {low high : Int} (h : low ≤ high) :
    low ≤ clampInt v low high ∧ clampInt v low high ≤ high := by
  unfold clampInt
  split
  · omega
  · split
    · omega
    · omega

/-- A window that has samples, all of them among `n`. -/
structure Window.Within (w : Window) (n : Nat) : Prop where
  nonempty : 0 < w.weights.size
  last_le : w.first + w.weights.size ≤ n

theorem window_within {n : Nat} (h : 0 < n) (m o : Nat) : (window n m o).Within n := by
  unfold window
  extract_lets ratio scale support center left right middle first raw sum
  have lefts : 0 ≤ left ∧ left ≤ n - 1 := clampInt_between _ (by omega)
  have rights : left + 1 ≤ right ∧ right ≤ n := clampInt_between _ (by omega)
  have size : (raw.map (· / sum)).size = (right - left).toNat := by
    rw [Array.size_map, Array.size_map, Array.size_range]
  constructor
  · change 0 < (raw.map (· / sum)).size
    omega
  · change left.toNat + (raw.map (· / sum)).size ≤ n
    omega

/-- A weighted sum takes in one more sample: the sum so far, beside the position of the next sample. -/
def addSample (sample : Nat → Float32) (acc : Float32 × Nat) (weight : Float32) : Float32 × Nat :=
  (acc.1 + sample acc.2 * weight, acc.2 + 1)

theorem Window.mix_eq (w : Window) (sample : Nat → Float32) :
    w.mix sample = (w.weights.toList.foldl (addSample sample) (0, w.first)).1 := by
  rw [Array.foldl_toList]
  rfl

section
variable {n : Nat} {f g : Nat → Float32} (same : ∀ i < n, f i = g i)
include same

theorem foldl_addSample_congr (weights : List Float32) {sum : Float32} {i : Nat} (fits : i + weights.length ≤ n) :
    weights.foldl (addSample f) (sum, i) = weights.foldl (addSample g) (sum, i) := by
  induction weights generalizing sum i with
  | nil => rw [List.foldl_nil, List.foldl_nil]
  | cons weight rest ih =>
      rw [List.length_cons] at fits
      have next : addSample f (sum, i) weight = addSample g (sum, i) weight := by
        simp only [addSample, same i (by omega)]
      rw [List.foldl_cons, List.foldl_cons, next]
      exact ih (by omega)

theorem Window.Within.mix_congr {w : Window} (within : w.Within n) : w.mix f = w.mix g := by
  rw [Window.mix_eq, Window.mix_eq, foldl_addSample_congr same _ within.last_le]

end

theorem windowsDefined_iff {n m k : Nat} :
    windowsDefined n m k = true ↔ ∀ o < k, (window n m o).isDefined = true := by
  induction k with
  | zero => exact ⟨fun _ _ below => absurd below (Nat.not_lt_zero _), fun _ => rfl⟩
  | succ k ih =>
      rw [windowsDefined, Bool.and_eq_true, ih]
      constructor
      · rintro ⟨last, before⟩ o below
        obtain earlier | rfl := Nat.lt_succ_iff_lt_or_eq.mp below
        · exact before o earlier
        · exact last
      · intro every
        exact ⟨every k (Nat.lt_succ_self k), fun o below => every o (Nat.lt_succ_of_lt below)⟩

namespace Plane

theorem value_ofFn {width height x y : Nat} (f : Nat → Nat → Float32) (hx : x < width) (hy : y < height) :
    (ofFn width height f).value x y = f x y := by
  have place : y * width + x < width * height := by
    rw [Nat.mul_comm width]
    exact row_position_lt hy hx
  simp only [value, ofFn, Array.getD_eq_getD_getElem?, Array.getElem?_ofFn, dif_pos place, Option.getD_some]
  rw [row_position_mod hx, row_position_div hx]

theorem getD_windows {n m o : Nat} (h : o < m) (w : Window) : (windows n m).getD o w = window n m o := by
  simp only [windows, Array.getD_eq_getD_getElem?, Array.getElem?_map, Array.getElem?_range, if_pos h,
    Option.map_some, Option.getD_some]

theorem value_resampleRows (p : Plane) (n : Nat) {m x y : Nat} (hx : x < p.width) (hy : y < m) :
    (p.resampleRows n m).value x y = (window n m y).mix fun i => p.value x i := by
  rw [resampleRows, value_ofFn _ hx hy, getD_windows hy]

theorem value_resampleColumns (p : Plane) (n : Nat) {height m x y : Nat} (hx : x < m) (hy : y < height) :
    (p.resampleColumns height n m).value x y = (window n m x).mix fun i => p.value i y := by
  rw [resampleColumns, value_ofFn _ hx hy, getD_windows hx]

theorem value_ofRaster {r : Raster} {get : Pixel → UInt8} {x y : UInt32} {p : Pixel}
    (pixel : r.pixel? x y = some p) : (ofRaster r get).value x.toNat y.toNat = (get p).toFloat32 := by
  have inside := (r.exists_pixel?_iff x y).mp ⟨p, pixel⟩
  rw [Raster.pixel?_inside inside] at pixel
  change ((r.pixels.map fun p => (get p).toFloat32).getD (r.index x y) 0) = _
  rw [Array.getD_eq_getD_getElem?, Array.getElem?_map, pixel, Option.map_some, Option.getD_some]

end Plane

/-- A function that gives the samples of a channel at the pixels of a raster, and anything elsewhere. -/
def Samples (r : Raster) (get : Pixel → UInt8) (sample : Nat → Nat → Float32) : Prop :=
  ∀ x y p, r.pixel? x y = some p → sample x.toNat y.toNat = (get p).toFloat32

section
variable {r : Raster} {get : Pixel → UInt8} {sample : Nat → Nat → Float32} (sampled : Samples r get sample)
include sampled

theorem Samples.value_eq {x y : Nat} (hx : x < r.width.toNat) (hy : y < r.height.toNat) :
    (Plane.ofRaster r get).value x y = sample x y := by
  have column : (UInt32.ofNat x).toNat = x := toNat_ofNat_of_lt_toNat hx
  have row : (UInt32.ofNat y).toNat = y := toNat_ofNat_of_lt_toNat hy
  have inside : r.contains (.ofNat x) (.ofNat y) = true := by
    rw [Raster.contains_iff, column, row]
    exact ⟨hx, hy⟩
  obtain ⟨p, pixel⟩ := (r.exists_pixel?_iff _ _).mpr inside
  rw [← column, ← row, Plane.value_ofRaster pixel, sampled _ _ _ pixel]

/-- Rows are mixed first and columns afterwards, from samples of the raster alone. -/
theorem Samples.value_channel (columns : 0 < r.width.toNat) (rows : 0 < r.height.toNat) {width height : UInt32}
    {x y : Nat} (hx : x < width.toNat) (hy : y < height.toNat) :
    (channel r width height get).value x y =
      (window r.width.toNat width.toNat x).mix fun i =>
        (window r.height.toNat height.toNat y).mix fun j => sample i j := by
  rw [channel, Plane.value_resampleColumns _ _ hx hy]
  refine Window.Within.mix_congr ?_ (window_within columns width.toNat x)
  intro i hi
  rw [Plane.value_resampleRows _ _ hi hy]
  refine Window.Within.mix_congr ?_ (window_within rows height.toNat y)
  intro j hj
  exact sampled.value_eq hi hj

end

/-- One sample of a resampled raster, from a function that gives the samples of the raster. -/
def resampled (r : Raster) (width height : UInt32) (sample : Nat → Nat → Float32) (x y : Nat) : UInt8 :=
  quantize ((window r.width.toNat width.toNat x).mix fun i =>
    (window r.height.toNat height.toNat y).mix fun j => sample i j)

theorem pixel?_mixed {r : Raster} (columns : r.width ≠ 0) (rows : r.height ≠ 0) {width height x y : UInt32}
    (hx : x.toNat < width.toNat) (hy : y.toNat < height.toNat) :
    ∃ p, (mixed r width height).pixel? x y = some p ∧
      ∀ get ∈ [Pixel.red, Pixel.green, Pixel.blue, Pixel.alpha], ∀ sample, Samples r get sample →
        get p = resampled r width height sample x.toNat y.toNat := by
  have columns_pos := UInt32.lt_iff_toNat_lt.mp (UInt32.pos_iff_ne_zero.mpr columns)
  have rows_pos := UInt32.lt_iff_toNat_lt.mp (UInt32.pos_iff_ne_zero.mpr rows)
  have channels : ∀ get sample, Samples r get sample →
      quantize ((channel r width height get).value x.toNat y.toNat) =
        resampled r width height sample x.toNat y.toNat := by
    intro get sample sampled
    rw [sampled.value_channel columns_pos rows_pos hx hy, resampled]
  rw [mixed, Raster.pixel?_ofFn _ ((Raster.contains_iff _ _ _).mpr ⟨hx, hy⟩)]
  refine ⟨_, rfl, ?_⟩
  intro get member sample sampled
  rw [← channels get sample sampled]
  simp only [List.mem_cons, List.not_mem_nil, or_false] at member
  obtain rfl | rfl | rfl | rfl := member
  · rfl
  · rfl
  · rfl
  · rfl

section
variable {r s : Raster} {width height : UInt32}

theorem canResize_iff : canResize r width height = true ↔
    (∀ o < height.toNat, (window r.height.toNat height.toNat o).isDefined = true) ∧
      ∀ o < width.toNat, (window r.width.toNat width.toNat o).isDefined = true := by
  rw [canResize, Bool.and_eq_true, windowsDefined_iff, windowsDefined_iff]

theorem resize_eq_some_iff : resize r width height = some s ↔
    ((r.width = 0 ∨ r.height = 0) ∧ Raster.blank width height = s) ∨
      ¬ (r.width = 0 ∨ r.height = 0) ∧ canResize r width height = true ∧ mixed r width height = s := by
  rw [resize]
  split
  · rename_i empty
    simp only [empty, true_and, not_true_eq_false, false_and, or_false, Option.some.injEq]
  · rename_i pixels
    simp only [pixels, not_false_eq_true, true_and, false_and, false_or, Option.ite_none_right_eq_some,
      Option.some.injEq]

theorem size_resize (resized : resize r width height = some s) : s.width = width ∧ s.height = height := by
  obtain ⟨_, rfl⟩ | ⟨_, _, rfl⟩ := resize_eq_some_iff.mp resized
  · exact ⟨rfl, rfl⟩
  · exact ⟨rfl, rfl⟩

theorem exists_resize_iff : (∃ s, resize r width height = some s) ↔
    (r.width = 0 ∨ r.height = 0) ∨ canResize r width height = true := by
  rw [resize]
  split
  · rename_i empty
    exact ⟨fun _ => .inl empty, fun _ => ⟨_, rfl⟩⟩
  · rename_i pixels
    simp only [pixels, false_or, Option.ite_none_right_eq_some, Option.some.injEq, exists_and_left, exists_eq',
      and_true]

end

end TwoBitAlpha.Resampling

namespace TwoBitAlpha.Raster

open Resampling

variable {r s : Raster} {c : Canvas}

theorem hasSizeOf_iff : r.hasSizeOf c = true ↔ r.width = c.width ∧ r.height = c.height := by
  rw [hasSizeOf, Bool.and_eq_true, beq_iff_eq, beq_iff_eq]

theorem fit_eq_self (size : r.width = c.width ∧ r.height = c.height) : r.fit c = some r := by
  rw [fit, if_pos (hasSizeOf_iff.mpr size)]

theorem fit_eq_resize (differs : ¬ (r.width = c.width ∧ r.height = c.height)) :
    r.fit c = resize r c.width c.height := by
  rw [fit, if_neg (mt hasSizeOf_iff.mp differs)]

theorem size_fit (fitted : r.fit c = some s) : s.width = c.width ∧ s.height = c.height := by
  by_cases size : r.width = c.width ∧ r.height = c.height
  · rw [fit_eq_self size] at fitted
    cases fitted
    exact size
  · rw [fit_eq_resize size] at fitted
    exact size_resize fitted

/-- A raster that can be brought to the size of a canvas: it has the size, has no pixels at all, or no window on the
way has lost its weights. Only sizes matter. -/
def CanFit (r : Raster) (c : Canvas) : Prop :=
  (r.width = c.width ∧ r.height = c.height) ∨ (r.width = 0 ∨ r.height = 0) ∨
    (∀ o < c.height.toNat, (window r.height.toNat c.height.toNat o).isDefined = true) ∧
      ∀ o < c.width.toNat, (window r.width.toNat c.width.toNat o).isDefined = true

theorem exists_fit_iff (r : Raster) (c : Canvas) : (∃ s, r.fit c = some s) ↔ r.CanFit c := by
  rw [CanFit, ← canResize_iff]
  by_cases size : r.width = c.width ∧ r.height = c.height
  · rw [fit_eq_self size]
    exact ⟨fun _ => .inl size, fun _ => ⟨r, rfl⟩⟩
  · rw [fit_eq_resize size, exists_resize_iff, or_iff_right size]

theorem fit_eq_none_iff (r : Raster) (c : Canvas) : r.fit c = none ↔ ¬ r.CanFit c := by
  rw [← exists_fit_iff, Option.eq_none_iff_forall_ne_some, not_exists]

end TwoBitAlpha.Raster
