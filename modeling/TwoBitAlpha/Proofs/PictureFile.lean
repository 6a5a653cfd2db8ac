import TwoBitAlpha.PictureFile
import TwoBitAlpha.Proofs.Path
import TwoBitAlpha.Proofs.Resampling

/-!
Saving and loading: a raster that is saved as a picture is loaded as it was.
-/

namespace TwoBitAlpha

section
variable {r : Raster} {i : Nat} (within : i < r.width.toNat * r.height.toNat)
include within

theorem Picture.sample_ofRaster {k : Nat} (hk : k < 4) :
    (Picture.ofRaster r).sample i k = (r.pixels.getD i .clear).samples.getD k 0 := by
  have position : i * 4 + k < r.width.toNat * r.height.toNat * 4 := by omega
  have pixel : (i * 4 + k) / 4 = i := by omega
  have field : (i * 4 + k) % 4 = k := by omega
  have saved : r.samples.getD (i * 4 + k) 0 = (r.pixels.getD i .clear).samples.getD k 0 := by
    rw [Array.getD_eq_getD_getElem?, Raster.samples, Array.getElem?_ofFn, dif_pos position]
    simp only [pixel, field, Option.getD_some]
    match k, hk with
    | 0, _ => rfl
    | 1, _ => rfl
    | 2, _ => rfl
    | 3, _ => rfl
  rw [← saved]
  change r.samples.getD (i * 4 + k * 1) 0 = _
  rw [Nat.mul_one]

theorem Picture.pixel_ofRaster : (Picture.ofRaster r).pixel i = r.pixels.getD i .clear := by
  change Pixel.mk ((ofRaster r).sample i 0) ((ofRaster r).sample i 1) ((ofRaster r).sample i 2)
    ((ofRaster r).sample i 3) = _
  rw [sample_ofRaster within (by decide), sample_ofRaster within (by decide),
    sample_ofRaster within (by decide), sample_ofRaster within (by decide)]
  rfl

end

/-- A raster comes back from the picture that it is saved as. -/
theorem Picture.toRaster_ofRaster (r : Raster) : (Picture.ofRaster r).toRaster = r := by
  apply Raster.eq_of_pixels_eq (r := (ofRaster r).toRaster) (s := r) rfl rfl
  apply Array.ext
  · rw [r.size_eq]
    exact (Picture.ofRaster r).toRaster.size_eq
  · intro i _ there
    simp only [toRaster, Array.getElem_ofFn]
    rw [pixel_ofRaster (r.size_eq ▸ there), Array.getD_eq_getD_getElem?, Array.getElem?_eq_getElem there,
      Option.getD_some]

theorem elim_eq_ok_iff {ε α : Type} {o : Option α} {e : ε} {a : α} :
    o.elim (.error e) .ok = (.ok a : Except ε α) ↔ o = some a := by
  cases o with
  | none => simp only [Option.elim_none, reduceCtorEq]
  | some b => simp only [Option.elim_some, Except.ok.injEq, Option.some.injEq]

namespace Raster

variable {jpeg : JpegDecoder} {r : Raster} {c : Canvas}

theorem load_eq_ok_iff {p : Path} {found : Except AccessError Contents} :
    load jpeg p found c = .ok r ↔ ∃ raw, ofFile jpeg p found = .ok raw ∧ raw.fit c = some r := by
  rw [load]
  cases ofFile jpeg p found with
  | error e =>
      constructor
      · intro failed
        cases failed
      · rintro ⟨_, failed, _⟩
        cases failed
  | ok raw =>
      change (raw.fit c).elim (.error LoadError.undefinedWeights) .ok = Except.ok r ↔ _
      rw [elim_eq_ok_iff]
      constructor
      · intro fitted
        exact ⟨raw, rfl, fitted⟩
      · rintro ⟨_, ⟨⟩, fitted⟩
        exact fitted

theorem nonempty_of_ofFile {name : String} {found : Except AccessError Contents}
    (loaded : ofFile jpeg ⟨name⟩ found = .ok r) : name ≠ "" := by
  rintro rfl
  have unknown : PictureFormat.ofPath? ⟨""⟩ = none := by rfl
  cases found with
  | error e =>
      cases e with
      | notFound => cases loaded
      | notDirectory => cases loaded
      | tooLong => cases loaded
      | isDirectory =>
          rw [ofFile, unknown] at loaded
          cases loaded
  | ok contents =>
      rw [ofFile, unknown] at loaded
      cases loaded

end Raster

theorem PictureFormat.ofPath?_png {stem : String} (named : Path.IsName (stem ++ ".png"))
    (nonempty : stem ≠ "") : ofPath? ⟨stem ++ ".png"⟩ = some .png := by
  rw [ofPath?, Path.extension?_png named nonempty, Option.bind_eq_bind, Option.bind_some]
  decide +kernel

/-- A picture is found under each name with the extension of PNG. -/
theorem Raster.ofFile_png {p : Path} (png : PictureFormat.ofPath? p = some .png) (jpeg : JpegDecoder)
    (picture : Picture) : ofFile jpeg p (.ok (.picture picture)) = .ok picture.toRaster := by
  simp only [ofFile, png]
  rfl

end TwoBitAlpha
