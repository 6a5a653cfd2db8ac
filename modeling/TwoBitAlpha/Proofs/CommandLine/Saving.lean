import TwoBitAlpha.Proofs.CommandLine.View
import TwoBitAlpha.Proofs.PictureFile

/-!
What viewing leaves behind.

Everything is decided before the output is touched, except whether its format can take the picture. A view that fails
on that has emptied the output; every other view that fails leaves all files as they were.
-/

namespace TwoBitAlpha.CommandLine

/-- A view that gets as far as its output, of the map `m` with a palette or in white. -/
structure Shows (t : FileTree) (options : ViewOptions) (m : PackedMap) (palette : Option Palette) : Prop where
  map : ∃ contents, t.read options.input = .ok contents ∧
    PackedMap.ofBytes contents.toBytes Canvas.screen = .ok m
  palette : paletteFor t.read options = .ok palette
  spelling : ¬ (viewOutput options).isSame options.input = true
  writable : t.IsWritable (viewOutput options)

/-- A view whose output is a file with something in it, or no file yet, and has the extension of a format that cannot
take the picture. -/
structure Empties (t : FileTree) (options : ViewOptions) : Prop where
  reached : ∃ m palette, Shows t options m palette
  format : ∃ format, PictureFormat.ofPath? (viewOutput options) = some format ∧ format ≠ .png
  filled : t.read (viewOutput options) ≠ .ok (.bytes #[])

/-- The picture that a view of `m` is to show: a palette file goes before the palette of the device, and that before
white. -/
def IsViewOf (t : FileTree) (options : ViewOptions) (m : PackedMap) (r : Raster) : Prop :=
  match options.palette with
  | some file => ∃ palette, Palette.ofFile (t.read file) = .ok palette ∧ r = palette.preview m
  | none => r = if options.device then Palette.device.preview m else m.toRaster

variable {t : FileTree} {options : ViewOptions} {m m' : PackedMap} {palette palette' : Option Palette}

theorem exists_shows {contents : Contents} (there : t.read options.input = .ok contents)
    (size : contents.toBytes.size = Canvas.screen.packedLength.toNat)
    (drawn : paletteFor t.read options = .ok palette)
    (apart : ¬ (viewOutput options).isSame options.input = true) (writable : t.IsWritable (viewOutput options)) :
    ∃ m, Shows t options m palette :=
  ⟨⟨_, _, size⟩, ⟨contents, there, dif_pos size⟩, drawn, apart, writable⟩

theorem Shows.unique (one : Shows t options m palette) (other : Shows t options m' palette') :
    m = m' ∧ palette = palette' := by
  obtain ⟨contents, there, wrapped⟩ := one.map
  obtain ⟨contents', there', wrapped'⟩ := other.map
  rw [there] at there'
  cases there'
  rw [wrapped] at wrapped'
  refine ⟨Except.ok.inj wrapped', ?_⟩
  exact Except.ok.inj (one.palette.symm.trans other.palette)

theorem Shows.size_shown (reached : Shows t options m palette) :
    (shown m palette).width = 320 ∧ (shown m palette).height = 240 := by
  obtain ⟨contents, _, wrapped⟩ := reached.map
  have canvas := (PackedMap.ofBytes_inv wrapped).1
  cases palette with
  | none => exact ⟨congrArg Canvas.width canvas, congrArg Canvas.height canvas⟩
  | some p => exact ⟨congrArg Canvas.width canvas, congrArg Canvas.height canvas⟩

theorem Shows.isViewOf_shown (reached : Shows t options m palette) :
    IsViewOf t options m (shown m palette) := by
  have chosen := reached.palette
  rw [IsViewOf]
  cases given : options.palette with
  | none =>
      simp only [paletteFor, given] at chosen
      cases chosen
      cases options.device with
      | false => rfl
      | true => rfl
  | some file =>
      cases loaded : Palette.ofFile (t.read file) with
      | error e =>
          simp only [paletteFor, given, loaded] at chosen
          cases chosen
      | ok p =>
          simp only [paletteFor, given, loaded] at chosen
          cases chosen
          exact ⟨p, loaded, rfl⟩

/-- A view stops before its output, shows its picture there, or empties it. -/
theorem view_run_cases (jpeg : JpegDecoder) (t : FileTree) (options : ViewOptions) :
    let ran := (Command.view options).run jpeg t
    (ran.1.exitCode ≠ 0 ∧ ran.2 = t ∧
      ∀ m palette, Shows t options m palette → PictureFormat.ofPath? (viewOutput options) = none) ∨
    ∃ m palette, Shows t options m palette ∧
      ((PictureFormat.ofPath? (viewOutput options) = some .png ∧ ran.1.exitCode = 0 ∧
          t.write (viewOutput options) (.picture (Picture.ofRaster (shown m palette))) = .ok ran.2) ∨
        ((∃ format, PictureFormat.ofPath? (viewOutput options) = some format ∧ format ≠ .png) ∧
          ran.1.exitCode ≠ 0 ∧ t.write (viewOutput options) (.bytes #[]) = .ok ran.2)) := by
  intro ran
  rcases (Command.view options).run_exit jpeg t with
    ⟨failed, same, stopped⟩ | ⟨change, drafted, writable, written, well⟩
  · left
    refine ⟨failed, same, ?_⟩
    -- With an extension that is known there would be a draft, and it could be written.
    rintro m palette ⟨⟨contents, there, wrapped⟩, drawn, apart, writable⟩
    rw [← Option.not_isSome_iff_eq_none]
    intro known
    obtain ⟨change, saved⟩ := exists_save known (shown m palette)
    refine stopped change (view_change_eq_ok_iff.mpr ⟨contents, m, palette, there, wrapped, drawn, apart, saved⟩) ?_
    rw [(save_inv saved).2.1]
    exact writable
  · right
    obtain ⟨contents, m, palette, there, wrapped, drawn, apart, saved⟩ := view_change_eq_ok_iff.mp drafted
    obtain ⟨path, ⟨png, picture, told⟩ | ⟨other, blank, untold⟩⟩ := save_cases saved
    · rw [path] at writable written
      rw [picture] at written
      exact ⟨m, palette, ⟨⟨contents, there, wrapped⟩, drawn, apart, writable⟩, .inl ⟨png, well.mpr told, written⟩⟩
    · rw [path] at writable written
      rw [blank] at written
      refine ⟨m, palette, ⟨⟨contents, there, wrapped⟩, drawn, apart, writable⟩, .inr ⟨other, ?_, written⟩⟩
      intro zero
      obtain ⟨entry, told⟩ := well.mp zero
      obtain ⟨e, refused⟩ := untold
      rw [told] at refused
      cases refused

theorem Shows.wroteOnly (reached : Shows t options m palette) (jpeg : JpegDecoder)
    (png : PictureFormat.ofPath? (viewOutput options) = some .png) :
    ((Command.view options).run jpeg t).1.exitCode = 0 ∧
      FileTree.WroteOnly t ((Command.view options).run jpeg t).2 (viewOutput options)
        (.picture (Picture.ofRaster (shown m palette))) := by
  rcases view_run_cases jpeg t options with
    ⟨_, _, stopped⟩ | ⟨m', palette', reached', ⟨_, well, written⟩ | ⟨⟨format, known, other⟩, _, _⟩⟩
  · have unknown := stopped m palette reached
    rw [png] at unknown
    cases unknown
  · obtain ⟨rfl, rfl⟩ := reached.unique reached'
    exact ⟨well, FileTree.wroteOnly_of_write written⟩
  · rw [png] at known
    cases known
    exact absurd rfl other

theorem Empties.wroteOnly (lost : Empties t options) (jpeg : JpegDecoder) :
    ((Command.view options).run jpeg t).1.exitCode ≠ 0 ∧
      FileTree.WroteOnly t ((Command.view options).run jpeg t).2 (viewOutput options) (.bytes #[]) := by
  obtain ⟨⟨m, palette, reached⟩, ⟨format, known, other⟩, _⟩ := lost
  rcases view_run_cases jpeg t options with
    ⟨_, _, stopped⟩ | ⟨_, _, _, ⟨png, _, _⟩ | ⟨_, failed, written⟩⟩
  · have unknown := stopped m palette reached
    rw [known] at unknown
    cases unknown
  · rw [known] at png
    cases png
    exact absurd rfl other
  · exact ⟨failed, FileTree.wroteOnly_of_write written⟩

theorem view_exit_zero_iff (jpeg : JpegDecoder) (t : FileTree) (options : ViewOptions) :
    ((Command.view options).run jpeg t).1.exitCode = 0 ↔
      PictureFormat.ofPath? (viewOutput options) = some .png ∧ ∃ m palette, Shows t options m palette := by
  constructor
  · intro well
    rcases view_run_cases jpeg t options with
      ⟨failed, _, _⟩ | ⟨m, palette, reached, ⟨png, _, _⟩ | ⟨_, failed, _⟩⟩
    · exact absurd well failed
    · exact ⟨png, m, palette, reached⟩
    · exact absurd well failed
  · rintro ⟨png, m, palette, reached⟩
    exact (reached.wroteOnly jpeg png).1

/-- Of the views that fail, those that empty their output are the only ones that change anything. -/
theorem view_failed_iff (jpeg : JpegDecoder) (t : FileTree) (options : ViewOptions)
    (failed : ((Command.view options).run jpeg t).1.exitCode ≠ 0) :
    ((Command.view options).run jpeg t).2 = t ↔ ¬ Empties t options := by
  constructor
  · intro same lost
    have blank := (lost.wroteOnly jpeg).2.read
    rw [same] at blank
    exact lost.filled blank
  · intro kept
    rcases view_run_cases jpeg t options with
      ⟨_, same, _⟩ | ⟨m, palette, reached, ⟨_, well, _⟩ | ⟨format, _, written⟩⟩
    · exact same
    · exact absurd well failed
    · apply Classical.byContradiction
      intro different
      apply kept
      refine ⟨⟨m, palette, reached⟩, format, ?_⟩
      -- An output that was empty before is written as it was.
      intro blank
      exact different (FileTree.write_eq_self written blank)

/-- What a run of either name of the viewing command leaves. It ends well if and only if it gives help or gets its
picture to an output with the extension of PNG; then that file holds the picture, and all else is as it was. A run that
fails leaves everything as it was, unless it gets to an output of a format that cannot take the picture: that file is
empty afterwards. -/
theorem view_leaves (jpeg : JpegDecoder) (t : FileTree) {name : String} (viewing : name = "view" ∨ name = "decode")
    (rest : List String) :
    ((run jpeg (name :: rest) t).1.exitCode = 0 ↔
      Request.ofArguments (name :: rest) = some .help ∨
        ∃ options, Request.ofArguments (name :: rest) = some (.command (.view options)) ∧
          PictureFormat.ofPath? (viewOutput options) = some .png ∧ ∃ m palette, Shows t options m palette) ∧
    ((run jpeg (name :: rest) t).1.exitCode ≠ 0 →
      ((run jpeg (name :: rest) t).2 = t ↔
        ∀ options, Request.ofArguments (name :: rest) = some (.command (.view options)) → ¬ Empties t options)) ∧
    (Request.ofArguments (name :: rest) = some .help → (run jpeg (name :: rest) t).2 = t) ∧
    ∀ options, Request.ofArguments (name :: rest) = some (.command (.view options)) →
      (∀ m palette, Shows t options m palette → PictureFormat.ofPath? (viewOutput options) = some .png →
        ∃ p : Picture, FileTree.WroteOnly t (run jpeg (name :: rest) t).2 (viewOutput options) (.picture p) ∧
          p.width = 320 ∧ p.height = 240 ∧ p.format = .rgba8 ∧ IsViewOf t options m p.toRaster) ∧
      (Empties t options →
        FileTree.WroteOnly t (run jpeg (name :: rest) t).2 (viewOutput options) (.bytes #[])) := by
  rcases ofArguments_view_cases viewing rest with rejected | help | ⟨options, asked⟩
  · simp only [run, rejected]
    refine ⟨?_, ?_, ?_, ?_⟩
    · constructor
      · intro well
        cases well
      · rintro (help | ⟨_, asked, _⟩)
        · cases help
        · cases asked
    · intro _
      refine ⟨fun _ _ asked => ?_, fun _ => trivial⟩
      cases asked
    · intro help
      cases help
    · intro _ asked
      cases asked
  · simp only [run, help]
    refine ⟨⟨fun _ => .inl trivial, fun _ => rfl⟩, ?_, fun _ => trivial, ?_⟩
    · intro failed
      exact absurd rfl failed
    · intro _ asked
      cases asked
  · rw [run_command asked, asked]
    refine ⟨?_, ?_, ?_, ?_⟩
    · constructor
      · intro well
        exact .inr ⟨options, rfl, (view_exit_zero_iff jpeg t options).mp well⟩
      · rintro (help | ⟨_, ⟨⟩, shows⟩)
        · cases help
        · exact (view_exit_zero_iff jpeg t options).mpr shows
    · intro failed
      constructor
      · rintro same _ ⟨⟩
        exact (view_failed_iff jpeg t options failed).mp same
      · intro kept
        exact (view_failed_iff jpeg t options failed).mpr (kept options rfl)
    · intro help
      cases help
    · rintro _ ⟨⟩
      refine ⟨?_, fun lost => (lost.wroteOnly jpeg).2⟩
      intro m palette reached png
      refine ⟨Picture.ofRaster (shown m palette), (reached.wroteOnly jpeg png).2, reached.size_shown.1,
        reached.size_shown.2, rfl, ?_⟩
      rw [Picture.toRaster_ofRaster]
      exact reached.isViewOf_shown

theorem view_saves_beside_map :
    (run noJpeg ["decode", "m", "-d"] (blankMapAt "m")).1.exitCode = 0 ∧
      ∃ m, ∃ p : Picture,
        FileTree.WroteOnly (blankMapAt "m") (run noJpeg ["decode", "m", "-d"] (blankMapAt "m")).2 ⟨"m.png"⟩
            (.picture p) ∧
          p.toRaster = Palette.device.preview m := by
  have asked : Request.ofArguments ["decode", "m", "-d"] =
      some (.command (.view ⟨⟨"m"⟩, none, true, none⟩)) := by rfl
  have png : PictureFormat.ofPath? (viewOutput ⟨⟨"m"⟩, none, true, none⟩) = some .png := by decide +kernel
  have there : (blankMapAt "m").read ⟨"m"⟩ = .ok (.bytes (.replicate 19200 0)) :=
    FileTree.read_eq_ok_iff.mpr ⟨["m"], by rfl, by rfl⟩
  have writable : (blankMapAt "m").IsWritable (viewOutput ⟨⟨"m"⟩, none, true, none⟩) :=
    ⟨["m.png"], by rfl, by decide +kernel⟩
  obtain ⟨m, reached⟩ :
      ∃ m, Shows (blankMapAt "m") ⟨⟨"m"⟩, none, true, none⟩ m (some Palette.device) :=
    exists_shows there Array.size_replicate rfl (by decide +kernel) writable
  obtain ⟨well, _, _, shown⟩ := view_leaves noJpeg (blankMapAt "m") (.inr rfl) ["m", "-d"]
  obtain ⟨p, only, _, _, _, picture⟩ := (shown _ asked).1 m _ reached png
  exact ⟨well.mpr (.inr ⟨_, asked, png, m, _, reached⟩), m, p, only, picture⟩

/-- Two files in a directory: a map of the screen without any coverage, and three bytes. -/
def mapAndOther : FileTree :=
  { blankMapAt "m" with nodes := (["x.gif"], .file (.bytes #[111, 108, 100])) :: (blankMapAt "m").nodes }

/-- A map that is viewed into a file with the extension of another format: the run fails, and what the file held is
gone. -/
theorem view_failing_empties_output :
    mapAndOther.read ⟨"x.gif"⟩ = .ok (.bytes #[111, 108, 100]) ∧
      (run noJpeg ["view", "m", "-o", "x.gif"] mapAndOther).1.exitCode ≠ 0 ∧
      (run noJpeg ["view", "m", "-o", "x.gif"] mapAndOther).2.read ⟨"x.gif"⟩ = .ok (.bytes #[]) := by
  have asked : Request.ofArguments ["view", "m", "-o", "x.gif"] =
      some (.command (.view ⟨⟨"m"⟩, some ⟨"x.gif"⟩, false, none⟩)) := by rfl
  have there : mapAndOther.read ⟨"m"⟩ = .ok (.bytes (.replicate 19200 0)) :=
    FileTree.read_eq_ok_iff.mpr ⟨["m"], by rfl, by rfl⟩
  have held : mapAndOther.read ⟨"x.gif"⟩ = .ok (.bytes #[111, 108, 100]) :=
    FileTree.read_eq_ok_iff.mpr ⟨["x.gif"], by rfl, by rfl⟩
  obtain ⟨m, reached⟩ : ∃ m, Shows mapAndOther ⟨⟨"m"⟩, some ⟨"x.gif"⟩, false, none⟩ m none :=
    exists_shows there Array.size_replicate rfl (by decide +kernel) ⟨["x.gif"], by rfl, by decide +kernel⟩
  have lost : Empties mapAndOther ⟨⟨"m"⟩, some ⟨"x.gif"⟩, false, none⟩ := by
    refine ⟨⟨m, none, reached⟩, ⟨.unread, by decide +kernel, by decide⟩, ?_⟩
    intro blank
    have same : Contents.bytes #[111, 108, 100] = .bytes #[] := Except.ok.inj (held.symm.trans blank)
    exact absurd same (by decide)
  obtain ⟨failed, only⟩ := lost.wroteOnly noJpeg
  simp only [run_command asked]
  exact ⟨held, failed, only.read⟩

end TwoBitAlpha.CommandLine
