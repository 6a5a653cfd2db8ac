import TwoBitAlpha.CommandLine.Program
import TwoBitAlpha.Proofs.FileTree
import TwoBitAlpha.Proofs.PackedMap.Packing
import TwoBitAlpha.Proofs.PictureFile

/-!
What a command does to a tree of files: nothing, or one write that its draft asks for.
-/

namespace TwoBitAlpha.CommandLine

variable {jpeg : JpegDecoder} {t changed : FileTree} {read : Reader} {options : ViewOptions} {change : FileChange}
  {r fitted : Raster} {output : Path}

theorem Command.run_written {c : Command} (drafted : (c.draft jpeg t.read).change = .ok change)
    (written : t.write change.path change.contents = .ok changed) :
    c.run jpeg t = ((c.draft jpeg t.read).report true, changed) := by
  simp only [run, drafted, written]

theorem Command.run_cases (c : Command) (jpeg : JpegDecoder) (t : FileTree) :
    (c.run jpeg t).2 = t ∨ ∃ change, (c.draft jpeg t.read).change = .ok change ∧
      t.write change.path change.contents = .ok (c.run jpeg t).2 := by
  cases drafted : (c.draft jpeg t.read).change with
  | error e =>
      left
      simp only [run, drafted]
  | ok change =>
      cases written : t.write change.path change.contents with
      | error e =>
          left
          simp only [run, drafted, written]
      | ok changed =>
          right
          refine ⟨change, rfl, ?_⟩
          rw [run_written drafted written, written]

theorem Failure.exitCode_ne_zero (e : Failure) : e.exitCode ≠ 0 := by
  unfold exitCode
  split
  · decide
  · decide
  · decide

/-- A run stops before it has written, or with the write that its draft asks for. It ends well only after a write, and
then if the draft says so. -/
theorem Command.run_exit (c : Command) (jpeg : JpegDecoder) (t : FileTree) :
    ((c.run jpeg t).1.exitCode ≠ 0 ∧ (c.run jpeg t).2 = t ∧
      ∀ change, (c.draft jpeg t.read).change = .ok change → ¬ t.IsWritable change.path) ∨
    ∃ change, (c.draft jpeg t.read).change = .ok change ∧ t.IsWritable change.path ∧
      t.write change.path change.contents = .ok (c.run jpeg t).2 ∧
      ((c.run jpeg t).1.exitCode = 0 ↔ ∃ entry, change.written = .ok entry) := by
  cases drafted : (c.draft jpeg t.read).change with
  | error e =>
      have ran : c.run jpeg t = (⟨(c.draft jpeg t.read).log, some e⟩, t) := by
        simp only [run, drafted, Draft.report]
      rw [ran]
      left
      refine ⟨e.exitCode_ne_zero, rfl, ?_⟩
      intro change failed
      cases failed
  | ok change =>
      cases written : t.write change.path change.contents with
      | error e =>
          have ran : c.run jpeg t = (⟨(c.draft jpeg t.read).log, some change.refused⟩, t) := by
            simp only [run, drafted, written, Draft.report, Bool.false_eq_true, if_false]
          rw [ran]
          left
          refine ⟨change.refused.exitCode_ne_zero, rfl, ?_⟩
          rintro _ ⟨⟩ writable
          obtain ⟨changed, done⟩ := (t.isWritable_iff change.path change.contents).mp writable
          rw [written] at done
          cases done
      | ok changed =>
          rw [run_written drafted written]
          right
          refine ⟨change, rfl, (t.isWritable_iff _ _).mpr ⟨changed, written⟩, written, ?_⟩
          simp only [Draft.report, drafted, if_true]
          cases change.written with
          | error e =>
              constructor
              · intro well
                exact absurd well e.exitCode_ne_zero
              · rintro ⟨_, told⟩
                cases told
          | ok entry => exact ⟨fun _ => ⟨entry, rfl⟩, fun _ => rfl⟩

theorem run_command {arguments : List String} {c : Command}
    (asked : Request.ofArguments arguments = some (.command c)) (jpeg : JpegDecoder) (t : FileTree) :
    run jpeg arguments t = (.finished (c.run jpeg t).1, (c.run jpeg t).2) := by
  simp only [run, asked]

theorem save_cases (saved : save r output = .ok change) :
    change.path = output ∧
      ((PictureFormat.ofPath? output = some .png ∧ change.contents = .picture (Picture.ofRaster r) ∧
          ∃ entry, change.written = .ok entry) ∨
        ((∃ format, PictureFormat.ofPath? output = some format ∧ format ≠ .png) ∧
          change.contents = .bytes #[] ∧ ∃ e, change.written = .error e)) := by
  rw [save] at saved
  split at saved
  · cases saved
  · rename_i png
    cases saved
    exact ⟨rfl, .inl ⟨png, rfl, _, rfl⟩⟩
  · rename_i format other known
    cases saved
    exact ⟨rfl, .inr ⟨⟨format, known, other⟩, rfl, _, rfl⟩⟩

theorem save_inv (saved : save r output = .ok change) :
    (PictureFormat.ofPath? output).isSome = true ∧ change.path = output ∧
      (change.contents = .picture (Picture.ofRaster r) ∨ change.contents = .bytes #[]) := by
  obtain ⟨path, ⟨png, picture, _⟩ | ⟨⟨format, known, _⟩, blank, _⟩⟩ := save_cases saved
  · exact ⟨by rw [png]; rfl, path, .inl picture⟩
  · exact ⟨by rw [known]; rfl, path, .inr blank⟩

theorem exists_save (known : (PictureFormat.ofPath? output).isSome = true) (r : Raster) :
    ∃ change, save r output = .ok change := by
  rw [save]
  split
  · rename_i unknown
    rw [unknown] at known
    cases known
  · exact ⟨_, rfl⟩
  · exact ⟨_, rfl⟩

/-- A view gets as far as writing if its input is a map, the palette is there, and the output is not spelled like the
input and has the extension of a picture. -/
theorem view_change_eq_ok_iff :
    (view read options).change = .ok change ↔
      ∃ contents m palette, read options.input = .ok contents ∧
        PackedMap.ofBytes contents.toBytes Canvas.screen = .ok m ∧
        paletteFor read options = .ok palette ∧
        ¬ (viewOutput options).isSame options.input = true ∧
        save (shown m palette) (viewOutput options) = .ok change := by
  rw [view]
  cases read options.input with
  | error e =>
      constructor
      · intro refused
        cases refused
      · rintro ⟨_, _, _, refused, _⟩
        cases refused
  | ok contents =>
      simp only
      cases wrapped : PackedMap.ofBytes contents.toBytes Canvas.screen with
      | error e =>
          constructor
          · intro refused
            cases refused
          · rintro ⟨_, _, _, ⟨⟩, refused, _⟩
            rw [wrapped] at refused
            cases refused
      | ok m =>
          simp only
          cases palette : paletteFor read options with
          | error e =>
              constructor
              · intro refused
                cases refused
              · rintro ⟨_, _, _, _, _, refused, _⟩
                cases refused
          | ok p =>
              simp only
              split
              · rename_i same
                constructor
                · intro refused
                  cases refused
                · rintro ⟨_, _, _, _, _, _, apart, _⟩
                  exact absurd same apart
              · rename_i apart
                constructor
                · intro saved
                  exact ⟨contents, m, p, rfl, wrapped, rfl, apart, saved⟩
                · rintro ⟨_, _, _, ⟨⟩, wrapped', ⟨⟩, _, saved⟩
                  rw [wrapped] at wrapped'
                  cases wrapped'
                  exact saved

section
variable {options : EncodeOptions} {m : PackedMap}

/-- An encoding that has a name for its array, where it needs one, and its picture gets as far as writing: a raster at
the size of the screen can be packed. -/
theorem encode_eq (named : options.format = .cArray → CArray.isIdentifier options.symbol = true)
    (found : Raster.ofFile jpeg options.input (read options.input) = .ok r)
    (screened : r.fit Canvas.screen = some fitted)
    (packed : PackedMap.ofRaster fitted Canvas.screen = .ok m) :
    encode jpeg read options = ⟨loadLog options.input r Canvas.screen, .ok {
      path := options.output
      contents := encodedContents m options
      refused :=
        match options.format with
        | .raw => .write options.output
        | .cArray => .create options.output
      written := .ok (info
        s!"Wrote {m.length} bytes to '{options.output.text}' with CRC: {checksumText m}") }⟩ := by
  cases format : options.format with
  | raw => simp only [encode, format, found, screened, packed, reduceCtorEq, false_and, if_false]
  | cArray =>
      simp only [encode, format, named format, found, screened, packed, Bool.not_true, Bool.false_eq_true, and_false,
        if_false]

theorem exists_packed {p : Path} {found : Except AccessError Contents} {c : Canvas}
    (loaded : Raster.load jpeg p found c = .ok r) : ∃ m, PackedMap.ofRaster r c = .ok m := by
  obtain ⟨raw, _, fitted⟩ := Raster.load_eq_ok_iff.mp loaded
  exact PackedMap.ofRaster_eq_ok (Raster.size_fit fitted)

theorem exists_encode (named : options.format = .cArray → CArray.isIdentifier options.symbol = true)
    (loaded : Raster.load jpeg options.input (read options.input) Canvas.screen = .ok r) :
    ∃ change, (encode jpeg read options).change = .ok change := by
  obtain ⟨m, packed⟩ := exists_packed loaded
  obtain ⟨raw, found, screened⟩ := Raster.load_eq_ok_iff.mp loaded
  rw [encode_eq named found screened packed]
  exact ⟨_, rfl⟩

theorem encode_inv (drafted : (encode jpeg read options).change = .ok change) :
    (options.format = .cArray → CArray.isIdentifier options.symbol = true) ∧
      ∃ r m, Raster.load jpeg options.input (read options.input) Canvas.screen = .ok r ∧
        PackedMap.ofRaster r Canvas.screen = .ok m ∧ change.path = options.output ∧
        change.contents = encodedContents m options ∧ ∃ entry, change.written = .ok entry := by
  have named : options.format = .cArray → CArray.isIdentifier options.symbol = true := by
    intro array
    cases valid : CArray.isIdentifier options.symbol with
    | true => rfl
    | false =>
        have refused : options.format = .cArray ∧ (!CArray.isIdentifier options.symbol) = true :=
          ⟨array, by rw [valid]; rfl⟩
        rw [encode, if_pos refused] at drafted
        cases drafted
  refine ⟨named, ?_⟩
  cases found : Raster.ofFile jpeg options.input (read options.input) with
  | error e =>
      simp only [encode, found] at drafted
      split at drafted
      · cases drafted
      · cases e <;> cases drafted
  | ok raw =>
      cases screened : raw.fit Canvas.screen with
      | none =>
          simp only [encode, found, screened] at drafted
          split at drafted
          · cases drafted
          · cases drafted
      | some fitted =>
          obtain ⟨m, packed⟩ := PackedMap.ofRaster_eq_ok (Raster.size_fit screened)
          rw [encode_eq named found screened packed] at drafted
          cases drafted
          exact ⟨fitted, m, Raster.load_eq_ok_iff.mpr ⟨raw, found, screened⟩, packed, rfl, rfl, _, rfl⟩

section
variable (raw : options.format = .raw)
include raw

theorem encode_raw (found : Raster.ofFile jpeg options.input (read options.input) = .ok r)
    (screened : r.fit Canvas.screen = some fitted)
    (packed : PackedMap.ofRaster fitted Canvas.screen = .ok m) :
    encode jpeg read options = ⟨loadLog options.input r Canvas.screen, .ok {
      path := options.output
      contents := .bytes m.bytes
      refused := .write options.output
      written := .ok (info
        s!"Wrote {m.length} bytes to '{options.output.text}' with CRC: {checksumText m}") }⟩ := by
  have unnamed : options.format = .cArray → CArray.isIdentifier options.symbol = true := by
    rw [raw]
    intro array
    cases array
  simp only [encode_eq unnamed found screened packed, encodedContents, raw]

variable (found : Raster.ofFile jpeg options.input (t.read options.input) = .ok r)
  (screened : r.fit Canvas.screen = some fitted)
  (packed : PackedMap.ofRaster fitted Canvas.screen = .ok m)
include found screened packed

theorem run_encode_written (written : t.write options.output (.bytes m.bytes) = .ok changed) :
    (Command.encode options).run jpeg t =
      (⟨loadLog options.input r Canvas.screen ++
          [info s!"Wrote {m.length} bytes to '{options.output.text}' with CRC: {checksumText m}"], none⟩,
        changed) := by
  simp only [Command.run, Command.draft, encode_raw raw found screened packed, written, Draft.report, if_true]

theorem run_encode_refused {e : AccessError}
    (refused : t.write options.output (.bytes m.bytes) = .error e) :
    (Command.encode options).run jpeg t =
      (⟨loadLog options.input r Canvas.screen, some (.write options.output)⟩, t) := by
  simp only [Command.run, Command.draft, encode_raw raw found screened packed, refused, Draft.report,
    Bool.false_eq_true, if_false]

end

end

/-- A view in full that has its map and its palette and can save in PNG. -/
theorem run_view_png {contents : Contents} {m : PackedMap} {palette : Option Palette}
    (there : t.read options.input = .ok contents)
    (wrapped : PackedMap.ofBytes contents.toBytes Canvas.screen = .ok m)
    (drawn : paletteFor t.read options = .ok palette)
    (apart : ¬ (viewOutput options).isSame options.input = true)
    (png : PictureFormat.ofPath? (viewOutput options) = some .png)
    (written : t.write (viewOutput options) (.picture (Picture.ofRaster (shown m palette))) = .ok changed) :
    (Command.view options).run jpeg t =
      (⟨(info s!"Loaded map '{options.input.text}' with CRC: {checksumText m}" ::
            palette.toList.map fun p => info s!"Rendering with palette '{p.name}'") ++
          [info s!"Saved decoded map to '{(viewOutput options).text}'"], none⟩, changed) := by
  simp only [Command.run, Command.draft, view, there, wrapped, drawn, if_neg apart, save, png, written,
    Draft.report, if_true]

end TwoBitAlpha.CommandLine
