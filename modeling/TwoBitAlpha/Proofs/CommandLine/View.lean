import TwoBitAlpha.Proofs.CommandLine.Draft
import TwoBitAlpha.Proofs.CommandLine.Request
import TwoBitAlpha.Proofs.PackedMap.Access
import TwoBitAlpha.Proofs.Png.Layout

/-!
What viewing does to the map that is viewed.

Viewing refuses an output that is spelled like its input. Two spellings can still lead to one place, and then the
picture takes the place of the map: `view_keeps_input_iff` says exactly when.
-/

namespace TwoBitAlpha.CommandLine

/-- The view goes through, and its output is another spelling of the place of its input. -/
structure Overwrites (t : FileTree) (options : ViewOptions) : Prop where
  map : ∃ contents, t.read options.input = .ok contents ∧
    contents.toBytes.size = Canvas.screen.packedLength.toNat
  palette : ∃ palette, paletteFor t.read options = .ok palette
  spelling : ¬ (viewOutput options).isSame options.input = true
  format : (PictureFormat.ofPath? (viewOutput options)).isSome = true
  place : t.locate (viewOutput options) = t.locate options.input

variable {t changed : FileTree} {options : ViewOptions} {change : FileChange}

theorem size_shown (m : PackedMap) (palette : Option Palette) :
    (Picture.ofRaster (shown m palette)).bytes.size = m.canvas.width.toNat * m.canvas.height.toNat * 4 := by
  rw [(Picture.ofRaster (shown m palette)).size_eq]
  cases palette with
  | none => rfl
  | some p => rfl

/-- Nothing that a view writes is a map of the screen. -/
theorem size_written_ne (drafted : (view t.read options).change = .ok change) :
    change.contents.toBytes.size ≠ Canvas.screen.packedLength.toNat := by
  obtain ⟨contents, m, palette, _, wrapped, _, _, saved⟩ := view_change_eq_ok_iff.mp drafted
  obtain ⟨canvas, _⟩ := PackedMap.ofBytes_inv wrapped
  obtain ⟨_, _, picture | blank⟩ := save_inv saved
  · have samples := Png.size_le_size_encode (Picture.ofRaster (shown m palette))
    rw [size_shown, canvas] at samples
    rw [picture]
    intro same
    rw [Contents.toBytes] at same
    rw [same] at samples
    exact absurd samples (by decide)
  · rw [blank]
    decide

theorem Overwrites.exists_change (lost : Overwrites t options) :
    ∃ change, (view t.read options).change = .ok change ∧ change.path = viewOutput options := by
  obtain ⟨⟨contents, there, size⟩, ⟨palette, drawn⟩, spelling, format, _⟩ := lost
  have wrapped : PackedMap.ofBytes contents.toBytes Canvas.screen = .ok ⟨_, _, size⟩ := dif_pos size
  obtain ⟨change, saved⟩ := exists_save format (shown ⟨_, _, size⟩ palette)
  refine ⟨change, ?_, (save_inv saved).2.1⟩
  exact view_change_eq_ok_iff.mpr ⟨contents, _, palette, there, wrapped, drawn, spelling, saved⟩

theorem overwrites_of_written (drafted : (view t.read options).change = .ok change)
    (place : t.locate change.path = t.locate options.input) : Overwrites t options := by
  obtain ⟨contents, m, palette, there, wrapped, drawn, spelling, saved⟩ := view_change_eq_ok_iff.mp drafted
  obtain ⟨format, path, _⟩ := save_inv saved
  obtain ⟨canvas, bytes⟩ := PackedMap.ofBytes_inv wrapped
  refine ⟨⟨contents, there, ?_⟩, ⟨palette, drawn⟩, spelling, format, ?_⟩
  · rw [← bytes, m.size_eq, canvas]
  · rw [← path, place]

theorem Overwrites.read_ne (lost : Overwrites t options) (jpeg : JpegDecoder) :
    ((Command.view options).run jpeg t).2.read options.input ≠ t.read options.input := by
  obtain ⟨change, drafted, path⟩ := lost.exists_change
  obtain ⟨contents, there, size⟩ := lost.map
  have same : t.locate change.path = t.locate options.input := by rw [path, lost.place]
  obtain ⟨changed, written⟩ := FileTree.exists_write_of_read there same change.contents
  rw [Command.run_written (c := .view options) drafted written, there,
    FileTree.read_write_same written same.symm]
  intro kept
  cases kept
  exact size_written_ne drafted size

theorem read_of_not_overwrites (safe : ¬ Overwrites t options) (jpeg : JpegDecoder) :
    ((Command.view options).run jpeg t).2.read options.input = t.read options.input := by
  rcases (Command.view options).run_cases jpeg t with same | ⟨change, drafted, written⟩
  · rw [same]
  · obtain ⟨contents, _, _, there, _⟩ := view_change_eq_ok_iff.mp drafted
    rw [there]
    apply FileTree.read_write_other written there
    intro place
    exact safe (overwrites_of_written drafted place.symm)

/-- A view leaves the map that it shows as it is, unless its output is another spelling of the map's own path. -/
theorem view_keeps_input_iff (jpeg : JpegDecoder) (t : FileTree) {name : String}
    (viewing : name = "view" ∨ name = "decode") (rest : List String) :
    (∀ options, Request.ofArguments (name :: rest) = some (.command (.view options)) →
      ((run jpeg (name :: rest) t).2.read options.input = t.read options.input ↔ ¬ Overwrites t options)) ∧
    ((∀ options, Request.ofArguments (name :: rest) ≠ some (.command (.view options))) →
      (run jpeg (name :: rest) t).2 = t) := by
  refine ⟨?_, ?_⟩
  · intro options asked
    rw [run_command asked]
    exact ⟨fun kept lost => lost.read_ne jpeg kept, fun safe => read_of_not_overwrites safe jpeg⟩
  · intro none
    rcases ofArguments_view_cases viewing rest with rejected | help | ⟨options, asked⟩
    · simp only [run, rejected]
    · simp only [run, help]
    · exact absurd asked (none options)

/-- One file in a directory, a map of the screen without any coverage. -/
def blankMapAt (name : String) : FileTree := ⟨[([name], .file (.bytes (.replicate 19200 0)))], []⟩

theorem view_keeps_input_beside_output :
    Request.ofArguments ["decode", "m", "-o", "m.png"] =
        some (.command (.view ⟨⟨"m"⟩, some ⟨"m.png"⟩, false, none⟩)) ∧
      (run noJpeg ["decode", "m", "-o", "m.png"] (blankMapAt "m")).2.read ⟨"m"⟩ =
        (blankMapAt "m").read ⟨"m"⟩ := by
  have asked : Request.ofArguments ["decode", "m", "-o", "m.png"] =
      some (.command (.view ⟨⟨"m"⟩, some ⟨"m.png"⟩, false, none⟩)) := by rfl
  have input : (blankMapAt "m").locate ⟨"m"⟩ = .ok ["m"] := by rfl
  have output : (blankMapAt "m").locate ⟨"m.png"⟩ = .ok ["m.png"] := by rfl
  refine ⟨asked, ((view_keeps_input_iff noJpeg (blankMapAt "m") (.inr rfl) _).1 _ asked).mpr ?_⟩
  intro lost
  have place := output.symm.trans (lost.place.trans input)
  exact absurd (Except.ok.inj place) (by decide)

/-- A dot before the name is another spelling, so the map is viewed into its own file. -/
theorem view_overwrites_input_through_dot :
    Request.ofArguments ["view", "./m.png", "-o", "m.png"] =
        some (.command (.view ⟨⟨"./m.png"⟩, some ⟨"m.png"⟩, false, none⟩)) ∧
      (blankMapAt "m.png").read ⟨"./m.png"⟩ = .ok (.bytes (.replicate 19200 0)) ∧
      (run noJpeg ["view", "./m.png", "-o", "m.png"] (blankMapAt "m.png")).1.exitCode = 0 ∧
      ∃ p, (run noJpeg ["view", "./m.png", "-o", "m.png"] (blankMapAt "m.png")).2.read ⟨"./m.png"⟩ =
        .ok (.picture p) := by
  have asked : Request.ofArguments ["view", "./m.png", "-o", "m.png"] =
      some (.command (.view ⟨⟨"./m.png"⟩, some ⟨"m.png"⟩, false, none⟩)) := by rfl
  have input : (blankMapAt "m.png").locate ⟨"./m.png"⟩ = .ok ["m.png"] := by rfl
  have output : (blankMapAt "m.png").locate ⟨"m.png"⟩ = .ok ["m.png"] := by rfl
  have there : (blankMapAt "m.png").read ⟨"./m.png"⟩ = .ok (.bytes (.replicate 19200 0)) :=
    FileTree.read_eq_ok_iff.mpr ⟨["m.png"], input, by rfl⟩
  have size : (Array.replicate 19200 (0 : UInt8)).size = Canvas.screen.packedLength.toNat :=
    Array.size_replicate
  obtain ⟨m, wrapped⟩ : ∃ m, PackedMap.ofBytes (Contents.bytes (.replicate 19200 0)).toBytes
      Canvas.screen = .ok m := by
    rw [Contents.toBytes, PackedMap.ofBytes, dif_pos size]
    exact ⟨_, rfl⟩
  obtain ⟨changed, written⟩ := FileTree.exists_write_of_read there (output.trans input.symm)
    (.picture (Picture.ofRaster (shown m none)))
  have ran : (Command.view ⟨⟨"./m.png"⟩, some ⟨"m.png"⟩, false, none⟩).run noJpeg (blankMapAt "m.png") = _ :=
    run_view_png there wrapped rfl (by decide) (by decide +kernel) written
  refine ⟨asked, there, ?_, Picture.ofRaster (shown m none), ?_⟩
  · rw [run_command asked, ran]
    rfl
  · rw [run_command asked, ran]
    exact FileTree.read_write_same written (input.trans output.symm)

end TwoBitAlpha.CommandLine
