import TwoBitAlpha.Proofs.CArray.Text
import TwoBitAlpha.Proofs.CommandLine.RoundTrip

/-!
What encoding leaves behind: the whole map in its one output, or nothing.

Everything is decided before the output is touched, and nothing can fail afterwards.
-/

namespace TwoBitAlpha.CommandLine

/-- An encoding that gets as far as its output, of the picture `r` at the size of the screen. -/
structure Encodes (jpeg : JpegDecoder) (t : FileTree) (options : EncodeOptions) (r : Raster) : Prop where
  symbol : options.format = .cArray → CArray.isIdentifier options.symbol = true
  picture : Raster.load jpeg options.input (t.read options.input) Canvas.screen = .ok r
  writable : t.IsWritable options.output

variable {jpeg : JpegDecoder} {t : FileTree} {options : EncodeOptions} {r : Raster}

theorem encode_run_cases (jpeg : JpegDecoder) (t : FileTree) (options : EncodeOptions) :
    let ran := (Command.encode options).run jpeg t
    (ran.1.exitCode ≠ 0 ∧ ran.2 = t ∧ ∀ r, ¬ Encodes jpeg t options r) ∨
    ∃ r m, Encodes jpeg t options r ∧ PackedMap.ofRaster r Canvas.screen = .ok m ∧ ran.1.exitCode = 0 ∧
      t.write options.output (encodedContents m options) = .ok ran.2 := by
  intro ran
  rcases (Command.encode options).run_exit jpeg t with
    ⟨failed, same, stopped⟩ | ⟨change, drafted, writable, written, well⟩
  · left
    refine ⟨failed, same, ?_⟩
    rintro r ⟨named, loaded, writable⟩
    obtain ⟨change, drafted⟩ := exists_encode named loaded
    obtain ⟨_, _, _, _, _, path, _⟩ := encode_inv drafted
    apply stopped change drafted
    rw [path]
    exact writable
  · right
    obtain ⟨named, r, m, loaded, packed, path, contents, told⟩ := encode_inv drafted
    rw [path] at writable written
    rw [contents] at written
    exact ⟨r, m, ⟨named, loaded, writable⟩, packed, well.mpr told, written⟩

theorem encode_exit_zero_iff (jpeg : JpegDecoder) (t : FileTree) (options : EncodeOptions) :
    ((Command.encode options).run jpeg t).1.exitCode = 0 ↔ ∃ r, Encodes jpeg t options r := by
  constructor
  · intro well
    rcases encode_run_cases jpeg t options with ⟨failed, _⟩ | ⟨r, _, reached, _⟩
    · exact absurd well failed
    · exact ⟨r, reached⟩
  · rintro ⟨r, reached⟩
    rcases encode_run_cases jpeg t options with ⟨_, _, stopped⟩ | ⟨_, _, _, _, well, _⟩
    · exact absurd reached (stopped r)
    · exact well

theorem encode_failed (failed : ((Command.encode options).run jpeg t).1.exitCode ≠ 0) :
    ((Command.encode options).run jpeg t).2 = t := by
  rcases encode_run_cases jpeg t options with ⟨_, same, _⟩ | ⟨_, _, _, _, well, _⟩
  · exact same
  · exact absurd well failed

theorem Encodes.wroteOnly (reached : Encodes jpeg t options r) :
    ∃ m, PackedMap.ofRaster r Canvas.screen = .ok m ∧
      FileTree.WroteOnly t ((Command.encode options).run jpeg t).2 options.output (encodedContents m options) := by
  rcases encode_run_cases jpeg t options with ⟨_, _, stopped⟩ | ⟨r', m, reached', packed, _, written⟩
  · exact absurd reached (stopped r)
  · have same : r = r' := Except.ok.inj (reached.picture.symm.trans reached'.picture)
    rw [same]
    exact ⟨m, packed, FileTree.wroteOnly_of_write written⟩

theorem run_encode_raw_symbol (raw : options.format = .raw) (symbol : String) (jpeg : JpegDecoder)
    (t : FileTree) : (Command.encode { options with symbol }).run jpeg t = (Command.encode options).run jpeg t := by
  have draft : encode jpeg t.read { options with symbol } = encode jpeg t.read options := by
    simp only [encode, encodedContents, raw]
    rfl
  simp only [Command.run, Command.draft, draft]

theorem size_of_ofRaster_screen {m : PackedMap} (packed : PackedMap.ofRaster r Canvas.screen = .ok m) :
    m.bytes.size = 19200 := by
  obtain ⟨_, canvas, _⟩ := PackedMap.ofRaster_inv packed
  rw [m.size_eq, canvas]
  rfl

/-- What a run of the encoding command leaves. A run that fails leaves everything as it was. One that ends well has
given help, or its output holds the whole map, as bytes or as the text of an array, and all else is as it was. The map
is never what fails, and a name counts for nothing unless an array is asked for. -/
theorem encode_leaves (jpeg : JpegDecoder) (t : FileTree) (rest : List String) :
    ((run jpeg ("encode" :: rest) t).1.exitCode ≠ 0 → (run jpeg ("encode" :: rest) t).2 = t) ∧
    ((run jpeg ("encode" :: rest) t).1.exitCode = 0 ↔
      Request.ofArguments ("encode" :: rest) = some .help ∨
        ∃ options r, Request.ofArguments ("encode" :: rest) = some (.command (.encode options)) ∧
          Encodes jpeg t options r) ∧
    (Request.ofArguments ("encode" :: rest) = some .help → (run jpeg ("encode" :: rest) t).2 = t) ∧
    (∀ options, Request.ofArguments ("encode" :: rest) = some (.command (.encode options)) →
      (∀ r, Encodes jpeg t options r → ∃ m, PackedMap.ofRaster r Canvas.screen = .ok m ∧ m.bytes.size = 19200 ∧
        (options.format = .raw →
          FileTree.WroteOnly t (run jpeg ("encode" :: rest) t).2 options.output (.bytes m.bytes)) ∧
        (options.format = .cArray → ∃ text, (CArray.write m options.symbol).collect none = (.ok (), text) ∧
          FileTree.WroteOnly t (run jpeg ("encode" :: rest) t).2 options.output (.bytes text))) ∧
      (options.format = .raw → ∀ symbol other,
        Request.ofArguments ("encode" :: other) = some (.command (.encode { options with symbol })) →
          run jpeg ("encode" :: other) t = run jpeg ("encode" :: rest) t)) ∧
    ∀ p found r, Raster.load jpeg p found Canvas.screen = .ok r → ∃ m, PackedMap.ofRaster r Canvas.screen = .ok m := by
  rcases ofArguments_encode_cases rest with rejected | help | ⟨options, asked⟩
  · simp only [run, rejected]
    refine ⟨fun _ => trivial, ?_, fun _ => trivial, ?_, fun _ _ _ => exists_packed⟩
    · constructor
      · intro well
        cases well
      · rintro (help | ⟨_, _, asked, _⟩)
        · cases help
        · cases asked
    · intro _ asked
      cases asked
  · simp only [run, help]
    refine ⟨fun _ => trivial, ⟨fun _ => .inl trivial, fun _ => rfl⟩, fun _ => trivial, ?_, fun _ _ _ => exists_packed⟩
    intro _ asked
    cases asked
  · rw [run_command asked, asked]
    refine ⟨encode_failed, ?_, ?_, ?_, fun _ _ _ => exists_packed⟩
    · constructor
      · intro well
        obtain ⟨r, reached⟩ := (encode_exit_zero_iff jpeg t options).mp well
        exact .inr ⟨options, r, rfl, reached⟩
      · rintro (help | ⟨_, r, ⟨⟩, reached⟩)
        · cases help
        · exact (encode_exit_zero_iff jpeg t options).mpr ⟨r, reached⟩
    · intro help
      cases help
    · rintro _ ⟨⟩
      refine ⟨?_, ?_⟩
      · intro r reached
        obtain ⟨m, packed, only⟩ := reached.wroteOnly
        refine ⟨m, packed, size_of_ofRaster_screen packed, ?_, ?_⟩
        · intro raw
          rw [encodedContents, raw] at only
          exact only
        · intro array
          rw [encodedContents, array] at only
          exact ⟨_, CArray.collect_write m options.symbol, only⟩
      · intro raw symbol other asked'
        rw [run_command asked', run_encode_raw_symbol raw]

/-- A picture that is encoded as an array into its own file. -/
theorem encode_leaves_array_in_place :
    ∃ m text, (CArray.write m "world_map").collect none = (.ok (), text) ∧
      (run noJpeg ["encode", "-f", "c-array", "a.png", "a.png"] (clearPictureAt "a.png")).1.exitCode = 0 ∧
      FileTree.WroteOnly (clearPictureAt "a.png")
        (run noJpeg ["encode", "-f", "c-array", "a.png", "a.png"] (clearPictureAt "a.png")).2 ⟨"a.png"⟩
        (.bytes text) := by
  have asked : Request.ofArguments ["encode", "-f", "c-array", "a.png", "a.png"] =
      some (.command (.encode ⟨⟨"a.png"⟩, ⟨"a.png"⟩, .cArray, "world_map"⟩)) := by rfl
  have loaded : Raster.load noJpeg ⟨"a.png"⟩ _ Canvas.screen = .ok (Raster.blank 320 240) :=
    load_clearPictureAt _ ⟨by decide, by decide, by decide, by decide⟩ (by decide) (by decide +kernel)
  have reached : Encodes noJpeg (clearPictureAt "a.png") ⟨⟨"a.png"⟩, ⟨"a.png"⟩, .cArray, "world_map"⟩
      (Raster.blank 320 240) :=
    ⟨fun _ => by decide, loaded, ["a.png"], by rfl, free_clearPictureAt "a.png" "a.png"⟩
  obtain ⟨_, well, _, left, _⟩ := encode_leaves noJpeg (clearPictureAt "a.png") ["-f", "c-array", "a.png", "a.png"]
  obtain ⟨m, _, _, _, array⟩ := (left _ asked).1 _ reached
  obtain ⟨text, told, only⟩ := array rfl
  exact ⟨m, text, told, well.mpr (.inr ⟨_, _, asked, reached⟩), only⟩

end TwoBitAlpha.CommandLine
