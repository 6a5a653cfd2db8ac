import TwoBitAlpha.Proofs.CArray.Naming
import TwoBitAlpha.Proofs.CommandLine.Encoding

/-!
The names of arrays that the encoding command writes.

A symbol that is not of the form of a name stops the command, and one that is becomes the name of the array. That it
may be a reserved word is not looked at.
-/

namespace TwoBitAlpha.CommandLine

open CArray (Edition HasForm isIdentifier declarationLine tokens arrayTokens)

variable {jpeg : JpegDecoder} {t : FileTree} {options : EncodeOptions} {rest : List String}

theorem array_of_exit_zero (asked : Request.ofArguments ("encode" :: rest) = some (.command (.encode options)))
    (array : options.format = .cArray) (well : (run jpeg ("encode" :: rest) t).1.exitCode = 0) :
    isIdentifier options.symbol = true ∧
      ∃ m, FileTree.WroteOnly t (run jpeg ("encode" :: rest) t).2 options.output
        (.bytes (CArray.text m options.symbol).toUTF8.data) := by
  rw [run_command asked] at well ⊢
  obtain ⟨r, reached⟩ := (encode_exit_zero_iff jpeg t options).mp well
  obtain ⟨m, _, only⟩ := reached.wroteOnly
  rw [encodedContents, array] at only
  exact ⟨reached.symbol array, m, only⟩

/-- The test of a symbol is that of the form of a name. It tells which symbols can be names if and only if the symbol is not
one of the words that the edition of C reserves: for each such word it is wrong. An array that the command has written
declares its symbol, as a constant array of as many bytes as the map has, under the same condition. -/
theorem array_name_exact (e : Edition) (symbol : String) :
    (isIdentifier symbol = true ↔ HasForm symbol) ∧
    ((isIdentifier symbol = true ↔ HasForm symbol ∧ symbol ∉ e.keywords) ↔ symbol ∉ e.keywords) ∧
    ∀ jpeg t rest options, Request.ofArguments ("encode" :: rest) = some (.command (.encode options)) →
      options.format = .cArray → options.symbol = symbol → (run jpeg ("encode" :: rest) t).1.exitCode = 0 →
      HasForm symbol ∧
      ∃ m, FileTree.WroteOnly t (run jpeg ("encode" :: rest) t).2 options.output
          (.bytes (CArray.text m symbol).toUTF8.data) ∧
        (CArray.lines m symbol)[1]? = some (declarationLine m symbol) ∧
        (tokens e (declarationLine m symbol).toList = arrayTokens symbol m.length ↔ symbol ∉ e.keywords) := by
  refine ⟨CArray.isIdentifier_iff, CArray.isIdentifier_agrees_iff e symbol, ?_⟩
  rintro jpeg t rest options asked array rfl well
  obtain ⟨named, m, only⟩ := array_of_exit_zero asked array well
  exact ⟨CArray.isIdentifier_iff.mp named, m, only, rfl, CArray.declares_iff e m named⟩

theorem exit_zero_clearPicture {symbol : String} (named : isIdentifier symbol = true)
    (asked : Request.ofArguments ["encode", "-f", "c-array", "-s", symbol, "a.png", "m"] =
      some (.command (.encode ⟨⟨"a.png"⟩, ⟨"m"⟩, .cArray, symbol⟩))) :
    (run noJpeg ["encode", "-f", "c-array", "-s", symbol, "a.png", "m"] (clearPictureAt "a.png")).1.exitCode = 0 := by
  have loaded : Raster.load noJpeg ⟨"a.png"⟩ _ Canvas.screen = .ok (Raster.blank 320 240) :=
    load_clearPictureAt _ ⟨by decide, by decide, by decide, by decide⟩ (by decide) (by decide +kernel)
  have located : (clearPictureAt "a.png").locate ⟨"m"⟩ = .ok ["m"] :=
    FileTree.locate_name rfl ⟨by decide, by decide, by decide, by decide⟩ (by decide)
  rw [run_command asked]
  apply (encode_exit_zero_iff _ _ _).mpr
  exact ⟨Raster.blank 320 240, fun _ => named, loaded, ["m"], located, free_clearPictureAt "a.png" "m"⟩

/-- The array of a clear picture, declared under a name. -/
theorem array_name_exact_clear :
    let arguments := ["encode", "-f", "c-array", "-s", "world_map", "a.png", "m"]
    ∃ m, FileTree.WroteOnly (clearPictureAt "a.png") (run noJpeg arguments (clearPictureAt "a.png")).2 ⟨"m"⟩
        (.bytes (CArray.text m "world_map").toUTF8.data) ∧
      tokens .c23 (declarationLine m "world_map").toList = arrayTokens "world_map" m.length := by
  intro arguments
  have asked : Request.ofArguments arguments =
      some (.command (.encode ⟨⟨"a.png"⟩, ⟨"m"⟩, .cArray, "world_map"⟩)) := by rfl
  obtain ⟨_, _, written⟩ := array_name_exact .c23 "world_map"
  obtain ⟨_, m, only, _, declares⟩ := written noJpeg (clearPictureAt "a.png") _ _ asked rfl rfl
    (exit_zero_clearPicture (by decide) asked)
  exact ⟨m, only, declares.mpr (by decide)⟩

/-- The test lets `int` through, and so does the command. -/
theorem isIdentifier_accepts_int :
    ¬ (isIdentifier "int" = true ↔ HasForm "int" ∧ "int" ∉ Edition.c90.keywords) ∧
    (run noJpeg ["encode", "-f", "c-array", "-s", "int", "a.png", "m"] (clearPictureAt "a.png")).1.exitCode = 0 := by
  have reserved : "int" ∈ Edition.c90.keywords := by decide
  refine ⟨?_, exit_zero_clearPicture (by decide) (by rfl)⟩
  rw [CArray.isIdentifier_agrees_iff]
  exact not_not_intro reserved

end TwoBitAlpha.CommandLine
