import TwoBitAlpha.Proofs.CommandLine.Draft
import TwoBitAlpha.Proofs.CommandLine.Request
import TwoBitAlpha.Proofs.Conversion
import TwoBitAlpha.Proofs.PictureFile

/-!
A picture is encoded, the map is viewed, and the view is encoded again.

The view has the size of the screen and the alpha of each level, so nothing is resized on the way back and the second
map is the first one.
-/

namespace TwoBitAlpha.CommandLine

/-- A name of a file that a command line can give. -/
structure IsFileName (name : String) : Prop where
  named : Path.IsName name
  plain : looksLikeOption name = false
  short : name.utf8ByteSize ≤ FileTree.maxName

/-- A name by which a command can write a file in the current directory. -/
structure IsOutputName (t : FileTree) (name : String) : Prop extends IsFileName name where
  free : t.node? (t.current ++ [name]) ≠ some .directory

/-- The command line is run to its end, and its exit code is zero. -/
def Succeeds (jpeg : JpegDecoder) (arguments : List String) (t : FileTree) (log : List LogEntry)
    (changed : FileTree) : Prop :=
  ∃ report, run jpeg arguments t = (.finished report, changed) ∧ report.log = log ∧ report.exitCode = 0

def wroteEntry (m : PackedMap) (output : String) : LogEntry :=
  info s!"Wrote {m.length} bytes to '{output}' with CRC: {checksumText m}"

def loadedMapEntry (m : PackedMap) (input : String) : LogEntry :=
  info s!"Loaded map '{input}' with CRC: {checksumText m}"

variable {jpeg : JpegDecoder} {t changed : FileTree} {name other input output : String} {contents found : Contents}
  {p : Path} {r fitted : Raster} {m : PackedMap}

theorem IsFileName.argues (h : IsFileName name) : IsPathArgument name := ⟨h.named.nonempty, h.plain⟩

theorem IsFileName.read_write_other (h : IsFileName name) (also : IsFileName other) (apart : other ≠ name)
    (home : t.node? t.current = some .directory) (written : t.write ⟨name⟩ contents = .ok changed)
    (there : t.read ⟨other⟩ = .ok found) : changed.read ⟨other⟩ = .ok found := by
  apply FileTree.read_write_other written there
  rw [FileTree.locate_name home h.named h.short, FileTree.locate_name home also.named also.short]
  intro same
  exact apart (List.singleton_inj.mp (List.append_cancel_left (Except.ok.inj same)))

theorem IsOutputName.exists_write (out : IsOutputName t name) (home : t.node? t.current = some .directory)
    (contents : Contents) :
    ∃ changed, t.write ⟨name⟩ contents = .ok changed ∧
      changed.node? changed.current = some .directory ∧ changed.read ⟨name⟩ = .ok contents := by
  obtain ⟨changed, written⟩ :=
    FileTree.exists_write (FileTree.locate_name home out.named out.short) out.free contents
  exact ⟨changed, written, FileTree.home_write written home, FileTree.read_write_same written rfl⟩

theorem IsOutputName.after_write (out : IsOutputName t name) (written : t.write p contents = .ok changed) :
    IsOutputName changed name := by
  refine ⟨out.toIsFileName, ?_⟩
  rw [FileTree.current_write written]
  intro directory
  exact out.free ((FileTree.directory_write_iff written _).mp directory)

theorem succeeds_of_run {arguments : List String} {c : Command} {log : List LogEntry}
    (asked : Request.ofArguments arguments = some (.command c)) (ran : c.run jpeg t = (⟨log, none⟩, changed)) :
    Succeeds jpeg arguments t log changed := by
  refine ⟨⟨log, none⟩, ?_, rfl, rfl⟩
  rw [run_command asked, ran]

theorem succeeds_encode (source : IsPathArgument input) (target : IsPathArgument output)
    (picture : Raster.ofFile jpeg ⟨input⟩ (t.read ⟨input⟩) = .ok r)
    (screened : r.fit Canvas.screen = some fitted) (packed : PackedMap.ofRaster fitted Canvas.screen = .ok m)
    (written : t.write ⟨output⟩ (.bytes m.bytes) = .ok changed) :
    Succeeds jpeg ["encode", input, output] t (loadLog ⟨input⟩ r Canvas.screen ++ [wroteEntry m output]) changed := by
  apply succeeds_of_run (ofArguments_encode source target)
  exact run_encode_written rfl picture screened packed written

theorem exitCode_encode_refused {e : AccessError} (source : IsPathArgument input) (target : IsPathArgument output)
    (picture : Raster.ofFile jpeg ⟨input⟩ (t.read ⟨input⟩) = .ok r)
    (screened : r.fit Canvas.screen = some fitted) (packed : PackedMap.ofRaster fitted Canvas.screen = .ok m)
    (refused : t.write ⟨output⟩ (.bytes m.bytes) = .error e) :
    (run jpeg ["encode", input, output] t).1.exitCode = 1 := by
  have ran : (Command.encode ⟨⟨input⟩, ⟨output⟩, .raw, defaultSymbol⟩).run jpeg t = _ :=
    run_encode_refused rfl picture screened packed refused
  rw [run_command (ofArguments_encode source target), ran]
  rfl

theorem succeeds_view (source : IsPathArgument input) (target : IsPathArgument output)
    (there : t.read ⟨input⟩ = .ok (.bytes m.bytes)) (canvas : m.canvas = Canvas.screen)
    (apart : ¬ (Path.mk output).isSame ⟨input⟩ = true) (png : PictureFormat.ofPath? ⟨output⟩ = some .png)
    (written : t.write ⟨output⟩ (.picture (Picture.ofRaster m.toRaster)) = .ok changed) :
    Succeeds jpeg ["view", input, "-o", output] t
      [loadedMapEntry m input, info s!"Saved decoded map to '{output}'"] changed := by
  have wrapped : PackedMap.ofBytes (Contents.bytes m.bytes).toBytes Canvas.screen = .ok m := by
    rw [Contents.toBytes, ← canvas]
    exact m.ofBytes_bytes
  have drawn : paletteFor t.read ⟨⟨input⟩, some ⟨output⟩, false, none⟩ = .ok none := rfl
  apply succeeds_of_run (ofArguments_view source target)
  exact run_view_png there wrapped drawn apart png written

/-- A picture that is as large as the screen is told of without a warning. -/
theorem loadLog_screen (name : String) (size : r.width = 320 ∧ r.height = 240) :
    loadLog ⟨name⟩ r Canvas.screen = [info s!"Loaded '{name}' (320x240)"] := by
  have fits : r.hasSizeOf Canvas.screen = true := Raster.hasSizeOf_iff.mpr size
  have numbers : toString (320 : UInt32) = "320" ∧ toString (240 : UInt32) = "240" := by decide
  simp only [loadLog, fits, if_true, size.1, size.2, numbers.1, numbers.2, String.append_assoc]
  rfl

/-- From any picture that can be loaded, through a map and a view of it in the current directory to a second map.
Each run succeeds and tells the same checksum, the second map is the first, and the view is in white with the alpha of
each level. -/
theorem encode_view_encode {map picture again : String}
    (home : t.node? t.current = some .directory)
    (plain : looksLikeOption input = false)
    (loaded : Raster.load jpeg ⟨input⟩ (t.read ⟨input⟩) Canvas.screen = .ok r)
    (png : ∃ stem, stem ≠ "" ∧ picture = stem ++ ".png")
    (outputs : IsOutputName t map ∧ IsOutputName t picture ∧ IsOutputName t again)
    (distinct : map ≠ picture ∧ map ≠ again ∧ picture ≠ again) :
    ∃ raw m p t₁ t₂ t₃,
      Raster.ofFile jpeg ⟨input⟩ (t.read ⟨input⟩) = .ok raw ∧ PackedMap.ofRaster r Canvas.screen = .ok m ∧
      Succeeds jpeg ["encode", input, map] t (loadLog ⟨input⟩ raw Canvas.screen ++ [wroteEntry m map]) t₁ ∧
      Succeeds jpeg ["view", map, "-o", picture] t₁
        [loadedMapEntry m map, info s!"Saved decoded map to '{picture}'"] t₂ ∧
      Succeeds jpeg ["encode", picture, again] t₂
        [info s!"Loaded '{picture}' (320x240)", wroteEntry m again] t₃ ∧
      t₃.read ⟨map⟩ = .ok (.bytes m.bytes) ∧ m.bytes.size = 19200 ∧
      t₃.read ⟨again⟩ = .ok (.bytes m.bytes) ∧
      t₃.read ⟨picture⟩ = .ok (.picture p) ∧ p.width = 320 ∧ p.height = 240 ∧ p.format = .rgba8 ∧
      ∀ x y, p.toRaster.pixel? x y =
        (r.pixel? x y).map fun q => ⟨255, 255, 255, (Level.ofAlpha q.alpha).alpha⟩ := by
  obtain ⟨raw, found, screened⟩ := Raster.load_eq_ok_iff.mp loaded
  obtain ⟨m, packed⟩ := PackedMap.ofRaster_eq_ok (Raster.size_fit screened)
  obtain ⟨_, canvas, _⟩ := PackedMap.ofRaster_inv packed
  obtain ⟨stem, nonempty, rfl⟩ := png
  obtain ⟨first, view, last⟩ := outputs
  obtain ⟨map_ne_view, map_ne_again, view_ne_again⟩ := distinct
  have source : IsPathArgument input := ⟨Raster.nonempty_of_ofFile found, plain⟩
  have known := PictureFormat.ofPath?_png view.named nonempty
  have spelled : ¬ (Path.mk (stem ++ ".png")).isSame ⟨map⟩ = true := fun same =>
    map_ne_view ((view.named.isSame_iff first.named).mp same).symm
  have white : m.toRaster.width = 320 ∧ m.toRaster.height = 240 :=
    ⟨congrArg Canvas.width canvas, congrArg Canvas.height canvas⟩
  obtain ⟨t₁, wrote₁, home₁, map₁⟩ := first.exists_write home (.bytes m.bytes)
  obtain ⟨t₂, wrote₂, home₂, picture₂⟩ :=
    (view.after_write wrote₁).exists_write home₁ (.picture (Picture.ofRaster m.toRaster))
  obtain ⟨t₃, wrote₃, _, again₃⟩ :=
    ((last.after_write wrote₁).after_write wrote₂).exists_write home₂ (.bytes m.bytes)
  -- What one run has written is there still after the later ones.
  have map₂ := view.read_write_other first.toIsFileName map_ne_view home₁ wrote₂ map₁
  have map₃ := last.read_write_other first.toIsFileName map_ne_again home₂ wrote₃ map₂
  have picture₃ := last.read_write_other view.toIsFileName view_ne_again home₂ wrote₃ picture₂
  have loaded₂ : Raster.ofFile jpeg ⟨stem ++ ".png"⟩ (t₂.read ⟨stem ++ ".png"⟩) = .ok m.toRaster := by
    rw [picture₂, Raster.ofFile_png known, Picture.toRaster_ofRaster]
  have third := succeeds_encode view.argues last.argues loaded₂ (Raster.fit_eq_self white)
    (PackedMap.ofRaster_toRaster_of_packed packed) wrote₃
  rw [loadLog_screen _ white] at third
  refine ⟨raw, m, Picture.ofRaster m.toRaster, t₁, t₂, t₃, found, packed,
    succeeds_encode source first.argues found screened packed wrote₁,
    succeeds_view first.argues view.argues map₁ canvas spelled known wrote₂, third,
    map₃, ?_, again₃, picture₃, white.1, white.2, rfl, ?_⟩
  · rw [m.size_eq, canvas]
    rfl
  · intro x y
    rw [Picture.toRaster_ofRaster, PackedMap.pixel?_toRaster, PackedMap.levelAt?_ofRaster packed, Option.map_map]
    rfl

/-- One file in a directory, a clear picture of the size of the screen. -/
def clearPictureAt (name : String) : FileTree :=
  ⟨[([name], .file (.picture (Picture.ofRaster (Raster.blank 320 240))))], []⟩

theorem node?_clearPictureAt (name other : String) :
    (clearPictureAt name).node? [other] =
      if other = name then some (.file (.picture (Picture.ofRaster (Raster.blank 320 240)))) else none := by
  simp only [FileTree.node?, clearPictureAt, List.cons_ne_nil, if_false, List.lookup_cons, List.lookup_nil]
  by_cases same : other = name
  · subst same
    rw [if_pos rfl, beq_self_eq_true]
  · rw [if_neg same, beq_false_of_ne fun locations => same (List.singleton_inj.mp locations)]

theorem free_clearPictureAt (name other : String) :
    (clearPictureAt name).node? ((clearPictureAt name).current ++ [other]) ≠ some .directory := by
  change (clearPictureAt name).node? [other] ≠ some .directory
  rw [node?_clearPictureAt]
  split
  · intro file
    cases file
  · intro nothing
    cases nothing

theorem outputs_clearPictureAt (name : String) :
    ∀ output ∈ ["m", "v.png", "n"], IsOutputName (clearPictureAt name) output := by
  intro output member
  have free := free_clearPictureAt name output
  simp only [List.mem_cons, List.not_mem_nil, or_false] at member
  rcases member with rfl | rfl | rfl
  · exact ⟨⟨⟨by decide, by decide, by decide, by decide⟩, rfl, by decide⟩, free⟩
  · exact ⟨⟨⟨by decide, by decide, by decide, by decide⟩, rfl, by decide⟩, free⟩
  · exact ⟨⟨⟨by decide, by decide, by decide, by decide⟩, rfl, by decide⟩, free⟩

theorem load_clearPictureAt (jpeg : JpegDecoder) (named : Path.IsName name)
    (short : name.utf8ByteSize ≤ FileTree.maxName) (png : PictureFormat.ofPath? ⟨name⟩ = some .png) :
    Raster.load jpeg ⟨name⟩ ((clearPictureAt name).read ⟨name⟩) Canvas.screen = .ok (Raster.blank 320 240) := by
  have there : (clearPictureAt name).read ⟨name⟩ = .ok (.picture (Picture.ofRaster (Raster.blank 320 240))) := by
    refine FileTree.read_eq_ok_iff.mpr ⟨[name], FileTree.locate_name rfl named short, ?_⟩
    rw [node?_clearPictureAt, if_pos rfl]
  refine Raster.load_eq_ok_iff.mpr ⟨Raster.blank 320 240, ?_, Raster.fit_eq_self ⟨rfl, rfl⟩⟩
  rw [there, Raster.ofFile_png png, Picture.toRaster_ofRaster]

theorem encode_view_encode_clear :
    ∃ m log₁ log₂ log₃ t₁ t₂ t₃,
      Succeeds noJpeg ["encode", "a.png", "m"] (clearPictureAt "a.png") log₁ t₁ ∧
      Succeeds noJpeg ["view", "m", "-o", "v.png"] t₁ log₂ t₂ ∧
      Succeeds noJpeg ["encode", "v.png", "n"] t₂ log₃ t₃ ∧
      t₃.read ⟨"m"⟩ = .ok (.bytes (PackedMap.bytes m)) ∧ t₃.read ⟨"n"⟩ = .ok (.bytes (PackedMap.bytes m)) := by
  have loaded : Raster.load noJpeg ⟨"a.png"⟩ _ Canvas.screen = .ok (Raster.blank 320 240) :=
    load_clearPictureAt _ ⟨by decide, by decide, by decide, by decide⟩ (by decide) (by decide +kernel)
  have outputs := outputs_clearPictureAt "a.png"
  obtain ⟨raw, m, p, t₁, t₂, t₃, _, _, encoded, viewed, again, map, _, same, _⟩ :=
    encode_view_encode rfl rfl loaded ⟨"v", by decide, rfl⟩
      ⟨outputs "m" (by decide), outputs "v.png" (by decide), outputs "n" (by decide)⟩ (by decide)
  exact ⟨m, _, _, _, t₁, t₂, t₃, encoded, viewed, again, map, same⟩

/-- A name that is one byte too long. -/
def longName : String := String.ofList (List.replicate 256 'a')

/-- A picture whose path begins with a dash is taken for options, and a name of more than 255 bytes is no name of a
file. -/
theorem encode_rejects_dash_and_long_name :
    (Raster.load noJpeg ⟨"-a.png"⟩ ((clearPictureAt "-a.png").read ⟨"-a.png"⟩) Canvas.screen =
        .ok (Raster.blank 320 240) ∧
      (∀ output ∈ ["m", "v.png", "n"], IsOutputName (clearPictureAt "-a.png") output) ∧
      (run noJpeg ["encode", "-a.png", "m"] (clearPictureAt "-a.png")).1.exitCode = 2) ∧
    Raster.load noJpeg ⟨"a.png"⟩ ((clearPictureAt "a.png").read ⟨"a.png"⟩) Canvas.screen =
        .ok (Raster.blank 320 240) ∧
      (∀ output ∈ ["m", "v.png", "n"], IsOutputName (clearPictureAt "a.png") output) ∧
      Path.IsName longName ∧ looksLikeOption longName = false ∧
      (clearPictureAt "a.png").node? ((clearPictureAt "a.png").current ++ [longName]) ≠ some .directory ∧
      (run noJpeg ["encode", "a.png", longName] (clearPictureAt "a.png")).1.exitCode = 1 := by
  have dashed : Raster.load noJpeg ⟨"-a.png"⟩ _ Canvas.screen = .ok (Raster.blank 320 240) :=
    load_clearPictureAt _ ⟨by decide, by decide, by decide, by decide⟩ (by decide) (by decide +kernel)
  have loaded : Raster.load noJpeg ⟨"a.png"⟩ _ Canvas.screen = .ok (Raster.blank 320 240) :=
    load_clearPictureAt _ ⟨by decide, by decide, by decide, by decide⟩ (by decide) (by decide +kernel)
  have letters : longName.toList = List.replicate 256 'a' := String.toList_ofList
  have named : Path.IsName longName := by
    apply Path.isName_of_length
    · rw [← String.length_toList, letters, List.length_replicate]
      decide
    · rw [letters, List.mem_replicate]
      decide
  have plain : looksLikeOption longName = false := by
    rw [looksLikeOption, letters]
    rfl
  have long : FileTree.maxName < longName.utf8ByteSize := by decide +kernel
  obtain ⟨raw, found, screened⟩ := Raster.load_eq_ok_iff.mp loaded
  obtain ⟨m, packed⟩ := PackedMap.ofRaster_eq_ok (Raster.size_fit screened)
  have refused := FileTree.write_long_name (t := clearPictureAt "a.png") rfl named long (.bytes m.bytes)
  have fails := exitCode_encode_refused ⟨by decide, rfl⟩ ⟨named.nonempty, plain⟩ found screened packed refused
  exact ⟨⟨dashed, outputs_clearPictureAt _, rfl⟩, loaded, outputs_clearPictureAt _, named, plain,
    free_clearPictureAt _ _, fails⟩

end TwoBitAlpha.CommandLine
