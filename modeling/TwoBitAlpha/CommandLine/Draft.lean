import TwoBitAlpha.CArray
import TwoBitAlpha.CommandLine.Report
import TwoBitAlpha.CommandLine.Request
import TwoBitAlpha.PictureFile

/-!
The commands, from what their files hold to the one file that they write.

A command reads first and decides everything; only then a single file is written. `Draft` is the decision: either
a failure, with nothing to write, or the file to write and what is to be told afterwards.
-/

namespace TwoBitAlpha.CommandLine

structure FileChange where
  path : Path
  contents : Contents
  /-- What is told if the file cannot be written. -/
  refused : Failure
  /-- What is told once the file is written. -/
  written : Except Failure LogEntry

structure Draft where
  log : List LogEntry
  change : Except Failure FileChange

abbrev Reader := Path → Except AccessError Contents

def checksumText (m : PackedMap) : String := "0x" ++ Hex.ofWord m.checksum

def encodedContents (m : PackedMap) (options : EncodeOptions) : Contents :=
  match options.format with
  | .raw => .bytes m.bytes
  | .cArray => .bytes (CArray.text m options.symbol).toUTF8.data

def loadLog (input : Path) (r : Raster) (c : Canvas) : List LogEntry :=
  let loaded := info s!"Loaded '{input.text}' ({r.width}x{r.height})"
  if r.hasSizeOf c then [loaded]
  else [loaded, warning s!"Resizing {r.width}x{r.height} image to {c.text}"]

def encode (jpeg : JpegDecoder) (read : Reader) (options : EncodeOptions) : Draft :=
  if options.format = .cArray ∧ !CArray.isIdentifier options.symbol then
    ⟨[], .error (.notIdentifier options.symbol)⟩
  else
    match Raster.ofFile jpeg options.input (read options.input) with
    | .error (.brokenTable rest) => ⟨[], .error (.brokenTable rest)⟩
    | .error _ => ⟨[], .error (.loadPicture options.input)⟩
    | .ok r =>
      let log := loadLog options.input r Canvas.screen
      match r.fit Canvas.screen with
      | none => ⟨log, .error .undefinedWeights⟩
      | some fitted =>
        match PackedMap.ofRaster fitted Canvas.screen with
        | .error e => ⟨log, .error (.wrongSize e)⟩
        | .ok m => ⟨log, .ok {
            path := options.output
            contents := encodedContents m options
            refused :=
              match options.format with
              | .raw => .write options.output
              | .cArray => .create options.output
            written := .ok (info
              s!"Wrote {m.length} bytes to '{options.output.text}' with CRC: {checksumText m}") }⟩

/-- The palette that a map is shown with, if it is not shown in white. A palette file goes before the palette
of the device. -/
def paletteFor (read : Reader) (options : ViewOptions) : Except Failure (Option Palette) :=
  match options.palette with
  | some file => ((Palette.ofFile (read file)).mapError (.loadPalette file)).map some
  | none => .ok (if options.device then some Palette.device else none)

def shown (m : PackedMap) : Option Palette → Raster
  | some p => p.preview m
  | none => m.toRaster

def viewOutput (options : ViewOptions) : Path :=
  options.output.getD (options.input.withExtension "png")

/-- Saves a picture under a name that tells the format. A file of a format that cannot take the picture is left
empty. -/
def save (r : Raster) (output : Path) : Except Failure FileChange :=
  match PictureFormat.ofPath? output with
  | none => .error (.save output)
  | some .png => .ok {
      path := output
      contents := .picture (Picture.ofRaster r)
      refused := .save output
      written := .ok (info s!"Saved decoded map to '{output.text}'") }
  | some _ => .ok {
      path := output
      contents := .bytes #[]
      refused := .save output
      written := .error (.save output) }

def view (read : Reader) (options : ViewOptions) : Draft :=
  match read options.input with
  | .error _ => ⟨[], .error (.readMap options.input)⟩
  | .ok contents =>
    match PackedMap.ofBytes contents.toBytes Canvas.screen with
    | .error e => ⟨[], .error (.notMap options.input Canvas.screen e)⟩
    | .ok m =>
      let loaded := info s!"Loaded map '{options.input.text}' with CRC: {checksumText m}"
      match paletteFor read options with
      | .error e => ⟨[loaded], .error e⟩
      | .ok palette =>
        let log := loaded :: palette.toList.map fun p => info s!"Rendering with palette '{p.name}'"
        let output := viewOutput options
        if output.isSame options.input then ⟨log, .error .overwrite⟩
        else ⟨log, save (shown m palette) output⟩

def Command.draft (c : Command) (jpeg : JpegDecoder) (read : Reader) : Draft :=
  match c with
  | .encode options => CommandLine.encode jpeg read options
  | .view options => CommandLine.view read options

def Command.reads : Command → List Path
  | .encode options => [options.input]
  | .view options => options.input :: options.palette.toList

/-- What is told about a draft, given whether its file was written. -/
def Draft.report (d : Draft) (writable : Bool) : Report :=
  match d.change with
  | .error e => ⟨d.log, some e⟩
  | .ok change =>
    if writable then
      match change.written with
      | .ok entry => ⟨d.log ++ [entry], none⟩
      | .error e => ⟨d.log, some e⟩
    else ⟨d.log, some change.refused⟩

def Command.run (c : Command) (jpeg : JpegDecoder) (t : FileTree) : Report × FileTree :=
  let draft := c.draft jpeg t.read
  match draft.change with
  | .error _ => (draft.report false, t)
  | .ok change =>
    match t.write change.path change.contents with
    | .error _ => (draft.report false, t)
    | .ok changed => (draft.report true, changed)

end TwoBitAlpha.CommandLine
