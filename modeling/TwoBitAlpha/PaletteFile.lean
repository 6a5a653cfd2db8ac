import TwoBitAlpha.FileTree
import TwoBitAlpha.Palette.Reading

/-!
Palette files: UTF-8 text that holds a TOML document.
-/

namespace TwoBitAlpha

inductive PaletteReadError where
  | access (e : AccessError)
  | notText
  deriving DecidableEq

inductive PaletteFileError where
  | read (e : PaletteReadError)
  | parse (e : PaletteError)

def PaletteFileError.message : PaletteFileError → String
  | .read _ => "Failed to read palette file"
  | .parse _ => "Failed to parse palette"

namespace Palette

def ofFile (found : Except AccessError Contents) : Except PaletteFileError Palette :=
  match found with
  | .error e => .error (.read (.access e))
  | .ok contents =>
    match String.fromUTF8? ⟨contents.toBytes⟩ with
    | none => .error (.read .notText)
    | some text => (ofText text).mapError .parse

end Palette

end TwoBitAlpha
