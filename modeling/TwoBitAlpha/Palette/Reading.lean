import TwoBitAlpha.Decimal.Shortest
import TwoBitAlpha.Palette
import TwoBitAlpha.Text.Quoted
import TwoBitAlpha.Toml.Document

/-!
Palettes from TOML documents: `name` is a text, `colors` an array that begins with four bytes.

The keys are looked at in the order of the document and the first one that is wrong is reported. Keys that a
palette does not have are passed over, and so are the items of `colors` after the fourth.
-/

namespace TwoBitAlpha

inductive PaletteFault where
  | nameNotText (found : Toml.Value)
  | colorsNotArray (found : Toml.Value)
  | colorNotInteger (found : Toml.Value)
  | colorOutOfRange (found : Int)
  | tooFewColors (found : Nat)
  | nameMissing
  | colorsMissing

inductive PaletteError where
  | malformed
  | unfit (fault : PaletteFault)

namespace Toml.Value

def description : Toml.Value → String
  | .text s => "string " ++ Text.quoted s
  | .integer n => s!"integer `{n}`"
  | .float x => s!"floating point `{x.text}`"
  | .boolean b => s!"boolean `{b}`"
  | .moment _ => "map"
  | .array _ => "sequence"
  | .table _ => "map"

end Toml.Value

namespace PaletteFault

def message : PaletteFault → String
  | nameNotText found => s!"invalid type: {found.description}, expected a string"
  | colorsNotArray found => s!"invalid type: {found.description}, expected an array of length 4"
  | colorNotInteger found => s!"invalid type: {found.description}, expected u8"
  | colorOutOfRange found => s!"invalid value: integer `{found}`, expected u8"
  | tooFewColors found => s!"invalid length {found}, expected an array of length 4"
  | nameMissing => "missing field `name`"
  | colorsMissing => "missing field `colors`"

end PaletteFault

namespace Palette

def nameOf : Toml.Value → Except PaletteFault String
  | .text s => .ok s
  | found => .error (.nameNotText found)

def colorOf : Toml.Value → Except PaletteFault UInt8
  | .integer n => if 0 ≤ n ∧ n ≤ 255 then .ok (UInt8.ofNat n.toNat) else .error (.colorOutOfRange n)
  | found => .error (.colorNotInteger found)

/-- The first four items as colors. The items are looked at one by one, so a wrong item is reported
before a missing one. -/
def colorsOfItems (items : List Toml.Value) : Except PaletteFault (Vector UInt8 4) := do
  let colors ← (items.take 4).mapM colorOf
  match colors with
  | [a, b, c, d] => return #v[a, b, c, d]
  | _ => throw (.tooFewColors items.length)

def colorsOf : Toml.Value → Except PaletteFault (Vector UInt8 4)
  | .array items => colorsOfItems items
  | found => .error (.colorsNotArray found)

structure Fields where
  name : Option String
  colors : Option (Vector UInt8 4)

def Fields.visit (fields : Fields) (entry : String × Toml.Value) : Except PaletteFault Fields :=
  if entry.1 = "name" then do return { fields with name := some (← nameOf entry.2) }
  else if entry.1 = "colors" then do return { fields with colors := some (← colorsOf entry.2) }
  else .ok fields

def Fields.complete (fields : Fields) : Except PaletteFault Palette :=
  match fields.name, fields.colors with
  | none, _ => .error .nameMissing
  | some _, none => .error .colorsMissing
  | some name, some colors => .ok ⟨name, colors⟩

def ofTable (table : Toml.Table) : Except PaletteFault Palette := do
  (← table.foldlM Fields.visit ⟨none, none⟩).complete

def ofText (text : String) : Except PaletteError Palette :=
  match Toml.Table.ofText text with
  | none => .error .malformed
  | some table => (ofTable table).mapError .unfit

end Palette

end TwoBitAlpha
