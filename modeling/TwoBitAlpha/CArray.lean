import TwoBitAlpha.Hex
import TwoBitAlpha.PackedMap
import TwoBitAlpha.RowWrite
import TwoBitAlpha.Sink

/-!
A packed map as the definition of a C array: a comment with size and checksum, the declaration,
sixteen values a line, and the closing brace.
-/

namespace TwoBitAlpha.CArray

/-- Whether a text has the form of a C identifier: a letter or an underscore, then letters, digits and
underscores, all of them ASCII. -/
def isIdentifier (symbol : String) : Bool :=
  match symbol.toList with
  | [] => false
  | c :: rest => (c.isAlpha || c == '_') && rest.all fun d => d.isAlphanum || d == '_'

def valuesPerLine : Nat := 16

def commentLine (m : PackedMap) : String :=
  s!"// {m.canvas.text} alpha map, 2 bits per pixel, crc32 0x{Hex.ofWord m.checksum}"

def declarationLine (m : PackedMap) (symbol : String) : String :=
  s!"const unsigned char {symbol}[{m.length}] = " ++ "\x7b"

def valueLine (bytes : List UInt8) : String :=
  "    " ++ String.intercalate ", " (bytes.map fun b => "0x" ++ Hex.ofByte b) ++ ","

def closingLine : String := "\x7d;"

/-- The lines of the definition, without their newlines. -/
def lines (m : PackedMap) (symbol : String) : List String :=
  commentLine m :: declarationLine m symbol ::
    ((Span.cut m.length valuesPerLine).map fun span => valueLine (span.read m.bytes)) ++
    [closingLine]

def write (m : PackedMap) (symbol : String) : Writing Unit := (lines m symbol).forM Sink.putLine

def text (m : PackedMap) (symbol : String) : String :=
  String.join ((lines m symbol).map (· ++ "\n"))

end TwoBitAlpha.CArray
