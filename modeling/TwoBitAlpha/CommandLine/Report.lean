import TwoBitAlpha.PackedMap.Packing
import TwoBitAlpha.PaletteFile
import TwoBitAlpha.PictureFile
import TwoBitAlpha.Text.Plain

/-!
What a run tells: its log, and why it failed if it did.

The log is told without control sequences, entry by entry; a sequence that an entry leaves open takes the end of its
line with it. A failure is told as it is; one after which nothing can go on is told without more words.
-/

namespace TwoBitAlpha.CommandLine

inductive Severity where
  | info
  | warning
  deriving DecidableEq

def Severity.mark : Severity → String
  | info => "[*]"
  | warning => "[W]"

structure LogEntry where
  severity : Severity
  message : String
  deriving DecidableEq

def info (message : String) : LogEntry := ⟨.info, message⟩

def warning (message : String) : LogEntry := ⟨.warning, message⟩

/-- What sets off the further lines of an entry. -/
def continuation : String := "\n |  "

def LogEntry.text (e : LogEntry) : String :=
  Text.plain (e.severity.mark ++ " " ++ continuation.intercalate (e.message.splitOn "\n") ++ "\n")

inductive Failure where
  | notIdentifier (symbol : String)
  | loadPicture (input : Path)
  /-- The color table of a picture ends within a color. Nothing can go on after this. -/
  | brokenTable (rest : Nat)
  /-- The picture cannot be resampled to the size of the screen. Nothing can go on after this. -/
  | undefinedWeights
  | wrongSize (e : SizeMismatch)
  | write (output : Path)
  | create (output : Path)
  | readMap (input : Path)
  | notMap (input : Path) (expected : Canvas) (e : LengthMismatch)
  | loadPalette (file : Path) (e : PaletteFileError)
  | overwrite
  | save (output : Path)

namespace Failure

def message : Failure → String
  | notIdentifier symbol => s!"'{symbol}' is not a valid C identifier"
  | loadPicture input => s!"Failed to load image '{input.text}'"
  | brokenTable rest => brokenTableMessage rest
  | undefinedWeights => Resampling.undefinedMessage
  | wrongSize e => e.message
  | write output => s!"Failed to write '{output.text}'"
  | create output => s!"Failed to create '{output.text}'"
  | readMap input => s!"Failed to read '{input.text}'"
  | notMap input expected _ => s!"'{input.text}' is not a packed {expected.text} map"
  | loadPalette file _ => s!"Failed to load palette '{file.text}'"
  | overwrite => "Refusing to overwrite the input map, pass --output"
  | save output => s!"Failed to save '{output.text}'"

/-- What lies behind a failure, from the outside in. -/
def causes : Failure → List String
  | notMap _ _ e => [e.message]
  | loadPalette _ e => [e.message]
  | _ => []

def lines : Failure → List String
  | brokenTable rest => [brokenTableMessage rest]
  | undefinedWeights => [Resampling.undefinedMessage]
  | e =>
    s!"Error: {e.message}" ::
      (if e.causes.isEmpty then [] else "" :: "Caused by:" :: e.causes.map ("    " ++ ·))

def exitCode : Failure → Nat
  | brokenTable _ | undefinedWeights => 101
  | _ => 1

end Failure

structure Report where
  log : List LogEntry
  failure : Option Failure

def Report.exitCode (r : Report) : Nat := (r.failure.map Failure.exitCode).getD 0

def Report.text (r : Report) : String :=
  String.join (r.log.map LogEntry.text) ++
    String.join (((r.failure.map Failure.lines).getD []).map (· ++ "\n"))

end TwoBitAlpha.CommandLine
