import TwoBitAlpha.CommandLine.Program

/-!
The program on the files of the machine. What the paths of a command hold is read first, the command decides,
and then the one file that it asks for is written. There is no decoder for JPEG here.
-/

namespace TwoBitAlpha.CommandLine

def accessErrorOf : IO.Error → AccessError
  | .noFileOrDirectory .. => .notFound
  | .inappropriateType .. => .isDirectory
  | _ => .notFound

def readFile (p : Path) : IO (Except AccessError Contents) := do
  try
    return .ok (.bytes (← IO.FS.readBinFile p.text).data)
  catch e => return .error (accessErrorOf e)

/-- Whether the file could be written. -/
def writeFile (change : FileChange) : IO Bool := do
  try
    IO.FS.writeBinFile change.path.text ⟨change.contents.toBytes⟩
    return true
  catch _ => return false

def perform (c : Command) : IO Report := do
  let found ← c.reads.mapM fun p => do return (p, ← readFile p)
  let draft := c.draft noJpeg fun p => (found.lookup p).getD (.error .notFound)
  match draft.change with
  | .error _ => return draft.report false
  | .ok change => return draft.report (← writeFile change)

end TwoBitAlpha.CommandLine

open TwoBitAlpha CommandLine in
def main (arguments : List String) : IO UInt32 := do
  match Request.ofArguments arguments with
  | none =>
    IO.eprintln usageText
    return UInt32.ofNat Outcome.rejected.exitCode
  | some .help =>
    IO.println usageText
    return 0
  | some .version =>
    IO.println versionText
    return 0
  | some (.command c) =>
    let report ← perform c
    IO.eprint report.text
    return UInt32.ofNat report.exitCode
