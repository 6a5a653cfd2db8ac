import TwoBitAlpha.CommandLine.Draft

/-!
The whole program: from its arguments and a tree of files to what it tells and the tree that it leaves.
-/

namespace TwoBitAlpha.CommandLine

inductive Outcome where
  /-- The arguments make no request. -/
  | rejected
  | help
  | version
  | finished (r : Report)

def Outcome.exitCode : Outcome → Nat
  | rejected => 2
  | help => 0
  | version => 0
  | finished r => r.exitCode

def versionText : String := "alphamap 0.1.0"

def usageText : String :=
  "Usage: alphamap encode [-f raw|c-array] [-s SYMBOL] INPUT OUTPUT\n" ++
  "       alphamap view [-o OUTPUT] [-d] [-p PALETTE] INPUT"

def run (jpeg : JpegDecoder) (arguments : List String) (t : FileTree) : Outcome × FileTree :=
  match Request.ofArguments arguments with
  | none => (.rejected, t)
  | some .help => (.help, t)
  | some .version => (.version, t)
  | some (.command c) =>
    let (report, changed) := c.run jpeg t
    (.finished report, changed)

end TwoBitAlpha.CommandLine
