/-!
A place that bytes are written to, which may have room for only so many.

A write that does not fit leaves what did fit and stops the writing there.
-/

namespace TwoBitAlpha

/-- The bytes taken so far, and how many more there is room for; `none` stands for no limit. -/
structure Sink where
  room : Option Nat
  written : Array UInt8

inductive SinkError where
  | full
  deriving DecidableEq

def SinkError.message : SinkError → String
  | .full => "failed to write whole buffer"

/-- Writing that may end early; the sink is there in either case. -/
abbrev Writing := ExceptT SinkError (StateM Sink)

namespace Sink

def empty (room : Option Nat) : Sink := ⟨room, #[]⟩

/-- Takes as many of the bytes as there is room for, and says whether that was all of them. -/
def accept (s : Sink) (bytes : Array UInt8) : Bool × Sink :=
  match s.room with
  | none => (true, { s with written := s.written ++ bytes })
  | some n =>
    (decide (bytes.size ≤ n),
      { room := some (n - bytes.size), written := s.written ++ bytes.take n })

def putBytes (bytes : Array UInt8) : Writing Unit := do
  let (whole, s) := (← get).accept bytes
  set s
  unless whole do throw .full

def putLine (line : String) : Writing Unit := putBytes (line ++ "\n").toUTF8.data

end Sink

def Writing.collect (w : Writing Unit) (room : Option Nat) : Except SinkError Unit × Array UInt8 :=
  let (outcome, s) := w.run.run (Sink.empty room)
  (outcome, s.written)

end TwoBitAlpha
