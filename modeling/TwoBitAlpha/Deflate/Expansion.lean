import TwoBitAlpha.Deflate.Step

/-!
Expanding compressed streams that arrive piece by piece.

An expansion goes on, step by step, until it needs what has not arrived yet or there is no more room for what comes
out. It can then go on with more of either. Bytes of the stream are taken in a little ahead of their use, so a stream
may be taken in as a whole before all of it has come out.
-/

namespace TwoBitAlpha.Deflate

/-- Appends `length` bytes from `distance` back; a copy may run into what it appends. -/
def copyBack (out : Array UInt8) (distance : Nat) : Nat → Array UInt8
  | 0 => out
  | length + 1 => copyBack (out.push (out.getD (out.size - distance) 0)) distance length

def Output.appendTo (stream out : Array UInt8) : Output → Array UInt8
  | bytes new => new.foldl Array.push out
  | copy distance length => copyBack out distance length
  | slice start count => out ++ stream.extract start (start + count)

structure Expansion where
  phase : Phase
  /-- The position in bits up to which the stream has been used. -/
  position : Nat
  /-- How many bytes of the stream have been taken in. -/
  taken : Nat
  /-- What has been found but had no room. -/
  held : Output
  /-- The bytes that have come out so far. -/
  out : Array UInt8

namespace Expansion

def start : Expansion := ⟨.head, 0, 0, .bytes [], #[]⟩

def isFinished (e : Expansion) : Bool :=
  match e.phase with
  | .finished => true
  | _ => false

def fill (e : Expansion) (a : Arrived) : Expansion :=
  match e.phase with
  -- Within a stored block bytes are taken in as they come out.
  | .stored .. => e
  | _ => { e with taken := a.filled e.position }

def takenBy (e : Expansion) (a : Arrived) (s : Step) : Nat :=
  match s.output with
  | .slice start count => max e.taken (start + count)
  | _ => if s.ahead then a.filled s.position else e.taken

/-- Puts out an output, as far as it has room, and holds the rest. -/
def put (e : Expansion) (stream : Array UInt8) (limit : Nat) (o : Output) : Expansion :=
  let free := limit - e.out.size
  if o.size ≤ free then { e with out := o.appendTo stream e.out, held := .bytes [] }
  else { e with out := (o.take free).appendTo stream e.out, held := o.drop free }

def take (e : Expansion) (a : Arrived) (limit : Nat) (s : Step) : Expansion :=
  let taken := e.takenBy a s
  ({ e with phase := s.phase, position := s.position, taken }).put a.bytes limit s.output

/-- Takes up to `bound` steps, and stops before one that cannot be taken yet. -/
def advance (a : Arrived) (limit : Nat) : Nat → Expansion → Except Fault Expansion
  | 0, e => .ok e
  | bound + 1, e =>
    if 0 < e.held.size then .ok e
    else
      let e := e.fill a
      match e.phase.step a e.position ⟨e.out.size, limit - e.out.size⟩ with
      | .ok s => advance a limit bound (e.take a limit s)
      | .error .corrupt => .error .corrupt
      -- The stream is what is wanting, so all of it has been taken in.
      | .error .unfinished => .ok { e with taken := a.stop }
      | .error .over => .ok e

/-- Goes on as far as the stream has arrived, until `limit` bytes have come out. -/
def goOn (e : Expansion) (a : Arrived) (limit : Nat) : Except Fault Expansion :=
  let held := e.held
  -- Every step uses a bit at least, so the bits that have arrived bound their number.
  advance a limit (a.left e.position + 1) (e.put a.bytes limit held)

end Expansion

end TwoBitAlpha.Deflate
