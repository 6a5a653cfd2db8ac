import TwoBitAlpha.Deflate.Expansion
import TwoBitAlpha.Png.Scanline

/-!
The image data of a PNG file and how they are expanded while they are read.

Image data are read in pieces, and a window of bytes is expanded at a time. Rows are made as soon as no copy can reach
their bytes any more. Expanding stops once all rows are there, so what is wrong behind them may well not show.
-/

namespace TwoBitAlpha.Png

structure ImageData where
  bytes : Array UInt8
  /-- Where the pieces end in which they are read. -/
  ends : List Nat
  /-- Whether they end as they should. -/
  ending : Except Fault Unit

namespace ImageData

def blockSize : Nat := 8192

/-- Where the pieces of a span end: wherever a block of the file ends within it, and at its own end. -/
def stops (s : Span) : List Nat :=
  let first := s.start / blockSize + 1
  let blocks := (List.range ((s.finish + blockSize - 1) / blockSize - first)).map fun k =>
    (first + k) * blockSize
  blocks ++ [s.finish]

/-- Where the pieces end if the spans stand one behind the other, the first of them at a position. -/
def endsFrom : Nat → List Span → List Nat
  | _, [] => []
  | i, s :: rest => (stops s).map (· - s.start + i) ++ endsFrom (i + (s.finish - s.start)) rest

def readFrom (bytes : Array UInt8) (i : Nat) : ImageData :=
  let (spans, ending) := imageSpans bytes bytes.size i
  ⟨spans.foldl (fun out s => out ++ bytes.extract s.start s.finish) #[], endsFrom 0 spans, ending⟩

end ImageData

/-- Bytes of the rows of a pass with their filter types. -/
def passSize (h : Header) (pass : Pass) : Nat := pass.height h * (1 + h.rowBytes (pass.width h))

/-- Bytes of all rows. A pass without columns has none. -/
def rowsSize (h : Header) : Nat :=
  ((passes h).map fun pass => if pass.width h = 0 then 0 else passSize h pass).foldl (· + ·) 0

/-- Bytes that are expanded from image data at most. Here the filter types of a pass without columns count. -/
def maxExpanded (h : Header) : Nat := ((passes h).map (passSize h)).foldl (· + ·) 0

def windowSize : Nat := 8192

/-- Whether nothing more comes out of image data, at their end or for want of room. -/
def isOver (h : Header) (e : Deflate.Expansion) : Bool :=
  e.isFinished || maxExpanded h ≤ e.out.size

/-- How much of what has come out no copy can reach any more. Once nothing more comes out that is all of it. -/
def settledSize (h : Header) (e : Deflate.Expansion) : Nat :=
  if isOver h e then e.out.size else e.out.size - Deflate.maxDistance

def isEnough (h : Header) (e : Deflate.Expansion) : Bool := isOver h e || rowsSize h ≤ settledSize h e

/-- Tries the first row on image data, as soon as it is settled. -/
def tryFirstRow (p : Preamble) (e : Deflate.Expansion) : Except Fault Unit :=
  -- Only a color table can be at fault.
  if (checkTable p).toBool then .ok ()
  else
    let width := ((passes p.header).head?.map fun pass => pass.width p.header).getD 0
    let row := e.out.extract 0 (min (settledSize p.header e) (1 + p.header.rowBytes width))
    match rowsFrom p row width #[] 0 1 with
    | .ok _ | .error .brokenOff => .ok ()
    | .error fault => .error fault

def expandWindow (h : Header) (a : Deflate.Arrived) (e : Deflate.Expansion) :
    Except Fault Deflate.Expansion :=
  (e.goOn a (min (maxExpanded h) (e.out.size + windowSize))).mapError fun _ => .malformed

def windowBound (h : Header) : Nat := maxExpanded h / windowSize + 2

/-- Expands image data up to a stop until they have been taken in, unless there is enough before. -/
def expandPiece (p : Preamble) (a : Deflate.Arrived) :
    Nat → Deflate.Expansion → Except Fault Deflate.Expansion
  | 0, e => .ok e
  | bound + 1, e =>
    if isEnough p.header e then .ok e
    else do
      let next ← expandWindow p.header a e
      tryFirstRow p next
      if next.taken < a.stop then expandPiece p a bound next else return next

/-- Expands what has been taken in of image data and has not come out. It has to be all that is wanted. -/
def expandRest (h : Header) (a : Deflate.Arrived) :
    Nat → Deflate.Expansion → Except Fault Deflate.Expansion
  | 0, e => .ok e
  | bound + 1, e =>
    if isOver h e then .ok e
    else do
      let wanted := e.out.size + windowSize
      let next ← expandWindow h a e
      if isOver h next ∨ wanted ≤ next.out.size then expandRest h a bound next
      else throw .malformed

def expandAll (p : Preamble) (d : ImageData) : Except Fault Deflate.Expansion := do
  let bound := windowBound p.header
  let e ← d.ends.foldlM (fun e stop => expandPiece p ⟨d.bytes, stop⟩ bound e) .start
  -- If the data end as they should, what has been taken in counts too.
  if d.ending.toBool ∧ !isEnough p.header e then expandRest p.header ⟨d.bytes, d.bytes.size⟩ bound e
  else return e

def rowsOf (p : Preamble) (d : ImageData) :
    Except Fault (List (Pass × List (List (List UInt8)))) := do
  let e ← expandAll p d
  match d.ending, passRows p e.out 0 (passes p.header) with
  -- That the file breaks off counts only if the rows so far are right.
  | .error .brokenOff, .error fault => throw fault
  | .error fault, _ => throw fault
  | .ok (), .error .brokenOff => throw .malformed
  | .ok (), rows => rows

end TwoBitAlpha.Png
