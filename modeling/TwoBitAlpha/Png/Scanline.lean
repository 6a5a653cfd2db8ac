import TwoBitAlpha.Png.Preamble

/-!
From the expanded image data of a PNG file to its rows.

An interlaced picture is sent in seven passes, each over a grid of its own. A row begins with the type of its filter,
which predicts every byte from those before it.
-/

namespace TwoBitAlpha.Png

/-- The pixels that one pass goes through: the first column and row, and the steps to the next ones. -/
structure Pass where
  x : Nat
  y : Nat
  dx : Nat
  dy : Nat

namespace Pass

def width (p : Pass) (h : Header) : Nat := (h.width + p.dx - 1 - p.x) / p.dx

def height (p : Pass) (h : Header) : Nat := (h.height + p.dy - 1 - p.y) / p.dy

end Pass

def passes (h : Header) : List Pass :=
  if h.interlaced then
    [⟨0, 0, 8, 8⟩, ⟨4, 0, 8, 8⟩, ⟨0, 4, 4, 8⟩, ⟨2, 0, 4, 4⟩, ⟨0, 2, 2, 4⟩, ⟨1, 0, 2, 2⟩,
      ⟨0, 1, 1, 2⟩]
  else [⟨0, 0, 1, 1⟩]

/-- The neighbour, of three, that is closest to `left + above - corner`. -/
def paeth (left above corner : Nat) : Nat :=
  let distance (n : Nat) : Nat := ((left : Int) + above - corner - n).natAbs
  if distance left ≤ distance above ∧ distance left ≤ distance corner then left
  else if distance above ≤ distance corner then above
  else corner

/-- What a filter predicts for a byte from the one to the left, the one above and the one above that. -/
def predicted (filter left above corner : Nat) : Except Fault Nat :=
  if filter = 0 then .ok 0
  else if filter = 1 then .ok left
  else if filter = 2 then .ok above
  else if filter = 3 then .ok ((left + above) / 2)
  else if filter = 4 then .ok (paeth left above corner)
  else .error .malformed

/-- Undoes the filter of a row. `reach` is how far back the byte to the left stands; a byte that is not there counts
as zero. -/
def unfilter (filter reach : Nat) (above row : Array UInt8) : Except Fault (Array UInt8) :=
  (List.range row.size).foldlM (fun out i => do
    let left := if i < reach then 0 else (out.getD (i - reach) 0).toNat
    let corner := if i < reach then 0 else (above.getD (i - reach) 0).toNat
    let base ← predicted filter left (above.getD i 0).toNat corner
    return out.push (UInt8.ofNat (base + (row.getD i 0).toNat))) #[]

def rawSample (h : Header) (row : Array UInt8) (x k : Nat) : Nat :=
  let start := (x * h.channels + k) * h.depth
  let byte := (row.getD (start / 8) 0).toNat
  if h.depth = 16 then byte * 256 + (row.getD (start / 8 + 1) 0).toNat
  else byte / Nat.pow 2 (8 - h.depth - start % 8) % Nat.pow 2 h.depth

def formatOf (p : Preamble) : PixelFormat :=
  let clear := p.transparency.isSome
  let color := p.header.color
  let channels : Channels :=
    if color = 0 then (if clear then .greyAlpha else .grey)
    else if color = 4 then .greyAlpha
    else if color = 6 ∨ clear then .rgba
    else .rgb
  ⟨channels, p.header.depth == 16⟩

/-- A sample as the bytes that it is told in, without stretching. -/
def plainBytes (h : Header) (v : Nat) : List UInt8 := bigEndian (if h.depth = 16 then 2 else 1) v

/-- A sample in bytes. Grey of less than eight bits is stretched to eight. -/
def sampleBytes (h : Header) (v : Nat) : List UInt8 :=
  if h.depth < 8 then [UInt8.ofNat (v * 255 / (Nat.pow 2 h.depth - 1))] else plainBytes h v

/-- A pixel of the color table. Beyond the end of the table all is black. -/
def tablePixel (p : Preamble) (table : Array UInt8) (i : Nat) : List UInt8 :=
  let color := (List.range 3).map fun k => table.getD (3 * i + k) 0
  match p.transparency with
  | none => color
  | some alphas => color ++ [alphas.getD i 255]

def pixelBytes (p : Preamble) (row : Array UInt8) (x : Nat) : List UInt8 :=
  let h := p.header
  let samples := (List.range h.channels).map (rawSample h row x)
  match p.table, h.hasTable with
  | some table, true => tablePixel p table (samples.headD 0)
  | _, _ =>
    let bytes := samples.flatMap (sampleBytes h)
    match p.transparency with
    | none => bytes
    | some clear =>
      let isClear := samples.flatMap (plainBytes h) == clear
      bytes ++ sampleBytes h (if isClear then 0 else Nat.pow 2 h.depth - 1)

/-- A color table that is needed has to be there, and its last color has to be complete. -/
def checkTable (p : Preamble) : Except Fault Unit :=
  match p.header.hasTable, p.table with
  | false, _ => .ok ()
  | true, none => .error .malformed
  | true, some table => if table.size % 3 = 0 then .ok () else .error (.brokenTable (table.size % 3))

def rowPixels (p : Preamble) (width : Nat) (row : Array UInt8) : Except Fault (List (List UInt8)) := do
  checkTable p
  return (List.range width).map (pixelBytes p row)

/-- `count` rows of `width` pixels, from a position of the image data on, and the position after them. -/
def rowsFrom (p : Preamble) (data : Array UInt8) (width : Nat) (above : Array UInt8) (i : Nat) :
    Nat → Except Fault (List (List (List UInt8)) × Nat)
  | 0 => .ok ([], i)
  | count + 1 => do
    let next := i + 1 + p.header.rowBytes width
    if data.size < next then throw .brokenOff
    let reach := (p.header.bitsPerPixel + 7) / 8
    let row ← unfilter (data.getD i 0).toNat reach above (data.extract (i + 1) next)
    let pixels ← rowPixels p width row
    let (rows, finish) ← rowsFrom p data width row next count
    return (pixels :: rows, finish)

/-- The rows of all passes. A pass without pixels has no rows. -/
def passRows (p : Preamble) (data : Array UInt8) :
    Nat → List Pass → Except Fault (List (Pass × List (List (List UInt8))))
  | _, [] => .ok []
  | i, pass :: rest =>
    let width := pass.width p.header
    let height := pass.height p.header
    if width = 0 ∨ height = 0 then passRows p data i rest
    else do
      let (rows, next) ← rowsFrom p data width #[] i height
      return (pass, rows) :: (← passRows p data next rest)

end TwoBitAlpha.Png
