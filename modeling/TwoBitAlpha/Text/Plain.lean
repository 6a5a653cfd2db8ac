/-!
Text without what a terminal would act on: control characters other than blanks, and control sequences, which
begin with the escape character.

A sequence is left at its last character. A blank in the middle of one is kept, and so is the plain text right
after it; the sequence goes on with the next character that is dropped.
-/

namespace TwoBitAlpha.Text

/-- Where in a control sequence a text is. -/
inductive Sequence where
  /-- In no sequence. -/
  | outside
  /-- After the escape character. -/
  | escape
  /-- After an escape and characters that only lead on to the last one. -/
  | escapeMore
  | control
  /-- At the beginning of a device string, among its parameters, and after those. -/
  | device
  | deviceParameter
  | deviceMore
  /-- In a text for a device, up to its terminator. -/
  | deviceText
  /-- In a command for the system, up to a bell. -/
  | command
  deriving DecidableEq

def escapeChar : Char := '\x1b'

def isLayout (c : Char) : Bool := c == '\t' || c == '\n' || c == '\x0c' || c == '\r'

def isKept (c : Char) : Bool := isLayout c || (c.toNat ≥ 0x20 && c.toNat != 0x7F)

def isWithin (c first last : Char) : Bool := first ≤ c && c ≤ last

/-- Whether the byte `0x9C`, which ends a text for a device, is in the coding of a character. -/
def hasTerminator (c : Char) : Bool := (String.utf8EncodeChar c).contains 0x9C

namespace Sequence

def afterEscape (c : Char) : Sequence :=
  if c = '[' then control
  else if c = ']' then command
  else if c = 'P' then device
  else if c = 'X' ∨ c = '^' ∨ c = '_' then deviceText
  else if isWithin c ' ' '/' then escapeMore
  else if isWithin c '0' '~' then outside
  else escape

def keeps : Sequence → Char → Bool
  | outside, c => isKept c
  | escape, c | escapeMore, c | control, c => isLayout c
  | _, _ => false

def after (s : Sequence) (c : Char) : Sequence :=
  if c = escapeChar then escape
  else if c = '\x18' ∨ c = '\x1a' then outside
  else
    match s with
    | outside => outside
    | escape => afterEscape c
    | escapeMore => if isWithin c '0' '~' then outside else escapeMore
    | control => if isWithin c '@' '~' then outside else control
    | device =>
      if isWithin c ' ' '/' then deviceMore
      else if isWithin c '0' '?' then deviceParameter
      else if isWithin c '@' '~' then deviceText
      else device
    | deviceParameter =>
      if isWithin c ' ' '/' then deviceMore
      else if isWithin c '<' '~' then deviceText
      else deviceParameter
    | deviceMore => if isWithin c '0' '~' then deviceText else deviceMore
    | deviceText => if hasTerminator c then outside else deviceText
    | command => if c = '\x07' then outside else command

/-- The place after a character that is kept. Other characters than those of ASCII end every sequence. -/
def afterKept (s : Sequence) (c : Char) : Sequence := if c.toNat < 0x80 then s else outside

end Sequence

/-- The characters that are kept of a text. The flag tells whether the character before was kept; then this one
is taken as if it stood outside of all sequences. -/
def plainFrom (s : Sequence) (keeping : Bool) : List Char → List Char
  | [] => []
  | c :: rest =>
    if (if keeping then Sequence.outside else s).keeps c then
      c :: plainFrom (s.afterKept c) true rest
    else plainFrom (s.after c) false rest

def plain (s : String) : String := String.ofList (plainFrom .outside false s.toList)

end TwoBitAlpha.Text
