import TwoBitAlpha.Toml.Blank

/-!
Text between quotation marks, in its four forms: with or without escapes, on one line or on several.

Each form is read unit by unit. A unit is a plain character, an escape or a line end, and takes at least one
character of the source, which is why the loops end.
-/

namespace TwoBitAlpha.Toml

def isHexDigit (c : Char) : Bool :=
  c.isDigit || ('a' ≤ c && c ≤ 'f') || ('A' ≤ c && c ≤ 'F')

def digitValue (c : Char) : Nat :=
  if c.isDigit then c.toNat - '0'.toNat
  else if 'a' ≤ c && c ≤ 'f' then c.toNat - 'a'.toNat + 10
  else c.toNat - 'A'.toNat + 10

def numberOf (base : Nat) (digits : List Char) : Nat :=
  digits.foldl (fun n d => n * base + digitValue d) 0

def numberedChar (places : Nat) (s : List Char) : Option (Char × List Char) :=
  let digits := s.take places
  let n := numberOf 16 digits
  if digits.length = places ∧ digits.all isHexDigit ∧ n.isValidChar then
    some (Char.ofNat n, s.drop places)
  else none

/-- An escape, without its backslash. -/
def escape : Reader Char
  | 'b' :: rest => some ('\x08', rest)
  | 't' :: rest => some ('\t', rest)
  | 'n' :: rest => some ('\n', rest)
  | 'f' :: rest => some ('\x0c', rest)
  | 'r' :: rest => some ('\r', rest)
  | '"' :: rest => some ('"', rest)
  | '\\' :: rest => some ('\\', rest)
  | 'u' :: rest => numberedChar 4 rest
  | 'U' :: rest => numberedChar 8 rest
  | _ => none

theorem length_numberedChar_le {places : Nat} {s rest : List Char} {c : Char}
    (h : numberedChar places s = some (c, rest)) : rest.length ≤ s.length := by
  unfold numberedChar at h
  simp only at h
  split at h
  · cases h; simp
  · cases h

theorem shrinks_escape : Shrinks escape := by
  intro s c rest h
  unfold escape at h
  split at h
  case h_8 | h_9 =>
    have := length_numberedChar_le h
    simp only [List.length_cons]
    omega
  all_goals cases h
  all_goals simp

def basicUnit : Reader (List Char)
  | [] => none
  | c :: rest =>
    if c = '\\' then (escape rest).map fun (d, rest) => ([d], rest)
    else if isPlain c && c != '"' then some ([c], rest)
    else none

theorem shrinks_basicUnit : Shrinks basicUnit := by
  intro s cs rest h
  unfold basicUnit at h
  split at h
  · cases h
  · split at h
    · obtain ⟨⟨d, r⟩, hd, he⟩ := Option.map_eq_some_iff.mp h
      cases he
      have := shrinks_escape _ _ _ hd
      simp only [List.length_cons]
      omega
    · split at h
      · cases h; simp
      · cases h

def literalUnit : Reader (List Char)
  | [] => none
  | c :: rest => if isPlain c && c != '\'' then some ([c], rest) else none

theorem shrinks_literalUnit : Shrinks literalUnit := by
  intro s cs rest h
  unfold literalUnit at h
  split at h
  · cases h
  · split at h
    · cases h; simp
    · cases h

/-- A backslash at the end of a line joins the lines: what follows it, without the blanks and line ends
there. -/
def lineJoin? (s : List Char) : Option (List Char) :=
  (newline? (skipBlank s)).map skipBlankLines

/-- Makes units of several lines out of units of one: a line end counts as a line feed. -/
def withNewlines (unit : Reader (List Char)) : Reader (List Char) := fun s =>
  match newline? s with
  | some rest => some (['\n'], rest)
  | none => unit s

def multiBasicUnit : Reader (List Char)
  | [] => none
  | c :: rest =>
    match if c = '\\' then lineJoin? rest else none with
    | some rest => some ([], rest)
    | none => withNewlines basicUnit (c :: rest)

theorem shrinks_withNewlines {unit : Reader (List Char)} (h : Shrinks unit) :
    Shrinks (withNewlines unit) := by
  intro s cs rest hs
  unfold withNewlines at hs
  split at hs
  · next hn => cases hs; exact length_newline? hn
  · exact h _ _ _ hs

theorem shrinks_multiBasicUnit : Shrinks multiBasicUnit := by
  intro s cs rest h
  unfold multiBasicUnit at h
  split at h
  · cases h
  · next c tail =>
    split at h
    · next joined hj =>
      cases h
      split at hj
      · obtain ⟨t, ht, he⟩ := Option.map_eq_some_iff.mp hj
        have h₁ := length_newline? ht
        have h₂ := length_skipBlank_le tail
        have h₃ := length_skipBlankLines_le t
        rw [he] at h₃
        simp only [List.length_cons]
        omega
      · cases hj
    · exact shrinks_withNewlines shrinks_basicUnit _ _ _ h

def untilQuote (quote : Char) (unit : Reader (List Char)) (shrinks : Shrinks unit)
    (s : List Char) : Option (List Char × List Char) :=
  if s.head? = some quote then some ([], s.drop 1)
  else
    match h : unit s with
    | none => none
    | some (cs, rest) =>
      have := shrinks s cs rest h
      (untilQuote quote unit shrinks rest).map fun (more, rest) => (cs ++ more, rest)
termination_by s.length

/-- The units up to three closing marks. One or two marks are part of the text if a unit follows, and up to two
more marks may stand just before the closing three. -/
def untilTriple (quote : Char) (unit : Reader (List Char)) (shrinks : Shrinks unit)
    (s : List Char) : Option (List Char × List Char) :=
  let marks := (s.takeWhile (· == quote)).length
  if marks ≥ 3 then
    let extra := min (marks - 3) 2
    some (List.replicate extra quote, s.drop (extra + 3))
  else
    match h : unit (s.drop marks) with
    | none => none
    | some (cs, rest) =>
      have : rest.length < s.length := by
        have := shrinks _ _ _ h
        rw [List.length_drop] at this
        omega
      (untilTriple quote unit shrinks rest).map fun (more, rest) =>
        (List.replicate marks quote ++ cs ++ more, rest)
termination_by s.length

def skipFirstNewline (s : List Char) : List Char := (newline? s).getD s

def quotation : Reader String := fun s =>
  let characters :=
    match s with
    | '"' :: '"' :: '"' :: rest =>
      untilTriple '"' multiBasicUnit shrinks_multiBasicUnit (skipFirstNewline rest)
    | '"' :: rest => untilQuote '"' basicUnit shrinks_basicUnit rest
    | '\'' :: '\'' :: '\'' :: rest =>
      untilTriple '\'' (withNewlines literalUnit) (shrinks_withNewlines shrinks_literalUnit)
        (skipFirstNewline rest)
    | '\'' :: rest => untilQuote '\'' literalUnit shrinks_literalUnit rest
    | _ => none
  characters.map fun (cs, rest) => (String.ofList cs, rest)

def lineQuotation : Reader String := fun s =>
  let characters :=
    match s with
    | '"' :: rest => untilQuote '"' basicUnit shrinks_basicUnit rest
    | '\'' :: rest => untilQuote '\'' literalUnit shrinks_literalUnit rest
    | _ => none
  characters.map fun (cs, rest) => (String.ofList cs, rest)

end TwoBitAlpha.Toml
