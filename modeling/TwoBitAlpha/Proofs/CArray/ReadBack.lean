import TwoBitAlpha.Proofs.CArray.Text
import TwoBitAlpha.Proofs.Conversion

/-!
Reading a C array back from its text.

One reader recovers everything that the text was made of. It goes by the words around each part, and none of them can
be taken for a part: a number ends at the first character that is no digit, a name at the bracket after it, and a value
is the only thing in a value line that begins with a zero.
-/

namespace TwoBitAlpha

namespace Hex

def valueOf (c : Char) : Nat := if c.isDigit then c.toNat - '0'.toNat else c.toNat - 'a'.toNat + 10

/-- The value of a text of digits, the highest first. -/
def value (l : List Char) : Nat := l.foldl (fun n c => 16 * n + valueOf c) 0

theorem valueOf_digit {n : Nat} (h : n < 16) : valueOf (digit n) = n := by
  have all : ∀ k : Fin 16, valueOf (digit k.val) = k.val := by decide
  exact all ⟨n, h⟩

theorem value_digits (places n : Nat) : value (digits places n) = n % 16 ^ places := by
  induction places generalizing n with
  | zero => exact (Nat.mod_one n).symm
  | succ places ih =>
      have last : value (digits places (n / 16) ++ [digit (n % 16)]) =
          16 * value (digits places (n / 16)) + valueOf (digit (n % 16)) := by
        rw [value, List.foldl_append]
        rfl
      rw [digits, last, ih, valueOf_digit (Nat.mod_lt n (by decide)), Nat.pow_succ', Nat.mod_mul, Nat.add_comm]

end Hex

namespace CArray

structure Listing where
  width : Nat
  height : Nat
  checksum : Nat
  symbol : String
  length : Nat
  values : List UInt8
  deriving DecidableEq

/-- What comes after the characters that have to come first. -/
def skip : List Char → List Char → Option (List Char)
  | [], s => some s
  | _ :: _, [] => none
  | c :: expected, d :: s => if c = d then skip expected s else none

/-- A number, and what comes after its digits. -/
def readNumber (s : List Char) : Nat × List Char :=
  (Nat.ofDigitChars 10 (s.takeWhile Char.isDigit) 0, s.dropWhile Char.isDigit)

/-- Every value that is told as `0x` and two digits. -/
def readValues : List Char → List UInt8
  | '0' :: 'x' :: high :: low :: rest => UInt8.ofNat (Hex.value [high, low]) :: readValues rest
  | _ :: rest => readValues rest
  | [] => []

def inName (c : Char) : Bool := c.isAlphanum || c == '_'

/-- A name, and what comes after it. -/
def readName (s : List Char) : String × List Char := (String.ofList (s.takeWhile inName), s.dropWhile inName)

def Listing.ofText (text : String) : Option Listing := do
  let s ← skip "// ".toList text.toList
  let (width, s) := readNumber s
  let s ← skip "x".toList s
  let (height, s) := readNumber s
  let s ← skip " alpha map, 2 bits per pixel, crc32 0x".toList s
  let checksum := Hex.value (s.take 8)
  let s ← skip "\nconst unsigned char ".toList (s.drop 8)
  let (symbol, s) := readName s
  let s ← skip "[".toList s
  let (length, s) := readNumber s
  let s ← skip "] = \x7b\n".toList s
  return { width, height, checksum, symbol, length, values := readValues s }

def listing (m : PackedMap) (symbol : String) : Listing where
  width := m.canvas.width.toNat
  height := m.canvas.height.toNat
  checksum := m.checksum.toNat
  symbol := symbol
  length := m.length
  values := m.bytes.toList

section
variable {m n : PackedMap} {symbol other : String} {rest : List Char}

theorem skip_append (expected rest : List Char) : skip expected (expected ++ rest) = some rest := by
  induction expected with
  | nil => rfl
  | cons c expected ih => rw [List.cons_append, skip, if_pos rfl, ih]

/-- A run of characters of one kind ends where a character of another kind comes next. -/
theorem span_append {kind : Char → Bool} {l rest : List Char} (all : ∀ c ∈ l, kind c = true)
    (ends : rest.head?.all (fun c => !kind c) = true) :
    (l ++ rest).takeWhile kind = l ∧ (l ++ rest).dropWhile kind = rest := by
  rw [List.takeWhile_append_of_pos all, List.dropWhile_append_of_pos all]
  cases rest with
  | nil => exact ⟨List.append_nil l, rfl⟩
  | cons c rest =>
      have other : ¬ kind c = true := by
        intro same
        rw [List.head?_cons, Option.all_some, same] at ends
        cases ends
      rw [List.takeWhile_cons_of_neg other, List.dropWhile_cons_of_neg other, List.append_nil]
      exact ⟨rfl, rfl⟩

theorem readNumber_toDigits (n : Nat) (ends : rest.head?.all (fun c => !c.isDigit) = true) :
    readNumber (Nat.toDigits 10 n ++ rest) = (n, rest) := by
  obtain ⟨digits, after⟩ := span_append (l := Nat.toDigits 10 n)
    (fun _ => Nat.isDigit_of_mem_toDigits (by decide) (by decide)) ends
  rw [readNumber, digits, after, Nat.ofDigitChars_ten_toDigits]

theorem readName_symbol (named : isIdentifier symbol = true) (ends : rest.head?.all (fun c => !inName c) = true) :
    readName (symbol.toList ++ rest) = (symbol, rest) := by
  have characters : ∀ c ∈ symbol.toList, inName c = true := fun _ => mem_of_isIdentifier named
  obtain ⟨name, after⟩ := span_append characters ends
  rw [readName, name, after, String.ofList_toList]

theorem readValues_skip {l : List Char} (plain : l.all (· != '0') = true) (rest : List Char) :
    readValues (l ++ rest) = readValues rest := by
  induction l with
  | nil => rfl
  | cons c l ih =>
      rw [List.all_cons, Bool.and_eq_true, bne_iff_ne] at plain
      -- A value begins with a zero, so the first character is none of a value.
      rw [List.cons_append, readValues, ih plain.2]
      intro _ _ _ zero
      exact absurd zero plain.1

theorem readValues_valueText (b : UInt8) (rest : List Char) :
    readValues (valueText b ++ rest) = b :: readValues rest := by
  have byte : UInt8.ofNat (Hex.value (Hex.digits 2 b.toNat)) = b := by
    rw [Hex.value_digits]
    exact (congrArg UInt8.ofNat (Nat.mod_eq_of_lt b.toNat_lt)).trans UInt8.ofNat_toNat
  exact congrArg (· :: readValues rest) byte

theorem readValues_intercalate (bytes : List UInt8) (rest : List Char) :
    readValues (", ".toList.intercalate (bytes.map valueText) ++ rest) =
      bytes ++ readValues rest := by
  induction bytes with
  | nil => rfl
  | cons b bytes ih =>
      cases bytes with
      | nil =>
          rw [List.map_singleton, List.intercalate_singleton]
          exact readValues_valueText b rest
      | cons next bytes =>
          rw [List.map_cons, List.map_cons, List.intercalate_cons_cons, ← List.map_cons, List.append_assoc,
            List.append_assoc, readValues_valueText, readValues_skip (by decide), ih]
          rfl

theorem readValues_valueLine (bytes : List UInt8) (rest : List Char) :
    readValues ((valueLine bytes).toList ++ '\n' :: rest) = bytes ++ readValues rest := by
  rw [toList_valueLine, List.append_assoc, List.append_assoc, readValues_skip (by decide),
    readValues_intercalate]
  exact congrArg (bytes ++ ·) (readValues_skip (l := [',', '\n']) (by decide) rest)

theorem readValues_lines (rows : List (List UInt8)) :
    readValues (String.join ((rows.map valueLine ++ [closingLine]).map (· ++ "\n"))).toList = rows.flatten := by
  induction rows with
  | nil => exact readValues_skip (l := "\x7d;\n".toList) (by decide) []
  | cons row rows ih =>
      rw [List.map_cons, List.cons_append, List.map_cons, String.join_cons, String.toList_append,
        String.toList_append, List.append_assoc]
      exact (readValues_valueLine row _).trans (congrArg (row ++ ·) ih)

theorem toList_text (m : PackedMap) (symbol : String) :
    (text m symbol).toList =
      "// ".toList ++ (Nat.toDigits 10 m.canvas.width.toNat ++ ("x".toList ++
        (Nat.toDigits 10 m.canvas.height.toNat ++ (" alpha map, 2 bits per pixel, crc32 0x".toList ++
        (Hex.digits 8 m.checksum.toNat ++ ("\nconst unsigned char ".toList ++ (symbol.toList ++ ("[".toList ++
        (Nat.toDigits 10 m.length ++ ("] = \x7b\n".toList ++
          (String.join (((valueRows m).map valueLine ++ [closingLine]).map (· ++ "\n"))).toList)))))))))) := by
  rw [text, lines_eq, List.map_cons, List.map_cons, String.join_cons, String.join_cons]
  simp only [String.toList_append, toList_commentLine, toList_declarationLine, toList_canvas_text,
    List.append_assoc]
  rfl

theorem ofText_text (m : PackedMap) (named : isIdentifier symbol = true) :
    Listing.ofText (text m symbol) = some (listing m symbol) := by
  have checksum : Hex.value (Hex.digits 8 m.checksum.toNat) = m.checksum.toNat := by
    rw [Hex.value_digits]
    exact Nat.mod_eq_of_lt m.checksum.toNat_lt
  have eight : (Hex.digits 8 m.checksum.toNat).length = 8 := Hex.length_digits 8 _
  rw [Listing.ofText, toList_text]
  -- Each word is skipped, and the number or the name before it has ended where it begins.
  simp only [skip_append, Option.bind_eq_bind, Option.bind_some]
  rw [readNumber_toDigits _ rfl]
  simp only [skip_append, Option.bind_some]
  rw [readNumber_toDigits _ rfl]
  simp only [skip_append, Option.bind_some, List.take_left' eight, List.drop_left' eight]
  rw [readName_symbol named rfl]
  simp only [skip_append, Option.bind_some]
  rw [readNumber_toDigits _ rfl]
  simp only [skip_append, Option.bind_some, checksum, readValues_lines, flatten_valueRows]
  rfl

theorem listing_inj (same : listing m symbol = listing n other) : m = n ∧ symbol = other := by
  have width : m.canvas.width = n.canvas.width := UInt32.toNat.inj (congrArg Listing.width same)
  have height : m.canvas.height = n.canvas.height := UInt32.toNat.inj (congrArg Listing.height same)
  have canvas : m.canvas = n.canvas := Canvas.eq_of_size_eq width height
  refine ⟨PackedMap.eq_of_bytes_eq canvas ?_, congrArg Listing.symbol same⟩
  exact Array.toList_inj.mp (congrArg Listing.values same)

theorem text_inj (named : isIdentifier symbol = true) (also : isIdentifier other = true) :
    text m symbol = text n other ↔ m = n ∧ symbol = other := by
  constructor
  · intro same
    apply listing_inj
    apply Option.some.inj
    rw [← ofText_text m named, ← ofText_text n also, same]
  · rintro ⟨rfl, rfl⟩
    rfl

/-- How the lines of an array stand: a comment and the declaration, full rows of sixteen values, one last row, and the
closing brace. -/
structure IsLayout (m : PackedMap) (symbol : String) (full : List (List UInt8)) (last : List UInt8) : Prop where
  order : lines m symbol =
    commentLine m :: declarationLine m symbol :: ((full ++ [last]).map valueLine ++ ["\x7d;"])
  rows : full.length + 1 = (m.length + 15) / 16
  filled : ∀ row ∈ full, row.length = 16
  rest : 1 ≤ last.length ∧ last.length ≤ 16
  bytes : (full ++ [last]).flatten = m.bytes.toList

theorem exists_layout (m : PackedMap) (symbol : String) : ∃ full last, IsLayout m symbol full last := by
  obtain ⟨full, last, rows, count, all, some_byte, fits⟩ := valueRows_split m
  refine ⟨full, last, ?_, count, all, ⟨some_byte, fits⟩, ?_⟩
  · rw [lines_eq, rows, closingLine]
  · rw [← rows, flatten_valueRows]

theorem isPrintable_lines (m : PackedMap) (named : isIdentifier symbol = true) :
    ∀ line ∈ lines m symbol, isPrintable line.toList = true := by
  rw [lines_eq]
  simp only [List.forall_mem_cons, List.forall_mem_append, List.forall_mem_map]
  refine ⟨isPrintable_commentLine m, isPrintable_declarationLine m named, fun row _ => isPrintable_valueLine row,
    rfl, ?_⟩
  intro line none
  cases none

theorem ascii_text (m : PackedMap) (named : isIdentifier symbol = true) :
    ∀ c ∈ (text m symbol).toList, c.toNat < 128 := by
  intro c member
  rw [text, String.toList_join, List.mem_flatMap] at member
  obtain ⟨_, told, within⟩ := member
  obtain ⟨line, there, rfl⟩ := List.mem_map.mp told
  rw [String.toList_append, List.mem_append] at within
  rcases within with inside | newline
  · have printable := isPrintable_iff.mp (isPrintable_lines m named line there) c inside
    omega
  · have last : c = '\n' := List.mem_singleton.mp newline
    rw [last]
    decide

end

/-- What an array's text is, for each map and each name that it can have: what a sink without a limit receives, lines of
printable characters in a fixed layout, and a text that one reader takes back to the map and the name. -/
theorem read_back (m : PackedMap) {symbol : String} (named : isIdentifier symbol = true) :
    (write m symbol).collect none = (.ok (), (text m symbol).toUTF8.data) ∧
    Listing.ofText (text m symbol) = some {
      width := m.canvas.width.toNat
      height := m.canvas.height.toNat
      checksum := m.checksum.toNat
      symbol := symbol
      length := m.length
      values := m.bytes.toList } ∧
    m.bytes.toList.length = m.length ∧
    (∀ (n : PackedMap) {other : String}, isIdentifier other = true →
      (text m symbol = text n other ↔ m = n ∧ symbol = other)) ∧
    (∀ c ∈ (text m symbol).toList, c.toNat < 128) ∧
    text m symbol = String.join ((lines m symbol).map (· ++ "\n")) ∧
    (∀ line ∈ lines m symbol, isPrintable line.toList = true) ∧
    (∃ full last, IsLayout m symbol full last) ∧
    ∀ b, (Hex.ofByte b).toList.length = 2 ∧ ∀ c ∈ (Hex.ofByte b).toList, c ∈ "0123456789abcdef".toList := by
  refine ⟨collect_write m symbol, ofText_text m named, Array.length_toList, fun n _ also => text_inj named also,
    ascii_text m named, rfl, isPrintable_lines m named, exists_layout m symbol, ?_⟩
  intro b
  rw [Hex.ofByte, String.toList_ofList]
  exact ⟨Hex.length_digits 2 _, fun c => Hex.mem_digits⟩

/-- One byte on the smallest canvas, under the shortest name. -/
theorem read_back_one_byte :
    isIdentifier "_" = true ∧
      Listing.ofText (text ⟨⟨1, 1, by decide, by decide⟩, #[64], by rfl⟩ "_") =
        some ⟨1, 1, (Crc32.ofBytes #[64]).toNat, "_", 1, [64]⟩ :=
  ⟨by decide, (read_back _ (by decide)).2.1⟩

end CArray

end TwoBitAlpha
