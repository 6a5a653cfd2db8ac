import TwoBitAlpha.CArray
import TwoBitAlpha.Proofs.PackedMap.Access
import TwoBitAlpha.Proofs.Sink

/-!
The text of a C array, line by line.

Every line holds printable ASCII characters only, so the text has a newline at the end of each line and nowhere else.
The bytes of the map are told in full lines of sixteen values and one last line of at least one.
-/

namespace TwoBitAlpha

namespace Hex

theorem digit_mem {n : Nat} (h : n < 16) : digit n ∈ "0123456789abcdef".toList := by
  have all : ∀ k : Fin 16, digit k.val ∈ "0123456789abcdef".toList := by decide
  exact all ⟨n, h⟩

theorem mem_digits {places n : Nat} {c : Char} (member : c ∈ digits places n) :
    c ∈ "0123456789abcdef".toList := by
  induction places generalizing n with
  | zero => cases member
  | succ places ih =>
      rw [digits, List.mem_append, List.mem_singleton] at member
      rcases member with front | rfl
      · exact ih front
      · exact digit_mem (Nat.mod_lt n (by decide))

end Hex

namespace CArray

variable {symbol : String}

theorem write_eq_putBytes (m : PackedMap) (symbol : String) :
    write m symbol = Sink.putBytes (text m symbol).toUTF8.data := Sink.forM_putLine (lines m symbol)

theorem collect_write (m : PackedMap) (symbol : String) :
    (write m symbol).collect none = (.ok (), (text m symbol).toUTF8.data) := by
  rw [write_eq_putBytes, Sink.collect_putBytes_none]

theorem toList_canvas_text (c : Canvas) :
    c.text.toList = Nat.toDigits 10 c.width.toNat ++ ("x".toList ++ Nat.toDigits 10 c.height.toNat) := by
  have text : c.text = Nat.repr c.width.toNat ++ "x" ++ Nat.repr c.height.toNat := rfl
  rw [text, String.toList_append, String.toList_append, Nat.toList_repr, Nat.toList_repr, List.append_assoc]

theorem toList_commentLine (m : PackedMap) :
    (commentLine m).toList = "// ".toList ++ (m.canvas.text.toList ++
      (" alpha map, 2 bits per pixel, crc32 0x".toList ++ Hex.digits 8 m.checksum.toNat)) := by
  have text : commentLine m =
      "// " ++ m.canvas.text ++ " alpha map, 2 bits per pixel, crc32 0x" ++ Hex.ofWord m.checksum := rfl
  simp only [text, Hex.ofWord, String.toList_append, String.toList_ofList, List.append_assoc]

theorem toList_declarationLine (m : PackedMap) (symbol : String) :
    (declarationLine m symbol).toList = "const unsigned char ".toList ++ (symbol.toList ++
      ("[".toList ++ (Nat.toDigits 10 m.length ++ "] = \x7b".toList))) := by
  have text : declarationLine m symbol =
      "const unsigned char " ++ symbol ++ "[" ++ Nat.repr m.length ++ ("] = " ++ "\x7b") :=
    String.append_assoc
  simp only [text, String.toList_append, Nat.toList_repr, List.append_assoc]
  rfl

def valueText (b : UInt8) : List Char := '0' :: 'x' :: Hex.digits 2 b.toNat

theorem toList_valueLine (bytes : List UInt8) :
    (valueLine bytes).toList = "    ".toList ++ (", ".toList.intercalate (bytes.map valueText) ++ [',']) := by
  have value : String.toList ∘ (fun b => "0x" ++ Hex.ofByte b) = valueText := by
    funext b
    simp only [Function.comp_apply, String.toList_append, Hex.ofByte, String.toList_ofList]
    rfl
  rw [valueLine, String.toList_append, String.toList_append, String.toList_intercalate, List.map_map, value,
    List.append_assoc]
  rfl

/-- Only the characters from the blank to the tilde, which are the printable ones of ASCII. -/
def isPrintable (l : List Char) : Bool := l.all fun c => 32 ≤ c.toNat && c.toNat ≤ 126

section
variable {l k : List Char} {c : Char}

theorem isPrintable_iff : isPrintable l = true ↔ ∀ c ∈ l, 32 ≤ c.toNat ∧ c.toNat ≤ 126 := by
  simp only [isPrintable, List.all_eq_true, Bool.and_eq_true, decide_eq_true_eq]

@[simp] theorem isPrintable_append : isPrintable (l ++ k) = (isPrintable l && isPrintable k) :=
  List.all_append

theorem printable_of_isAlphanum (h : c.isAlphanum = true) : 32 ≤ c.toNat ∧ c.toNat ≤ 126 := by
  have ranges : (decide ('A'.val ≤ c.val ∧ c.val ≤ 'Z'.val) || ('a'.val ≤ c.val && c.val ≤ 'z'.val) ||
      ('0'.val ≤ c.val && c.val ≤ '9'.val)) = true := h
  simp only [Bool.or_eq_true, Bool.and_eq_true, decide_eq_true_eq, UInt32.le_iff_toNat_le] at ranges
  have letters : 'A'.val.toNat = 65 ∧ 'Z'.val.toNat = 90 ∧ 'a'.val.toNat = 97 ∧ 'z'.val.toNat = 122 := by decide
  have digits : '0'.val.toNat = 48 ∧ '9'.val.toNat = 57 := by decide
  rw [Char.toNat]
  omega

theorem isPrintable_toDigits (n : Nat) : isPrintable (Nat.toDigits 10 n) = true := by
  rw [isPrintable_iff]
  intro c member
  have digit := Nat.isDigit_of_mem_toDigits (by decide) (by decide) member
  apply printable_of_isAlphanum
  rw [Char.isAlphanum, digit, Bool.or_true]

theorem isPrintable_digits (places n : Nat) : isPrintable (Hex.digits places n) = true := by
  have alphabet : isPrintable "0123456789abcdef".toList = true := by decide
  rw [isPrintable_iff] at alphabet ⊢
  exact fun c member => alphabet c (Hex.mem_digits member)

theorem mem_of_isIdentifier (named : isIdentifier symbol = true) (member : c ∈ symbol.toList) :
    (c.isAlphanum || c == '_') = true := by
  rw [isIdentifier] at named
  split at named
  · cases named
  · rename_i first rest chars
    rw [chars] at member
    rw [Bool.and_eq_true] at named
    rcases List.mem_cons.mp member with rfl | further
    · rw [Char.isAlphanum, Bool.or_right_comm, named.1, Bool.true_or]
    · exact List.all_eq_true.mp named.2 c further

theorem isPrintable_symbol (named : isIdentifier symbol = true) : isPrintable symbol.toList = true := by
  rw [isPrintable_iff]
  intro c member
  rcases Bool.or_eq_true_iff.mp (mem_of_isIdentifier named member) with alphanumeric | underscore
  · exact printable_of_isAlphanum alphanumeric
  · rw [eq_of_beq underscore]
    decide

theorem isPrintable_intercalate {parts : List (List Char)} (separator : isPrintable l = true)
    (all : ∀ part ∈ parts, isPrintable part = true) : isPrintable (l.intercalate parts) = true := by
  induction parts with
  | nil => rfl
  | cons part rest ih =>
      have first := all part List.mem_cons_self
      have others := ih fun other member => all other (List.mem_cons_of_mem part member)
      cases rest with
      | nil => rwa [List.intercalate_singleton]
      | cons next rest =>
          rw [List.intercalate_cons_cons, isPrintable_append, isPrintable_append, first, separator, others]
          rfl

end

theorem isPrintable_commentLine (m : PackedMap) : isPrintable (commentLine m).toList = true := by
  have between : isPrintable " alpha map, 2 bits per pixel, crc32 0x".toList = true := by decide
  simp only [toList_commentLine, toList_canvas_text, isPrintable_append, isPrintable_toDigits, isPrintable_digits,
    between]
  rfl

theorem isPrintable_declarationLine (m : PackedMap) (named : isIdentifier symbol = true) :
    isPrintable (declarationLine m symbol).toList = true := by
  simp only [toList_declarationLine, isPrintable_append, isPrintable_symbol named, isPrintable_toDigits]
  rfl

theorem isPrintable_valueLine (bytes : List UInt8) : isPrintable (valueLine bytes).toList = true := by
  have values : isPrintable (", ".toList.intercalate (bytes.map valueText)) = true := by
    refine isPrintable_intercalate rfl ?_
    intro part member
    obtain ⟨b, _, rfl⟩ := List.mem_map.mp member
    exact isPrintable_digits 2 b.toNat
  rw [toList_valueLine, isPrintable_append, isPrintable_append, values]
  rfl

/-- The bytes of a map, as they stand in the value lines. -/
def valueRows (m : PackedMap) : List (List UInt8) :=
  (Span.cut m.length valuesPerLine).map fun span => span.read m.bytes

theorem lines_eq (m : PackedMap) (symbol : String) :
    lines m symbol =
      commentLine m :: declarationLine m symbol :: ((valueRows m).map valueLine ++ [closingLine]) := by
  rw [lines, valueRows, List.map_map]
  rfl

theorem valueRows_eq (m : PackedMap) :
    valueRows m =
      (List.range ((m.length + 15) / 16)).map fun k => (m.bytes.toList.drop (k * 16)).take 16 :=
  Span.map_read_cut m.bytes 16

theorem flatten_valueRows (m : PackedMap) : (valueRows m).flatten = m.bytes.toList := by
  have enough : m.bytes.toList.length ≤ (m.length + 15) / 16 * 16 := by
    rw [Array.length_toList]
    change m.length ≤ _
    omega
  rw [valueRows_eq, ← List.flatMap_def, flatMap_take_drop, List.take_of_length_le enough]

/-- All rows are full but the last, which has at least one byte. -/
theorem valueRows_split (m : PackedMap) :
    ∃ full last, valueRows m = full ++ [last] ∧ full.length + 1 = (m.length + 15) / 16 ∧
      (∀ row ∈ full, row.length = 16) ∧ 1 ≤ last.length ∧ last.length ≤ 16 := by
  have some_byte : 0 < m.length := m.length_pos
  obtain ⟨n, count⟩ : ∃ n, (m.length + 15) / 16 = n + 1 := ⟨(m.length + 15) / 16 - 1, by omega⟩
  have length_row : ∀ k, ((m.bytes.toList.drop (k * 16)).take 16).length = min 16 (m.length - k * 16) := by
    intro k
    rw [List.length_take, List.length_drop, Array.length_toList]
    rfl
  refine ⟨(List.range n).map fun k => (m.bytes.toList.drop (k * 16)).take 16, (m.bytes.toList.drop (n * 16)).take 16,
    ?_, ?_, ?_, ?_, ?_⟩
  · rw [valueRows_eq, count, List.range_succ, List.map_append, List.map_singleton]
  · rw [List.length_map, List.length_range, count]
  · intro row member
    obtain ⟨k, within, rfl⟩ := List.mem_map.mp member
    have below := List.mem_range.mp within
    rw [length_row]
    omega
  · rw [length_row]
    omega
  · rw [length_row]
    omega

end CArray

end TwoBitAlpha
