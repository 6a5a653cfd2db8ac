import TwoBitAlpha.Hex
import TwoBitAlpha.Proofs.Palette.Reading
import TwoBitAlpha.Proofs.Toml.Lines

/-!
Palettes that are written down and read back.

A palette is written as two lines, the name between quotation marks and the colors in decimal or hexadecimal notation,
after any number of comments. Reading such a text gives the palette, whatever the name looks like.
-/

namespace TwoBitAlpha

namespace Palette

/-- How a color is written down: in decimal, or with two hexadecimal digits, each of which may be in upper case. -/
inductive ColorForm where
  | decimal
  | hex (highUpper lowUpper : Bool)
  deriving DecidableEq

/-- A hexadecimal digit in one of its two cases. -/
def hexDigit (upper : Bool) (n : Nat) : Char := if upper then (Hex.digit n).toUpper else Hex.digit n

def ColorForm.text : ColorForm → UInt8 → String
  | decimal, color => Nat.repr color.toNat
  | hex highUpper lowUpper, color =>
    "0x" ++ String.ofList [hexDigit highUpper (color.toNat / 16), hexDigit lowUpper (color.toNat % 16)]

/-- A palette in two lines, with comments before them. -/
def plainText (comments : List String) (p : Palette) (forms : Vector ColorForm 4) : String :=
  String.join (comments.map fun body => "#" ++ body ++ "\n") ++ "name = \"" ++ p.name ++ "\"\n" ++
    "colors = [" ++ String.intercalate ", " (List.zipWith ColorForm.text forms.toList p.colors.toList) ++ "]\n"

/-- The control characters of ASCII. -/
def isControl (c : Char) : Bool := c.toNat < 0x20 || c.toNat == 0x7F

section
open Toml

theorem isPlain_of_not_isControl {c : Char} (visible : isControl c = false) : isPlain c = true := by
  rw [isControl, Bool.or_eq_false_iff, decide_eq_false_iff_not, beq_eq_false_iff_ne] at visible
  rw [isPlain, Bool.or_eq_true, Bool.and_eq_true, decide_eq_true_eq, bne_iff_ne]
  exact .inr ⟨Nat.le_of_not_lt visible.1, visible.2⟩

theorem isHexDigit_hexDigit (upper : Bool) {n : Nat} (n_lt : n < 16) : isHexDigit (hexDigit upper n) = true := by
  have all : ∀ (upper : Bool) (k : Fin 16), isHexDigit (hexDigit upper k.val) = true := by decide
  exact all upper ⟨n, n_lt⟩

theorem digitValue_hexDigit (upper : Bool) {n : Nat} (n_lt : n < 16) : digitValue (hexDigit upper n) = n := by
  have all : ∀ (upper : Bool) (k : Fin 16), digitValue (hexDigit upper k.val) = k.val := by decide
  exact all upper ⟨n, n_lt⟩

theorem begins_of_digit {c : Char} (digit : c.isDigit = true) :
    isBlank c = false ∧ c ∉ ['\n', '\r', '#', ']'] := by
  refine ⟨isBlank_of_class digit rfl rfl, ?_⟩
  simp only [List.mem_cons, List.not_mem_nil, or_false, not_or]
  exact ⟨ne_of_class digit rfl, ne_of_class digit rfl, ne_of_class digit rfl, ne_of_class digit rfl⟩

/-- The two marks of an array end a number of either notation. -/
theorem ends_of_mark {mark : Char} (member : mark ∈ [',', ']']) :
    EndsWhole mark ∧ mark ∉ ['x', 'o', 'b'] ∧ isHexDigit mark = false ∧ mark ≠ '_' := by
  rw [List.mem_cons, List.mem_singleton] at member
  rcases member with rfl | rfl
  · exact ⟨⟨rfl, by decide⟩, by decide, rfl, by decide⟩
  · exact ⟨⟨rfl, by decide⟩, by decide, rfl, by decide⟩

theorem isItem_decimal (depth : Nat) {n : Nat} (small : n < 2 ^ 63) :
    IsItem (value depth) (Nat.toDigits 10 n) (.integer n) := by
  have whole := isWhole_toDigits n
  refine ⟨?_, ?_⟩
  · obtain ⟨d, front, same, digit⟩ := whole.head
    exact ⟨d, front, same, begins_of_digit digit⟩
  · intro mark member more
    obtain ⟨ends, noBase, _⟩ := ends_of_mark member
    rw [value_run depth whole ends, integer_run whole ends noBase, numberOf_toDigits]
    exact integerOf_small small

theorem isItem_hex (depth : Nat) (highUpper lowUpper : Bool) {n : Nat} (n_lt : n < 256) :
    IsItem (value depth) ['0', 'x', hexDigit highUpper (n / 16), hexDigit lowUpper (n % 16)] (.integer n) := by
  have high_lt : n / 16 < 16 := by omega
  have low_lt : n % 16 < 16 := by omega
  refine ⟨⟨'0', _, rfl, by decide⟩, ?_⟩
  intro mark member more
  obtain ⟨_, _, ends, apart⟩ := ends_of_mark member
  have base : EndsWhole 'x' := ⟨rfl, by decide⟩
  have run : ∀ d ∈ [hexDigit highUpper (n / 16), hexDigit lowUpper (n % 16)], isHexDigit d = true := by
    intro d digit
    rw [List.mem_cons, List.mem_singleton] at digit
    rcases digit with rfl | rfl
    · exact isHexDigit_hexDigit highUpper high_lt
    · exact isHexDigit_hexDigit lowUpper low_lt
  have number : numberOf 16 [hexDigit highUpper (n / 16), hexDigit lowUpper (n % 16)] = n := by
    change (0 * 16 + digitValue _) * 16 + digitValue _ = n
    rw [digitValue_hexDigit highUpper high_lt, digitValue_hexDigit lowUpper low_lt]
    omega
  -- The zero of the base is a whole number on its own, which the letter ends.
  change value depth (['0'] ++ 'x' :: _) = _
  rw [value_run depth isWhole_zero base]
  change integer ('0' :: 'x' :: ([_, _] ++ mark :: more)) = _
  rw [integer_hex run (List.cons_ne_nil _ _) ends apart, number]
  exact integerOf_small (by omega)

/-- A color is the same item in either notation. -/
theorem isItem_color (depth : Nat) (form : ColorForm) (color : UInt8) :
    IsItem (value depth) (form.text color).toList (colorValue color) := by
  have color_lt := color.toNat_lt
  cases form with
  | decimal =>
      rw [ColorForm.text, Nat.toList_repr]
      exact isItem_decimal depth (by omega)
  | hex highUpper lowUpper =>
      simp only [ColorForm.text, String.toList_append, String.toList_ofList]
      exact isItem_hex depth highUpper lowUpper color_lt

theorem forall₂_color (depth : Nat) {forms : List ColorForm} {colors : List UInt8}
    (length : forms.length = colors.length) :
    List.Forall₂ (IsItem (value depth)) ((List.zipWith ColorForm.text forms colors).map String.toList)
      (colors.map colorValue) := by
  induction forms generalizing colors with
  | nil =>
      rw [List.eq_nil_of_length_eq_zero length.symm]
      exact .nil
  | cons form forms ih =>
      cases colors with
      | nil => cases length
      | cons color colors => exact .cons (isItem_color depth form color) (ih (Nat.succ.inj length))

theorem isVerbatim_of_visible {c : Char} (visible : isControl c = false ∧ c ≠ '"' ∧ c ≠ '\\') :
    isVerbatim c = true := by
  rw [isVerbatim, isPlain_of_not_isControl visible.1, Bool.true_and, Bool.and_eq_true, bne_iff_ne, bne_iff_ne]
  exact visible.2

def colorsText (p : Palette) (forms : Vector ColorForm 4) : List Char :=
  "colors".toList ++ ' ' :: '=' :: ' ' :: '[' ::
    ([',', ' '].intercalate ((List.zipWith ColorForm.text forms.toList p.colors.toList).map String.toList) ++
      ']' :: '\n' :: [])

/-- The lines of a palette after its comments. -/
def entryText (p : Palette) (forms : Vector ColorForm 4) : List Char :=
  "name".toList ++ ' ' :: '=' :: ' ' :: '"' :: (p.name.toList ++ '"' :: '\n' :: colorsText p forms)

theorem toList_plainText (comments : List String) (p : Palette) (forms : Vector ColorForm 4) :
    (plainText comments p forms).toList =
      (comments.map String.toList).flatMap (fun body => '#' :: (body ++ ['\n'])) ++ entryText p forms := by
  simp only [plainText, String.toList_append, String.toList_join, String.toList_intercalate, List.flatMap_map,
    List.append_assoc]
  rfl

theorem lines_colorsText (p : Palette) (forms : Vector ColorForm 4) :
    lines (colorsText p forms) = some [.assignment (⟨[], "colors"⟩, .array (p.colors.toList.map colorValue))] := by
  have length : forms.toList.length = p.colors.toList.length := by rw [Vector.length_toList, Vector.length_toList]
  have items := forall₂_color (depthLimit - 1) length
  have nonempty : (List.zipWith ColorForm.text forms.toList p.colors.toList).map String.toList ≠ [] := by
    refine List.ne_nil_of_length_pos ?_
    rw [List.length_map, List.length_zipWith, Vector.length_toList, Vector.length_toList]
    decide
  have bare : ∀ d ∈ 'c' :: "olors".toList, isBareKeyChar d = true := List.all_eq_true.mp rfl
  have read := value_array (depthLimit - 1) items nonempty ['\n']
  refine (lines_assignment bare rfl read (Nat.succ_pos _)).trans ?_
  rw [lines_nil]
  rfl

theorem lines_entryText {p : Palette} (forms : Vector ColorForm 4)
    (verbatim : ∀ c ∈ p.name.toList, isVerbatim c = true) :
    lines (entryText p forms) = some [.assignment (⟨[], "name"⟩, .text p.name),
      .assignment (⟨[], "colors"⟩, .array (p.colors.toList.map colorValue))] := by
  have bare : ∀ d ∈ 'n' :: "ame".toList, isBareKeyChar d = true := List.all_eq_true.mp rfl
  have read : value depthLimit ('"' :: (p.name.toList ++ '"' :: '\n' :: colorsText p forms)) =
      some (.text p.name, '\n' :: colorsText p forms) := by
    rw [value_quotation, quotation_verbatim verbatim (by decide), String.ofList_toList]
    rfl
  refine (lines_assignment bare rfl read ?_).trans ?_
  · simp only [List.length_append, List.length_cons]
    omega
  · rw [lines_colorsText]
    rfl

theorem withoutMark_plainText (comments : List String) (p : Palette) (forms : Vector ColorForm 4) :
    withoutMark (plainText comments p forms).toList = (plainText comments p forms).toList := by
  rw [toList_plainText]
  cases comments with
  | nil => rfl
  | cons body comments => rfl

/-- A palette that is written down is read back, in whatever notation its colors are, whatever comments stand before it
and whatever its name looks like. What must not be there are control characters and, in the name, double quotation
marks and backslashes. -/
theorem ofText_plainText {comments : List String} {p : Palette} (forms : Vector ColorForm 4)
    (remarks : ∀ body ∈ comments, ∀ c ∈ body.toList, isControl c = false)
    (name : ∀ c ∈ p.name.toList, isControl c = false ∧ c ≠ '"' ∧ c ≠ '\\') :
    ofText (plainText comments p forms) = .ok p := by
  have plain : ∀ body ∈ comments.map String.toList, ∀ c ∈ body, isPlain c = true := by
    intro body member c inside
    obtain ⟨remark, among, rfl⟩ := List.mem_map.mp member
    exact isPlain_of_not_isControl (remarks remark among c inside)
  have entries := lines_entryText forms fun c inside => isVerbatim_of_visible (name c inside)
  have gathered : (lines (withoutMark (plainText comments p forms).toList)).map sections =
      some ([(⟨[], "name"⟩, .text p.name), (⟨[], "colors"⟩, .array (p.colors.toList.map colorValue))], []) := by
    rw [withoutMark_plainText, toList_plainText, sections_comments plain, entries]
    rfl
  obtain ⟨read, found, same⟩ := Option.map_eq_some_iff.mp gathered
  have parsed : Table.ofText (plainText comments p forms) =
      some [("name", .text p.name), ("colors", .array (p.colors.toList.map colorValue))] := by
    rw [Table.ofText, found]
    simp only [Option.bind_eq_bind, Option.bind_some]
    rw [same]
    rfl
  refine (ofText_eq_ok_iff_of_table parsed).mpr ⟨[], rfl, ?_⟩
  rw [List.append_nil]
  rfl

end

/-- A name that looks like a key of its own, and a color in each of the notations. -/
theorem ofText_plainText_entry_in_name :
    let p : Palette := ⟨"] # colors = ['é']", #v[0, 0xAF, 0xAF, 255]⟩
    let forms : Vector ColorForm 4 := #v[.decimal, .hex true false, .hex false true, .decimal]
    plainText [" four shades", ""] p forms =
        "# four shades\n#\nname = \"] # colors = ['é']\"\ncolors = [0, 0xAf, 0xaF, 255]\n" ∧
      ofText (plainText [" four shades", ""] p forms) = .ok p := by
  intro p forms
  have remarks : ([" four shades", ""].all fun body => body.toList.all fun c => !isControl c) = true := by decide
  have name : (p.name.toList.all fun c => !isControl c && (c != '"' && c != '\\')) = true := by decide
  simp only [List.all_eq_true, Bool.and_eq_true, Bool.not_eq_true', bne_iff_ne] at remarks name
  exact ⟨by decide, ofText_plainText forms remarks name⟩

end Palette

end TwoBitAlpha
