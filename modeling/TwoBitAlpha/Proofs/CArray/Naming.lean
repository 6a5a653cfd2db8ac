import TwoBitAlpha.Proofs.CArray.ReadBack

/-!
Which names a C declaration can have.

C reserves some words that have the form of a name, more of them in each edition of its standard. The test of a
symbol knows the form alone, so a reserved word passes it, and the declaration that is then written declares nothing.
-/

namespace TwoBitAlpha.CArray

/-- Editions of the C standard that reserve different words. -/
inductive Edition where
  | c90
  | c99
  | c11
  | c23
  deriving DecidableEq

/-- The words that an edition is the first to reserve. -/
def Edition.added : Edition → List String
  | c90 =>
    ["auto", "break", "case", "char", "const", "continue", "default", "do", "double", "else", "enum", "extern",
      "float", "for", "goto", "if", "int", "long", "register", "return", "short", "signed", "sizeof", "static",
      "struct", "switch", "typedef", "union", "unsigned", "void", "volatile", "while"]
  | c99 => ["inline", "restrict", "_Bool", "_Complex", "_Imaginary"]
  | c11 =>
    ["_Alignas", "_Alignof", "_Atomic", "_Generic", "_Noreturn", "_Static_assert", "_Thread_local"]
  | c23 =>
    ["alignas", "alignof", "bool", "constexpr", "false", "nullptr", "static_assert", "thread_local", "true",
      "typeof", "typeof_unqual", "_BitInt", "_Decimal128", "_Decimal32", "_Decimal64"]

/-- An edition and those before it. -/
def Edition.upTo : Edition → List Edition
  | c90 => [c90]
  | c99 => [c90, c99]
  | c11 => [c90, c99, c11]
  | c23 => [c90, c99, c11, c23]

/-- The words that are no names. No edition has freed a word. -/
def Edition.keywords (e : Edition) : List String := e.upTo.flatMap added

def IsLetter (c : Char) : Prop := ('A' ≤ c ∧ c ≤ 'Z') ∨ ('a' ≤ c ∧ c ≤ 'z')

/-- A letter or an underscore, and after it letters, digits and underscores. -/
def HasForm (symbol : String) : Prop :=
  ∃ first rest, symbol.toList = first :: rest ∧ (IsLetter first ∨ first = '_') ∧
    ∀ c ∈ rest, IsLetter c ∨ ('0' ≤ c ∧ c ≤ '9') ∨ c = '_'

inductive Token where
  | keyword (word : String)
  | name (word : String)
  | number (digits : String)
  | mark (c : Char)
  deriving DecidableEq

/-- A run of letters, digits and underscores, which is a number if it begins with a digit. -/
def Token.ofWord (e : Edition) (word : String) : Token :=
  if word.toList.head?.any Char.isDigit then .number word
  else if word ∈ e.keywords then .keyword word
  else .name word

/-- The tokens of a line without comments and literals. Each word goes as far as it can. -/
def tokens (e : Edition) : List Char → List Token
  | [] => []
  | c :: s =>
    if c = ' ' then tokens e s
    else if inName c then .ofWord e (String.ofList (c :: s.takeWhile inName)) :: tokens e (s.dropWhile inName)
    else .mark c :: tokens e s
termination_by s => s.length
decreasing_by
  · exact Nat.lt_succ_self _
  · exact Nat.lt_succ_of_le ((List.dropWhile_suffix _).length_le)
  · exact Nat.lt_succ_self _

/-- The definition of an array of constant bytes, up to its values. -/
def arrayTokens (name : String) (length : Nat) : List Token :=
  [.keyword "const", .keyword "unsigned", .keyword "char", .name name, .mark '[', .number (Nat.repr length),
    .mark ']', .mark '=', .mark '\x7b']

section
variable {e : Edition} {symbol : String} {c : Char}

theorem isAlpha_iff : c.isAlpha = true ↔ IsLetter c := by
  change (c.isUpper || c.isLower) = true ↔ _
  rw [Bool.or_eq_true]
  exact or_congr decide_eq_true_iff (Bool.and_eq_true_iff.trans (and_congr decide_eq_true_iff decide_eq_true_iff))

theorem isDigit_iff : c.isDigit = true ↔ '0' ≤ c ∧ c ≤ '9' := by
  simp only [Char.isDigit, Bool.and_eq_true, decide_eq_true_eq]
  rfl

theorem inName_iff : inName c = true ↔ IsLetter c ∨ ('0' ≤ c ∧ c ≤ '9') ∨ c = '_' := by
  simp only [inName, Char.isAlphanum, Bool.or_eq_true, isAlpha_iff, isDigit_iff, beq_iff_eq, or_assoc]

theorem isIdentifier_iff : isIdentifier symbol = true ↔ HasForm symbol := by
  unfold isIdentifier HasForm
  cases symbol.toList with
  | nil => simp
  | cons first rest =>
      have others : (rest.all fun d => d.isAlphanum || d == '_') = true ↔
          ∀ c ∈ rest, IsLetter c ∨ ('0' ≤ c ∧ c ≤ '9') ∨ c = '_' := by
        rw [List.all_eq_true]
        exact forall₂_congr fun _ _ => inName_iff
      simp only [Bool.and_eq_true, others, Bool.or_eq_true, isAlpha_iff, beq_iff_eq]
      constructor
      · rintro ⟨letter, named⟩
        exact ⟨first, rest, rfl, letter, named⟩
      · rintro ⟨_, _, ⟨⟩, letter, named⟩
        exact ⟨letter, named⟩

theorem isIdentifier_keyword (e : Edition) : ∀ word ∈ e.keywords, isIdentifier word = true := by
  cases e <;> decide

theorem tokens_blank (e : Edition) (s : List Char) : tokens e (' ' :: s) = tokens e s := by
  rw [tokens, if_pos rfl]

theorem tokens_mark {s : List Char} (visible : c ≠ ' ') (single : ¬ inName c = true) :
    tokens e (c :: s) = .mark c :: tokens e s := by
  rw [tokens, if_neg visible, if_neg single]

theorem tokens_word {word : String} {s : List Char} (some_char : word.toList ≠ [])
    (all : ∀ c ∈ word.toList, inName c = true) (ends : s.head?.all (fun c => !inName c) = true) :
    tokens e (word.toList ++ s) = .ofWord e word :: tokens e s := by
  obtain ⟨c, rest, chars⟩ := List.exists_cons_of_ne_nil some_char
  have spelled : String.ofList (c :: rest) = word := by rw [← chars, String.ofList_toList]
  rw [chars, List.forall_mem_cons] at all
  obtain ⟨first, others⟩ := all
  have visible : c ≠ ' ' := by
    rintro rfl
    cases first
  obtain ⟨taken, left⟩ := span_append others ends
  rw [chars, List.cons_append, tokens, if_neg visible, if_pos first, taken, left, spelled]

theorem not_isDigit_of_isLetter (letter : IsLetter c) : ¬ c.isDigit = true := by
  rw [isDigit_iff]
  rintro ⟨_, digit⟩
  rcases letter with ⟨upper, _⟩ | ⟨lower, _⟩
  · exact absurd (Char.le_trans upper digit) (by decide)
  · exact absurd (Char.le_trans lower digit) (by decide)

theorem ofWord_of_hasForm (e : Edition) (named : HasForm symbol) :
    Token.ofWord e symbol = if symbol ∈ e.keywords then .keyword symbol else .name symbol := by
  obtain ⟨first, rest, chars, letter, _⟩ := named
  have no_digit : ¬ first.isDigit = true := by
    rcases letter with letter | rfl
    · exact not_isDigit_of_isLetter letter
    · decide
  rw [Token.ofWord, chars, List.head?_cons, Option.any_some, if_neg no_digit]

theorem ofWord_repr (e : Edition) (n : Nat) : Token.ofWord e (Nat.repr n) = .number (Nat.repr n) := by
  obtain ⟨first, rest, digits⟩ := List.exists_cons_of_ne_nil (Nat.toDigits_ne_nil (n := n) (b := 10))
  have digit : first.isDigit = true := by
    apply Nat.isDigit_of_mem_toDigits (b := 10) (n := n) (by decide) (by decide)
    rw [digits]
    exact List.mem_cons_self
  rw [Token.ofWord, Nat.toList_repr, digits, List.head?_cons, Option.any_some, if_pos digit]

theorem tokens_repr (e : Edition) (n : Nat) {s : List Char} (ends : s.head?.all (fun c => !inName c) = true) :
    tokens e (Nat.toDigits 10 n ++ s) = .number (Nat.repr n) :: tokens e s := by
  have digits : ∀ c ∈ (Nat.repr n).toList, inName c = true := by
    intro c member
    rw [Nat.toList_repr] at member
    have digit := Nat.isDigit_of_mem_toDigits (by decide) (by decide) member
    rw [inName_iff, ← isDigit_iff]
    exact .inr (.inl digit)
  rw [← ofWord_repr e n, ← Nat.toList_repr]
  exact tokens_word (Nat.toList_repr ▸ Nat.toDigits_ne_nil) digits ends

theorem tokens_symbol (e : Edition) (named : isIdentifier symbol = true) {s : List Char}
    (ends : s.head?.all (fun c => !inName c) = true) :
    tokens e (symbol.toList ++ s) = .ofWord e symbol :: tokens e s := by
  refine tokens_word ?_ (fun c => mem_of_isIdentifier named) ends
  obtain ⟨first, rest, chars, _⟩ := isIdentifier_iff.mp named
  rw [chars]
  exact List.cons_ne_nil first rest

theorem tokens_declarationLine (e : Edition) (m : PackedMap) (named : isIdentifier symbol = true) :
    tokens e (declarationLine m symbol).toList =
      [.keyword "const", .keyword "unsigned", .keyword "char", .ofWord e symbol, .mark '[',
        .number (Nat.repr m.length), .mark ']', .mark '=', .mark '\x7b'] := by
  have specifiers : "const unsigned char ".toList =
      "const".toList ++ ' ' :: ("unsigned".toList ++ ' ' :: ("char".toList ++ [' '])) := by decide
  have reserved : Token.ofWord e "const" = .keyword "const" ∧ Token.ofWord e "unsigned" = .keyword "unsigned" ∧
      Token.ofWord e "char" = .keyword "char" := by
    cases e <;> decide
  have opening : tokens e "] = \x7b".toList = [.mark ']', .mark '=', .mark '\x7b'] := by
    change tokens e [']', ' ', '=', ' ', '\x7b'] = _
    rw [tokens_mark (by decide) (by decide), tokens_blank, tokens_mark (by decide) (by decide), tokens_blank,
      tokens_mark (by decide) (by decide), tokens]
  have bracket : "[".toList = ['['] := rfl
  rw [toList_declarationLine, specifiers, bracket]
  simp only [List.append_assoc, List.cons_append, List.nil_append]
  rw [tokens_symbol e (by decide) rfl, tokens_blank, tokens_symbol e (by decide) rfl, tokens_blank,
    tokens_symbol e (by decide) rfl, tokens_blank, tokens_symbol e named rfl, tokens_mark (by decide) (by decide),
    tokens_repr e m.length rfl, opening, reserved.1, reserved.2.1, reserved.2.2]

theorem declares_iff (e : Edition) (m : PackedMap) (named : isIdentifier symbol = true) :
    tokens e (declarationLine m symbol).toList = arrayTokens symbol m.length ↔ symbol ∉ e.keywords := by
  rw [tokens_declarationLine e m named, ofWord_of_hasForm e (isIdentifier_iff.mp named), arrayTokens]
  split
  · rename_i reserved
    exact iff_of_false (by simp) (not_not_intro reserved)
  · rename_i free
    exact iff_of_true rfl free

/-- The test is right about a symbol if and only if the symbol is not reserved. -/
theorem isIdentifier_agrees_iff (e : Edition) (symbol : String) :
    (isIdentifier symbol = true ↔ HasForm symbol ∧ symbol ∉ e.keywords) ↔ symbol ∉ e.keywords := by
  rw [isIdentifier_iff]
  constructor
  · intro right reserved
    have form : HasForm symbol := isIdentifier_iff.mp (isIdentifier_keyword e symbol reserved)
    exact (right.mp form).2 reserved
  · intro free
    exact ⟨fun form => ⟨form, free⟩, And.left⟩

end

end TwoBitAlpha.CArray
