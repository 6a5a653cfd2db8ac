import Mathlib.Algebra.Group.Nat.Defs
import Mathlib.Data.List.Basic
import TwoBitAlpha.Toml.Reading

/-!
Integers where they stand in an array, with a comma or a bracket after them.

What could begin a date or a floating point number is tried as one first. Digits that such a mark follows are neither,
and so they are taken as the integer that they spell, in decimal or in hexadecimal notation.
-/

namespace TwoBitAlpha.Toml

section
variable {isMember : Char → Bool} {c d : Char}

/-- A character of a class is not one outside of it. -/
theorem ne_of_class (member : isMember c = true) (other : isMember d = false) : c ≠ d := by
  rintro rfl
  rw [other] at member
  cases member

/-- What a reader tells by its first character is not told of a character of another class. -/
theorem cons_ne_cons (member : isMember c = true) (other : isMember d = false) {s t : List Char} : c :: s ≠ d :: t :=
  fun same => ne_of_class member other (List.cons.inj same).1

theorem isBlank_of_class (member : isMember c = true) (space : isMember ' ' = false) (tab : isMember '\t' = false) :
    isBlank c = false := by
  rw [isBlank, Bool.or_eq_false_iff, beq_eq_false_iff_ne, beq_eq_false_iff_ne]
  exact ⟨ne_of_class member space, ne_of_class member tab⟩

end

section
variable {ds more : List Char} {next : Char}

theorem digitsTail_run {isDigit : Char → Bool} (run : ∀ d ∈ ds, isDigit d = true) (underscore : isDigit '_' = false)
    (ends : isDigit next = false) (apart : next ≠ '_') :
    digitsTail isDigit (ds ++ next :: more) = some (ds, next :: more) := by
  induction ds with
  | nil =>
      rw [List.nil_append, digitsTail, if_neg (Bool.eq_false_iff.mp ends)]
      · exact fun same => absurd same apart
      · exact fun _ _ same => absurd same apart
  | cons d ds ih =>
      have digit := run d (List.mem_cons_self ..)
      have other : d ≠ '_' := ne_of_class digit underscore
      rw [List.cons_append, digitsTail, if_pos digit, ih fun e member => run e (List.mem_cons_of_mem _ member)]
      · rfl
      · exact fun same => absurd same other
      · exact fun _ _ same => absurd same other

theorem digits_run {isDigit : Char → Bool} (run : ∀ d ∈ ds, isDigit d = true) (nonempty : ds ≠ [])
    (underscore : isDigit '_' = false) (ends : isDigit next = false) (apart : next ≠ '_') :
    digits isDigit (ds ++ next :: more) = some (ds, next :: more) := by
  cases ds with
  | nil => exact absurd rfl nonempty
  | cons d ds =>
      rw [List.cons_append, digits, if_pos (run d (List.mem_cons_self ..)),
        digitsTail_run (fun e member => run e (List.mem_cons_of_mem _ member)) underscore ends apart]
      rfl

end

/-- Decimal digits as a number has them in front, without a zero before others. -/
structure IsWhole (ds : List Char) : Prop where
  run : ∀ d ∈ ds, d.isDigit = true
  nonempty : ds ≠ []
  zero : ds.head? = some '0' → ds = ['0']

theorem isWhole_zero : IsWhole ['0'] := ⟨List.forall_mem_singleton.mpr rfl, List.cons_ne_nil _ _, fun _ => rfl⟩

theorem isWhole_toDigits (n : Nat) : IsWhole (Nat.toDigits 10 n) := by
  refine ⟨fun d => Nat.isDigit_of_mem_toDigits (by decide) (by decide), Nat.toDigits_ne_nil, ?_⟩
  induction n using Nat.strongRecOn with
  | ind n ih =>
      intro zero
      by_cases small : n < 10
      · rw [Nat.toDigits_of_lt_base small] at zero ⊢
        rw [List.head?_cons] at zero
        rw [Option.some.inj zero]
      · obtain ⟨d, others, front⟩ := List.exists_cons_of_ne_nil (Nat.toDigits_ne_nil (b := 10) (n := n / 10))
        rw [Nat.toDigits_of_base_le (by decide) (by omega), front] at zero
        have zeroFront := ih (n / 10) (by omega) (by rw [front]; exact zero)
        have value := Nat.ofDigitChars_ten_toDigits (n := n / 10)
        rw [zeroFront] at value
        change 0 = n / 10 at value
        omega

/-- What comes after the digits of a number that has no fraction, no exponent and is no part of a date. -/
structure EndsWhole (next : Char) : Prop where
  digit : next.isDigit = false
  other : next ∉ ['_', '-', ':', '.', 'e', 'E']

section
variable {ds more rest : List Char} {next c : Char} {places n : Nat}

theorem EndsWhole.ne (ends : EndsWhole next) (mark : c ∈ ['_', '-', ':', '.', 'e', 'E']) : next ≠ c :=
  fun same => ends.other (same ▸ mark)

theorem wholeDigits_run (whole : IsWhole ds) (ends : EndsWhole next) :
    wholeDigits (ds ++ next :: more) = some (ds, next :: more) := by
  obtain ⟨run, nonempty, zero⟩ := whole
  have apart : next ≠ '_' := ends.ne (by decide)
  by_cases leading : ds.head? = some '0'
  · rw [zero leading]
    rfl
  · rw [wholeDigits]
    · exact digits_run run nonempty rfl ends.digit apart
    · intro tail same
      cases ds with
      | nil => exact nonempty rfl
      | cons d ds =>
          cases same
          exact leading rfl

theorem fixedNumber_inv {s : List Char} (read : fixedNumber places s = some (n, rest)) :
    (∀ d ∈ s.take places, d.isDigit = true) ∧ rest = s.drop places := by
  simp only [fixedNumber] at read
  split at read
  · rename_i fixed
    cases read
    exact ⟨List.all_eq_true.mp fixed.2, rfl⟩
  · cases read

/-- After some of the digits comes another digit or what ends them, and none of the two is a given other mark. -/
theorem expect_after_run (run : ∀ d ∈ ds, d.isDigit = true) (ends : next.isDigit = false)
    (read : fixedNumber places (ds ++ next :: more) = some (n, rest)) (mark : c.isDigit = false) (apart : next ≠ c) :
    expect c rest = none := by
  obtain ⟨fixed, rfl⟩ := fixedNumber_inv read
  by_cases within : places ≤ ds.length
  · rw [List.drop_append_of_le_length within]
    match after : ds.drop places with
    | [] => exact if_neg apart
    | d :: _ =>
        have digit := run d (List.mem_of_mem_drop (after ▸ List.mem_cons_self ..))
        exact if_neg (ne_of_class digit mark)
  · have member : next ∈ (ds ++ next :: more).take places := by
      rw [List.take_append]
      apply List.mem_append_right
      obtain ⟨k, count⟩ : ∃ k, places - ds.length = k + 1 := ⟨places - ds.length - 1, by omega⟩
      rw [count]
      exact List.mem_cons_self ..
    rw [fixed next member] at ends
    cases ends

theorem moment_run (run : ∀ d ∈ ds, d.isDigit = true) (ends : EndsWhole next) : moment (ds ++ next :: more) = none := by
  have dash : next ≠ '-' := ends.ne (by decide)
  have colon : next ≠ ':' := ends.ne (by decide)
  have date : skipDate (ds ++ next :: more) = none := by
    rw [skipDate]
    cases read : fixedNumber 4 (ds ++ next :: more) with
    | none => rfl
    | some found =>
        change (expect '-' found.2 >>= _) = none
        rw [expect_after_run run ends.digit read rfl dash]
        rfl
  have time : skipTime (ds ++ next :: more) = none := by
    rw [skipTime, twoDigits]
    cases read : fixedNumber 2 (ds ++ next :: more) with
    | none => rfl
    | some found =>
        change ((if 0 ≤ found.1 ∧ found.1 ≤ 23 then some found else none) >>= _) = none
        split
        · change (expect ':' found.2 >>= _) = none
          rw [expect_after_run run ends.digit read rfl colon]
          rfl
        · rfl
  rw [moment, date, time]
  rfl

theorem IsWhole.head (whole : IsWhole ds) : ∃ d front, ds = d :: front ∧ d.isDigit = true := by
  obtain ⟨d, front, rfl⟩ := List.exists_cons_of_ne_nil whole.nonempty
  exact ⟨d, front, rfl, whole.run d (List.mem_cons_self ..)⟩

theorem sign_digit (digit : c.isDigit = true) (s : List Char) : sign (c :: s) = (false, c :: s) := by
  unfold sign
  split
  · rename_i minus
    exact absurd minus (cons_ne_cons digit rfl)
  · rename_i plus
    exact absurd plus (cons_ne_cons digit rfl)
  · rfl

theorem sign_run (whole : IsWhole ds) : sign (ds ++ rest) = (false, ds ++ rest) := by
  obtain ⟨d, front, rfl, digit⟩ := whole.head
  exact sign_digit digit _

theorem fraction_ends (ends : EndsWhole next) : fraction (next :: more) = some ([], next :: more) := by
  unfold fraction
  split
  · rename_i same
    cases same
    exact absurd rfl (ends.ne (by decide))
  · rfl

theorem exponent_ends (ends : EndsWhole next) : exponent (next :: more) = some (none, next :: more) := by
  apply if_neg
  rintro (same | same)
  · exact ends.ne (by decide) same
  · exact ends.ne (by decide) same

theorem decimalFloat_run (whole : IsWhole ds) (ends : EndsWhole next) : decimalFloat (ds ++ next :: more) = none := by
  simp only [decimalFloat, sign_run whole, wholeDigits_run whole ends, fraction_ends ends, exponent_ends ends,
    Option.bind_eq_bind, Option.bind_some]
  rfl

theorem specialFloat_digit (digit : c.isDigit = true) (s : List Char) : specialFloat (c :: s) = none := by
  simp only [specialFloat, sign_digit digit]
  split
  · rename_i infinity
    exact absurd infinity (cons_ne_cons digit rfl)
  · rename_i none
    exact absurd none (cons_ne_cons digit rfl)
  · rfl

theorem numeric_run (whole : IsWhole ds) (ends : EndsWhole next) :
    numeric (ds ++ next :: more) = integer (ds ++ next :: more) := by
  obtain ⟨d, front, same, digit⟩ := whole.head
  rw [numeric, moment_run whole.run ends, decimalFloat_run whole ends]
  rw [same, List.cons_append, specialFloat_digit digit]

/-- What begins with a digit is a number or a date, at every depth. -/
theorem value_digit (depth : Nat) (digit : c.isDigit = true) (s : List Char) :
    value depth (c :: s) = numeric (c :: s) := by
  have plain : plainValue (c :: s) = numeric (c :: s) := by
    unfold plainValue
    split
    · rename_i text
      exact absurd text (cons_ne_cons digit rfl)
    · rename_i text
      exact absurd text (cons_ne_cons digit rfl)
    · rename_i boolean
      exact absurd boolean (cons_ne_cons digit rfl)
    · rename_i boolean
      exact absurd boolean (cons_ne_cons digit rfl)
    · rfl
  cases depth with
  | zero => exact plain
  | succ depth =>
      unfold value
      split
      · rename_i array
        exact absurd array (cons_ne_cons digit rfl)
      · rename_i table
        exact absurd table (cons_ne_cons digit rfl)
      · exact plain

theorem value_run (depth : Nat) (whole : IsWhole ds) (ends : EndsWhole next) :
    value depth (ds ++ next :: more) = integer (ds ++ next :: more) := by
  rw [← numeric_run whole ends]
  obtain ⟨d, front, rfl, digit⟩ := whole.head
  exact value_digit depth digit _

/-- A single zero is only in front of a base if the letter of the base comes next. -/
theorem integer_run (whole : IsWhole ds) (ends : EndsWhole next) (noBase : next ∉ ['x', 'o', 'b']) :
    integer (ds ++ next :: more) = integerOf (numberOf 10 ds) (next :: more) := by
  have noZero : ∀ letter ∈ ['x', 'o', 'b'], ∀ tail, ds ++ next :: more ≠ '0' :: letter :: tail := by
    intro letter member tail same
    obtain ⟨d, front, rfl, _⟩ := whole.head
    have zero : d = '0' := (List.cons.inj same).1
    subst zero
    obtain rfl : front = [] := (List.cons.inj (whole.zero rfl)).2
    exact noBase ((List.cons.inj (List.cons.inj same).2).1 ▸ member)
  unfold integer
  split
  · rename_i base
    exact absurd base (noZero 'x' (by decide) _)
  · rename_i base
    exact absurd base (noZero 'o' (by decide) _)
  · rename_i base
    exact absurd base (noZero 'b' (by decide) _)
  · simp only [sign_run whole, wholeDigits_run whole ends, Option.bind_eq_bind, Option.bind_some]
    rfl

theorem integer_hex (run : ∀ d ∈ ds, isHexDigit d = true) (nonempty : ds ≠ []) (ends : isHexDigit next = false)
    (apart : next ≠ '_') :
    integer ('0' :: 'x' :: (ds ++ next :: more)) = integerOf (numberOf 16 ds) (next :: more) := by
  rw [integer, basedInteger, digits_run run nonempty rfl ends apart]
  rfl

theorem numberOf_toDigits (n : Nat) : numberOf 10 (Nat.toDigits 10 n) = n := by
  calc numberOf 10 (Nat.toDigits 10 n) = Nat.ofDigitChars 10 (Nat.toDigits 10 n) 0 := by
        apply List.foldl_ext
        intro value d member
        rw [digitValue, if_pos (Nat.isDigit_of_mem_toDigits (by decide) (by decide) member), Nat.mul_comm]
    _ = n := Nat.ofDigitChars_ten_toDigits

theorem integerOf_small (small : n < 2 ^ 63) : integerOf n rest = some (.integer n, rest) := by
  rw [integerOf, if_pos]
  rw [Int64.toInt_minValue, Int64.toInt_maxValue]
  omega

end

end TwoBitAlpha.Toml
