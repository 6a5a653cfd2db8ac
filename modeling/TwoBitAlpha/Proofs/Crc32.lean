import Mathlib.Data.Nat.Bitwise
import Mathlib.Data.Nat.Digits.Defs
import Mathlib.Logic.Function.Iterate
import TwoBitAlpha.Crc32

/-!
What a checksum of 32 bits can tell apart.

A shift of the register is linear in exclusive or and loses nothing. So the bytes of a short message can be put into the
register all at once, as one word, and the shifts can follow: `foldl_absorb`. Up to four bytes fit into a word, so
messages that differ within four bytes have different checksums: `ofBytes_ne_of_window`.
-/

namespace TwoBitAlpha.Crc32

theorem toNat_shiftRight_one (r : UInt32) : (r >>> 1).toNat = r.toNat / 2 := by
  rw [UInt32.toNat_shiftRight]
  exact Nat.shiftRight_one _

theorem lowBit_iff (r : UInt32) : r &&& 1 = 1 ↔ r.toNat % 2 = 1 := by
  rw [← UInt32.toNat_inj, UInt32.toNat_and, ← Nat.and_one_is_mod]
  rfl

theorem shift_of_even {r : UInt32} (even : r.toNat % 2 = 0) : shift r = r >>> 1 := by
  rw [shift, if_neg]
  rw [lowBit_iff]
  omega

theorem shift_of_odd {r : UInt32} (odd : r.toNat % 2 = 1) : shift r = (r >>> 1) ^^^ polynomial :=
  if_pos ((lowBit_iff r).mpr odd)

theorem shift_xor (a b : UInt32) : shift (a ^^^ b) = shift a ^^^ shift b := by
  have low : (a ^^^ b).toNat % 2 = (a.toNat + b.toNat) % 2 := by
    rw [UInt32.toNat_xor, Nat.xor_mod_two_eq]
  rcases Nat.mod_two_eq_zero_or_one a.toNat with evenA | oddA
  · rcases Nat.mod_two_eq_zero_or_one b.toNat with evenB | oddB
    · rw [shift_of_even evenA, shift_of_even evenB, shift_of_even (by omega), UInt32.shiftRight_xor]
    · rw [shift_of_even evenA, shift_of_odd oddB, shift_of_odd (by omega), UInt32.shiftRight_xor, UInt32.xor_assoc]
  · rcases Nat.mod_two_eq_zero_or_one b.toNat with evenB | oddB
    · rw [shift_of_odd oddA, shift_of_even evenB, shift_of_odd (by omega), UInt32.shiftRight_xor]
      ac_rfl
    · rw [shift_of_odd oddA, shift_of_odd oddB, shift_of_even (by omega), UInt32.shiftRight_xor]
      have cancel : (a >>> 1) ^^^ polynomial ^^^ ((b >>> 1) ^^^ polynomial) =
          (a >>> 1) ^^^ (b >>> 1) ^^^ (polynomial ^^^ polynomial) := by ac_rfl
      rw [cancel, UInt32.xor_self, UInt32.xor_zero]

/-- The polynomial has its highest bit, which a shifted register never has. -/
theorem eq_zero_of_shift_eq_zero {r : UInt32} (zero : shift r = 0) : r = 0 := by
  have half := toNat_shiftRight_one r
  have r_lt := r.toNat_lt
  rcases Nat.mod_two_eq_zero_or_one r.toNat with even | odd
  · rw [shift_of_even even] at zero
    rw [zero, UInt32.toNat_zero] at half
    apply UInt32.toNat_inj.mp
    rw [UInt32.toNat_zero]
    omega
  · rw [shift_of_odd odd, UInt32.xor_eq_zero_iff] at zero
    have top : polynomial.toNat = 0xEDB88320 := rfl
    rw [zero, top] at half
    omega

theorem shift_injective : Function.Injective shift := by
  intro a b same
  apply UInt32.xor_eq_zero_iff.mp
  apply eq_zero_of_shift_eq_zero
  rw [shift_xor, same, UInt32.xor_self]

theorem shift_iterate_xor (n : Nat) (a b : UInt32) : shift^[n] (a ^^^ b) = shift^[n] a ^^^ shift^[n] b := by
  induction n generalizing a b with
  | zero => rfl
  | succ n ih =>
      rw [Function.iterate_succ_apply, shift_xor, ih, ← Function.iterate_succ_apply, ← Function.iterate_succ_apply]

/-- As long as there are only zeros to shift out, a shift is a division by two. -/
theorem toNat_shift_iterate {n w : Nat} {r : UInt32} (multiple : r.toNat = w * 2 ^ n) : (shift^[n] r).toNat = w := by
  induction n generalizing r with
  | zero => exact multiple.trans (Nat.mul_one w)
  | succ n ih =>
      rw [Nat.pow_succ, ← Nat.mul_assoc] at multiple
      rw [Function.iterate_succ_apply]
      apply ih
      rw [shift_of_even (by omega), toNat_shiftRight_one]
      omega

theorem absorb_eq (r : UInt32) (b : UInt8) : absorb r b = shift^[8] (r ^^^ b.toUInt32) := rfl

theorem absorb_injective (b : UInt8) : Function.Injective fun r => absorb r b := by
  intro r r' same
  exact (UInt32.xor_left_inj _).mp (shift_injective.iterate 8 same)

/-- Messages that leave different registers still do when both go on alike. -/
theorem foldl_absorb_injective (bytes : List UInt8) : Function.Injective fun r => bytes.foldl absorb r := by
  induction bytes with
  | nil => exact fun _ _ same => same
  | cons b rest ih => exact fun _ _ same => absorb_injective b (ih same)

/-- The value of bytes as digits, the first in the lowest place. -/
def value (bytes : List UInt8) : Nat := Nat.ofDigits 256 (bytes.map UInt8.toNat)

/-- The same value as a word, for up to four bytes. -/
def word (bytes : List UInt8) : UInt32 := .ofNat (value bytes)

theorem value_cons (b : UInt8) (rest : List UInt8) : value (b :: rest) = b.toNat + 256 * value rest := by
  rw [value, List.map_cons, Nat.ofDigits_cons, value]

theorem digit_lt {bytes : List UInt8} : ∀ d ∈ bytes.map UInt8.toNat, d < 256 := by
  intro d member
  obtain ⟨b, _, rfl⟩ := List.mem_map.mp member
  exact b.toNat_lt

theorem value_lt {bytes : List UInt8} (short : bytes.length ≤ 4) : value bytes < 2 ^ 32 := by
  calc value bytes < 256 ^ (bytes.map UInt8.toNat).length := Nat.ofDigits_lt_base_pow_length (by decide) digit_lt
    _ ≤ 256 ^ 4 := Nat.pow_le_pow_right (by decide) (by rwa [List.length_map])

theorem toNat_word {bytes : List UInt8} (short : bytes.length ≤ 4) : (word bytes).toNat = value bytes :=
  UInt32.toNat_ofNat_of_lt' (value_lt short)

theorem word_injective {bytes bytes' : List UInt8} (length : bytes.length = bytes'.length) (short : bytes.length ≤ 4)
    (same : word bytes = word bytes') : bytes = bytes' := by
  have values : value bytes = value bytes' := by
    rw [← toNat_word short, same, toNat_word (length ▸ short)]
  have digits := Nat.ofDigits_inj_of_len_eq (by decide) (by rw [List.length_map, List.length_map, length]) digit_lt
    digit_lt values
  exact (List.map_inj_right fun _ _ => UInt8.toNat_inj.mp).mp digits

theorem toNat_word_cons (b : UInt8) {rest : List UInt8} (short : rest.length < 4) :
    (word (b :: rest)).toNat = b.toNat + 256 * value rest := by
  have within : (b :: rest).length ≤ 4 := short
  rw [toNat_word within, value_cons]

theorem add_eq_xor_of_lt {b : Nat} (b_lt : b < 256) (v : Nat) : b + 256 * v = b ^^^ 256 * v := by
  have low : (b ^^^ 256 * v) % 2 ^ 8 = b := by
    rw [Nat.xor_mod_two_pow, Nat.mod_eq_of_lt b_lt, Nat.mul_mod_right, Nat.xor_zero]
  have high : (b ^^^ 256 * v) / 2 ^ 8 = v := by
    rw [Nat.xor_div_two_pow, Nat.div_eq_of_lt b_lt, Nat.mul_div_cancel_left v (by decide), Nat.zero_xor]
  omega

/-- The first byte of a word apart from the others, which stay at their places. -/
theorem word_cons (b : UInt8) {rest : List UInt8} (short : rest.length < 4) :
    word (b :: rest) = b.toUInt32 ^^^ word (0 :: rest) := by
  apply UInt32.toNat_inj.mp
  rw [UInt32.toNat_xor, UInt8.toNat_toUInt32, toNat_word_cons b short, toNat_word_cons 0 short, UInt8.toNat_zero,
    Nat.zero_add, add_eq_xor_of_lt b.toNat_lt]

/-- The other bytes come down by one place in eight shifts. -/
theorem shift_iterate_word {rest : List UInt8} (short : rest.length < 4) :
    shift^[8] (word (0 :: rest)) = word rest := by
  apply UInt32.toNat_inj.mp
  apply toNat_shift_iterate
  rw [toNat_word_cons 0 short, toNat_word (Nat.le_of_lt short), UInt8.toNat_zero, Nat.zero_add]
  exact Nat.mul_comm _ _

/-- Up to four bytes may be taken in at once. -/
theorem foldl_absorb (r : UInt32) {bytes : List UInt8} (short : bytes.length ≤ 4) :
    bytes.foldl absorb r = shift^[8 * bytes.length] (r ^^^ word bytes) := by
  induction bytes generalizing r with
  | nil => exact UInt32.xor_zero.symm
  | cons b rest ih =>
      have shorter : rest.length < 4 := short
      calc rest.foldl absorb (absorb r b)
          = shift^[8 * rest.length] (absorb r b ^^^ word rest) := ih _ (Nat.le_of_lt shorter)
        _ = shift^[8 * rest.length] (shift^[8] (r ^^^ b.toUInt32) ^^^ shift^[8] (word (0 :: rest))) := by
            rw [absorb_eq, shift_iterate_word shorter]
        _ = shift^[8 * rest.length] (shift^[8] (r ^^^ word (b :: rest))) := by
            rw [← shift_iterate_xor, UInt32.xor_assoc, ← word_cons b shorter]
        _ = shift^[8 * (rest.length + 1)] (r ^^^ word (b :: rest)) := by
            rw [← Function.iterate_add_apply, Nat.mul_succ]

theorem eq_of_foldl_absorb_eq {r : UInt32} {bytes bytes' : List UInt8} (length : bytes.length = bytes'.length)
    (short : bytes.length ≤ 4) (same : bytes.foldl absorb r = bytes'.foldl absorb r) : bytes = bytes' := by
  rw [foldl_absorb r short, foldl_absorb r (length ▸ short), ← length] at same
  exact word_injective length short ((UInt32.xor_right_inj r).mp (shift_injective.iterate _ same))

/-- Messages of one length that differ within four bytes in a row differ in their checksums. -/
theorem ofBytes_ne_of_window {a b : Array UInt8} (size : a.size = b.size) (apart : a ≠ b) {i : Nat}
    (outside : ∀ j, j < i ∨ i + 4 ≤ j → a[j]? = b[j]?) : ofBytes a ≠ ofBytes b := by
  have split : ∀ bytes : Array UInt8,
      bytes.toList = bytes.toList.take i ++ ((bytes.toList.drop i).take 4 ++ bytes.toList.drop (i + 4)) := by
    intro bytes
    rw [← List.drop_drop, List.take_append_drop, List.take_append_drop]
  have before : a.toList.take i = b.toList.take i := by
    apply List.ext_getElem?
    intro j
    rw [List.getElem?_take, List.getElem?_take]
    split
    · rename_i j_lt
      rw [Array.getElem?_toList, Array.getElem?_toList, outside j (.inl j_lt)]
    · rfl
  have after : a.toList.drop (i + 4) = b.toList.drop (i + 4) := by
    apply List.ext_getElem?
    intro j
    rw [List.getElem?_drop, List.getElem?_drop, Array.getElem?_toList, Array.getElem?_toList,
      outside _ (.inr (Nat.le_add_right _ _))]
  intro same
  have registers : a.toList.foldl absorb 0xFFFFFFFF = b.toList.foldl absorb 0xFFFFFFFF := by
    rw [Array.foldl_toList, Array.foldl_toList]
    exact UInt32.not_inj.mp same
  rw [split a, split b, before, after, List.foldl_append, List.foldl_append, List.foldl_append,
    List.foldl_append] at registers
  have window : (a.toList.drop i).take 4 = (b.toList.drop i).take 4 := by
    apply eq_of_foldl_absorb_eq _ _ (foldl_absorb_injective _ registers)
    · simp only [List.length_take, List.length_drop, Array.length_toList, size]
    · exact List.length_take_le _ _
  apply apart
  apply Array.toList_inj.mp
  rw [split a, split b, before, window, after]

end TwoBitAlpha.Crc32
