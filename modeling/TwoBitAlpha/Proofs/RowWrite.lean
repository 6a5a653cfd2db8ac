import TwoBitAlpha.RowWrite

/-!
Reading back a buffer that was filled row by row.

A write says which entry it leaves at a position (`RowWrite.entryAt`). If all writes that reach a position
agree on the entry there, that entry is in the buffer at the end, whatever the order of the writes. Rows of equal size
tile the buffer, so for them neither the order nor what the buffer held before plays a part.
-/

namespace TwoBitAlpha

theorem row_end_le {n size y : Nat} (hy : y < n) : y * size + size ≤ n * size := by
  rw [← Nat.succ_mul]
  exact Nat.mul_le_mul_right _ hy

theorem row_position_lt {n size y j : Nat} (hy : y < n) (hj : j < size) : y * size + j < n * size :=
  Nat.lt_of_lt_of_le (Nat.add_lt_add_left hj _) (row_end_le hy)

theorem row_position_div {size y j : Nat} (hj : j < size) : (y * size + j) / size = y := by
  rw [Nat.mul_comm, Nat.mul_add_div (by omega), Nat.div_eq_of_lt hj, Nat.add_zero]

theorem row_position_mod {size y j : Nat} (hj : j < size) : (y * size + j) % size = j :=
  Nat.mul_add_mod_of_lt hj

theorem row_of_position {n size i : Nat} (h : i < n * size) : i / size < n ∧ i % size < size :=
  ⟨Nat.div_lt_of_lt_mul (Nat.mul_comm n size ▸ h),
    Nat.mod_lt i (Nat.pos_of_mul_pos_left (Nat.zero_lt_of_lt h))⟩

theorem toNat_ofNat_of_lt_toNat {n : Nat} {w : UInt32} (h : n < w.toNat) : (UInt32.ofNat n).toNat = n :=
  UInt32.toNat_ofNat_of_lt' (Nat.lt_trans h w.toNat_lt)

theorem flatMap_take_drop {α : Type} (entries : List α) (size n : Nat) :
    ((List.range n).flatMap fun k => (entries.drop (k * size)).take size) = entries.take (n * size) := by
  induction n with
  | zero => rw [Nat.zero_mul, List.take_zero, List.range_zero, List.flatMap_nil]
  | succ n ih => rw [List.range_succ, List.flatMap_append, ih, List.flatMap_singleton, Nat.succ_mul, List.take_add]

namespace Span

theorem cut_mul (n : Nat) {size : Nat} (h : 0 < size) :
    cut (n * size) size = (List.range n).map fun k => ⟨k * size, size⟩ := by
  have count : (n * size + size - 1) / size = n := by
    rw [Nat.add_sub_assoc h, Nat.mul_comm, Nat.mul_add_div h, Nat.div_eq_of_lt (by omega), Nat.add_zero]
  rw [cut, count]
  apply List.map_congr_left
  intro k hk
  have whole : size ≤ n * size - k * size := by
    rw [← Nat.mul_sub_right_distrib]
    exact Nat.le_mul_of_pos_left _ (Nat.sub_pos_of_lt (List.mem_range.mp hk))
  rw [Nat.min_eq_left whole]

theorem cut_zero {size : Nat} (h : 0 < size) : cut 0 size = [] := by
  rw [cut, Nat.zero_add, Nat.div_eq_of_lt (by omega), List.range_zero, List.map_nil]

/-- The first span is cut off, the rest is cut in the same way. -/
theorem cut_of_pos {total size : Nat} (h : 0 < size) (ht : 0 < total) :
    cut total size =
      ⟨0, min size total⟩ :: (cut (total - size) size).map fun s => ⟨s.start + size, s.size⟩ := by
  have count : (total + size - 1) / size = (total - size + size - 1) / size + 1 := by
    rw [← Nat.add_div_right _ h]
    rcases Nat.le_total size total with large | small
    · rw [Nat.sub_add_cancel large, Nat.sub_add_comm ht]
    · rw [Nat.sub_eq_zero_of_le small, Nat.zero_add, Nat.div_eq_of_lt_le (k := 1), Nat.div_eq_of_lt_le (k := 1)]
      all_goals omega
  rw [cut, count, List.range_succ_eq_map, List.map_cons, Nat.zero_mul, Nat.sub_zero, cut, List.map_map,
    List.map_map]
  congr 1
  apply List.map_congr_left
  intro k _
  simp only [Function.comp_apply, Nat.succ_mul]
  rw [Nat.sub_sub, Nat.add_comm size]

section
variable {α : Type} {s : Span} {buffer : Array α} (h : s.start + s.size ≤ buffer.size)
include h

theorem length_read : (s.read buffer).length = s.size := by
  rw [read, Array.length_toList, Array.size_extract, Nat.min_eq_left h, Nat.add_sub_cancel_left]

theorem getElem?_read {i : Nat} (hi : i < s.size) : (s.read buffer)[i]? = buffer[s.start + i]? := by
  rw [read, Array.getElem?_toList, Array.getElem?_extract, if_pos (by omega)]

end

theorem read_append_left {α : Type} {s : Span} {a : Array α} (h : s.start + s.size ≤ a.size) (b : Array α) :
    s.read (a ++ b) = s.read a := by
  have none_of_b : b.extract (s.start - a.size) (s.start + s.size - a.size) = #[] :=
    Array.extract_empty_of_stop_le_start (by omega)
  rw [read, read, Array.extract_append, none_of_b, Array.append_empty]

theorem read_append_right {α : Type} (a b : Array α) (s : Span) :
    Span.read ⟨a.size + s.start, s.size⟩ (a ++ b) = s.read b := by
  have none_of_a : a.extract (a.size + s.start) (a.size + s.start + s.size) = #[] :=
    Array.extract_empty_of_size_le_start (Nat.le_add_right _ _)
  rw [read, read, Array.extract_append, none_of_a, Array.empty_append, Nat.add_sub_cancel_left, Nat.add_assoc,
    Nat.add_sub_cancel_left]

theorem map_read_cut {α : Type} (buffer : Array α) (size : Nat) :
    ((cut buffer.size size).map fun span => span.read buffer) =
      (List.range ((buffer.size + size - 1) / size)).map fun k => (buffer.toList.drop (k * size)).take size := by
  rw [cut, List.map_map]
  apply List.map_congr_left
  intro k _
  rw [Function.comp_apply, read, Array.toList_extract, List.extract_eq_take_drop, Nat.add_sub_cancel_left]
  rcases Nat.le_total size (buffer.size - k * size) with whole | rest
  · rw [Nat.min_eq_left whole]
  · rw [Nat.min_eq_right rest]
    have length : (buffer.toList.drop (k * size)).length = buffer.size - k * size := by
      rw [List.length_drop, Array.length_toList]
    rw [List.take_of_length_le (Nat.le_of_eq length), List.take_of_length_le (length ▸ rest)]

end Span

namespace RowWrite

variable {α : Type}

/-- The entry that a write leaves at a position. -/
def entryAt (w : RowWrite α) (i : Nat) : Option α :=
  if i < w.start then none else w.entries[i - w.start]?

theorem getElem?_writeFrom {buffer : Array α} {j : Nat} (h : j < buffer.size) (i : Nat)
    (entries : List α) :
    (writeFrom buffer i entries)[j]? = ((⟨i, entries⟩ : RowWrite α).entryAt j).or buffer[j]? := by
  induction entries generalizing buffer i with
  | nil => simp only [writeFrom, entryAt, List.getElem?_nil, ite_self, Option.none_or]
  | cons a rest ih =>
      rw [writeFrom, ih (by rwa [Array.size_setIfInBounds])]
      rcases Nat.lt_trichotomy j i with before | rfl | after
      · rw [entryAt, if_pos (by simp only; omega), entryAt, if_pos before,
          Array.getElem?_setIfInBounds_ne (by omega)]
      · rw [entryAt, if_pos (Nat.lt_succ_self _), entryAt, if_neg (Nat.lt_irrefl _),
          Array.getElem?_setIfInBounds_self, if_pos h]
        simp only [Nat.sub_self, List.getElem?_cons_zero, Option.none_or, Option.some_or]
      · have next : j - i = j - (i + 1) + 1 := by omega
        rw [entryAt, if_neg (by simp only; omega), entryAt, if_neg (by simp only; omega),
          Array.getElem?_setIfInBounds_ne (by omega)]
        simp only [next, List.getElem?_cons_succ]

theorem getElem?_run {buffer : Array α} {i : Nat} (h : i < buffer.size) (w : RowWrite α) :
    (run buffer w)[i]? = (w.entryAt i).or buffer[i]? := getElem?_writeFrom h w.start w.entries

/-- The order of the writes plays no part: only what they leave at the position does. -/
theorem getElem?_runAll {writes : List (RowWrite α)} {buffer : Array α} {i : Nat} {a : α}
    (h : i < buffer.size) (agree : ∀ w ∈ writes, ∀ b, w.entryAt i = some b → b = a)
    (known : buffer[i]? = some a ∨ ∃ w ∈ writes, w.entryAt i = some a) :
    (runAll writes buffer)[i]? = some a := by
  -- Carried along: the entry is in the buffer already, or a write to come leaves it there.
  induction writes generalizing buffer with
  | nil =>
      rcases known with kept | ⟨w, member, _⟩
      · exact kept
      · cases member
  | cons w rest ih =>
      change (runAll rest (run buffer w))[i]? = some a
      apply ih (by rwa [run, size_writeFrom]) fun v member => agree v (List.mem_cons_of_mem _ member)
      rw [getElem?_run h]
      cases left : w.entryAt i with
      | some b =>
          rw [agree w List.mem_cons_self b left]
          exact Or.inl rfl
      | none =>
          rcases known with kept | ⟨v, member, entry⟩
          · exact Or.inl kept
          · rcases List.mem_cons.mp member with rfl | later
            · rw [left] at entry
              cases entry
            · exact Or.inr ⟨v, later, entry⟩

/-- One write for each of `n` rows of equal size. -/
def rows (n size : Nat) (row : Nat → List α) : List (RowWrite α) :=
  (List.range n).map fun y => ⟨y * size, row y⟩

theorem entryAt_row (row : Nat → List α) (size y j : Nat) :
    (⟨y * size, row y⟩ : RowWrite α).entryAt (y * size + j) = (row y)[j]? := by
  rw [entryAt, if_neg (by simp only; omega), Nat.add_sub_cancel_left]

/-- A position belongs to one row only, so the write that reaches it is that of its row. -/
theorem row_eq_of_entryAt {row : Nat → List α} {size z y j : Nat} {b : α} (len : (row z).length = size)
    (hj : j < size) (left : (⟨z * size, row z⟩ : RowWrite α).entryAt (y * size + j) = some b) : z = y := by
  rw [entryAt] at left
  split at left
  · cases left
  · rename_i after
    simp only at left after
    obtain ⟨within, _⟩ := List.getElem?_eq_some_iff.mp left
    rw [len] at within
    rw [← row_position_div (y := y) hj, ← row_position_div (y := z) within,
      Nat.add_sub_cancel' (Nat.le_of_not_lt after)]

/-- Rows of equal size stand one after the other in the buffer, in whichever order they were written. -/
theorem getElem?_runAll_rows {n size : Nat} {row : Nat → List α} {writes : List (RowWrite α)}
    {buffer : Array α} (order : writes.Perm (rows n size row)) (hb : buffer.size = n * size)
    (len : ∀ y < n, (row y).length = size) {y j : Nat} (hy : y < n) (hj : j < size) :
    (runAll writes buffer)[y * size + j]? = (row y)[j]? := by
  obtain ⟨a, entry⟩ : ∃ a, (row y)[j]? = some a :=
    ⟨_, List.getElem?_eq_getElem (by rwa [len y hy])⟩
  rw [entry]
  apply getElem?_runAll (by rw [hb]; exact row_position_lt hy hj)
  · intro w member b left
    obtain ⟨z, hz, rfl⟩ := List.mem_map.mp (order.mem_iff.mp member)
    obtain rfl := row_eq_of_entryAt (len z (List.mem_range.mp hz)) hj left
    rw [entryAt_row, entry] at left
    exact (Option.some.inj left).symm
  · right
    refine ⟨⟨y * size, row y⟩, order.mem_iff.mpr (List.mem_map.mpr ⟨y, List.mem_range.mpr hy, rfl⟩), ?_⟩
    rw [entryAt_row, entry]

/-- The positions that a write fills. -/
def Fills (w : RowWrite α) (i : Nat) : Prop := w.start ≤ i ∧ i < w.start + w.entries.length

/-- One write for each of `n` rows of equal size. No two fill the same position, and together they fill all of
`total` positions. -/
structure Tile (writes : List (RowWrite α)) (n size total : Nat) : Prop where
  count : writes.length = n
  row : ∀ y < n, ∃ w, writes[y]? = some w ∧ w.start = y * size ∧ w.entries.length = size
  apart : writes.Pairwise fun v w => ∀ i, v.Fills i → ¬ w.Fills i
  whole : ∀ i, (∃ w ∈ writes, w.Fills i) ↔ i < total

section
variable {n size : Nat} {row : Nat → List α} (len : ∀ y < n, (row y).length = size)
include len

theorem fills_row_iff {y i : Nat} (hy : y < n) :
    (⟨y * size, row y⟩ : RowWrite α).Fills i ↔ y * size ≤ i ∧ i < y * size + size := by
  rw [Fills, len y hy]

theorem tile_rows : Tile (rows n size row) n size (n * size) := by
  refine ⟨?_, ?_, ?_, ?_⟩
  · rw [rows, List.length_map, List.length_range]
  · intro y hy
    refine ⟨⟨y * size, row y⟩, ?_, rfl, len y hy⟩
    rw [rows, List.getElem?_map, List.getElem?_range hy, Option.map_some]
  · rw [rows, List.pairwise_map]
    refine List.pairwise_lt_range.imp_of_mem ?_
    intro y z hy hz before i first second
    rw [fills_row_iff len (List.mem_range.mp hy)] at first
    rw [fills_row_iff len (List.mem_range.mp hz)] at second
    have ends : y * size + size ≤ z * size := row_end_le before
    omega
  · intro i
    constructor
    · rintro ⟨w, member, fills⟩
      obtain ⟨y, hy, rfl⟩ := List.mem_map.mp member
      have hy := List.mem_range.mp hy
      rw [fills_row_iff len hy] at fills
      exact Nat.lt_of_lt_of_le fills.2 (row_end_le hy)
    · intro hi
      obtain ⟨hy, hj⟩ := row_of_position hi
      have position := Nat.div_add_mod' i size
      refine ⟨_, List.mem_map.mpr ⟨i / size, List.mem_range.mpr hy, rfl⟩, ?_⟩
      rw [fills_row_iff len hy]
      omega

end

end RowWrite

end TwoBitAlpha
