import TwoBitAlpha.Proofs.RowWrite

/-!
Buffers as rows, one after the other.

Filling a buffer row by row leaves the rows in a line (`RowWrite.runAll_rows`), so a fact about one row is a fact about
the buffer: rows are cut off, put below each other and read back without counting positions.
-/

namespace TwoBitAlpha

variable {α : Type} {n k size : Nat} {row other : Nat → List α}

/-- The first `n` rows, one after the other. -/
def ofRows (n : Nat) (row : Nat → List α) : Array α := ((List.range n).flatMap row).toArray

theorem ofRows_congr (same : ∀ y < n, row y = other y) : ofRows n row = ofRows n other := by
  have all : (List.range n).map row = (List.range n).map other :=
    List.map_congr_left fun y member => same y (List.mem_range.mp member)
  rw [ofRows, ofRows, List.flatMap_def, List.flatMap_def, all]

theorem ofRows_add (n k : Nat) (row : Nat → List α) :
    ofRows (n + k) row = ofRows n row ++ ofRows k fun y => row (n + y) := by
  rw [ofRows, List.range_add, List.flatMap_append, List.flatMap_map, List.append_toArray]
  rfl

theorem ofRows_split {first second : Nat → List α} (before : ∀ y < n, row y = first y)
    (after : ∀ y < k, row (n + y) = second y) : ofRows (n + k) row = ofRows n first ++ ofRows k second := by
  rw [ofRows_add, ofRows_congr before, ofRows_congr after]

theorem ofRows_one (row : Nat → List α) : ofRows 1 row = (row 0).toArray := by
  simp [ofRows]

section
variable (len : ∀ y < n, (row y).length = size)
include len

theorem size_ofRows : (ofRows n row).size = n * size := by
  induction n with
  | zero => simp [ofRows]
  | succ n ih =>
      rw [ofRows_add, Array.size_append, ih fun y hy => len y (Nat.lt_succ_of_lt hy), ofRows_one, List.size_toArray,
        Nat.add_zero, len n (Nat.lt_succ_self n), Nat.succ_mul]

theorem getElem?_ofRows {y j : Nat} (hy : y < n) (hj : j < size) :
    (ofRows n row)[y * size + j]? = (row y)[j]? := by
  induction n with
  | zero => cases hy
  | succ n ih =>
      have before : (ofRows n row).size = n * size := size_ofRows fun z hz => len z (Nat.lt_succ_of_lt hz)
      rw [ofRows_add]
      rcases Nat.lt_succ_iff_lt_or_eq.mp hy with earlier | rfl
      · rw [Array.getElem?_append_left (by rw [before]; exact row_position_lt earlier hj)]
        exact ih (fun z hz => len z (Nat.lt_succ_of_lt hz)) earlier
      · rw [Array.getElem?_append_right (by omega), before, Nat.add_sub_cancel_left, ofRows_one, List.getElem?_toArray,
          Nat.add_zero]

theorem toList_extract_ofRows {y : Nat} (hy : y < n) (short : k ≤ size) :
    ((ofRows n row).extract (y * size) (y * size + k)).toList = (row y).take k := by
  have row_end : y * size + size ≤ n * size := row_end_le hy
  apply List.ext_getElem?
  intro j
  rw [Array.getElem?_toList, Array.getElem?_extract, size_ofRows len]
  by_cases within : j < k
  · rw [if_pos (by omega), getElem?_ofRows len hy (Nat.lt_of_lt_of_le within short), List.getElem?_take_of_lt within]
  · rw [if_neg (by omega), List.getElem?_take_eq_none (Nat.le_of_not_lt within)]

end

/-- What a buffer held before, and the order in which the rows are written, make no difference. -/
theorem RowWrite.runAll_rows {writes : List (RowWrite α)} {buffer : Array α} (order : writes.Perm (rows n size row))
    (len : ∀ y < n, (row y).length = size) (hb : buffer.size = n * size) :
    runAll writes buffer = ofRows n row := by
  apply Array.ext_getElem?
  intro i
  by_cases within : i < n * size
  · obtain ⟨hy, hj⟩ := row_of_position within
    rw [← Nat.div_add_mod' i size, getElem?_runAll_rows order hb len hy hj, getElem?_ofRows len hy hj]
  · rw [Array.getElem?_eq_none (by rw [size_runAll, hb]; omega),
      Array.getElem?_eq_none (by rw [size_ofRows len]; omega)]

end TwoBitAlpha
