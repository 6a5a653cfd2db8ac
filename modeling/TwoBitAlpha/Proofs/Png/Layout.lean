import TwoBitAlpha.Png.Layout

/-!
The size of a picture's file. Rows are stored as they are, so a file is never shorter than its samples.
-/

namespace TwoBitAlpha.Png

theorem size_le_size_chunk (name : String) (data : Array UInt8) : data.size ≤ (chunk name data).size := by
  simp only [chunk, Array.size_append]
  omega

theorem size_storedBlock (last : Bool) (bytes : Array UInt8) :
    (storedBlock last bytes).size = 5 + bytes.size := by
  simp only [storedBlock, Array.size_append]
  rfl

theorem size_filteredRows (p : Picture) :
    (filteredRows p).size = p.height.toNat * (p.width.toNat * p.format.pixelBytes + 1) := by
  have whole : p.bytes.size = p.height.toNat * (p.width.toNat * p.format.pixelBytes) := by
    rw [p.size_eq, ← Nat.mul_assoc, Nat.mul_comm p.height.toNat]
  simp only [filteredRows]
  generalize p.width.toNat * p.format.pixelBytes = stride at whole ⊢
  have rows : ∀ n ≤ p.height.toNat, ((List.range n).foldl (fun out y =>
      out.push 0 ++ p.bytes.extract (y * stride) (y * stride + stride)) #[]).size = n * (stride + 1) := by
    intro n
    induction n with
    | zero =>
        intro _
        rw [Nat.zero_mul]
        rfl
    | succ n ih =>
        intro row
        have row_end : n * stride + stride ≤ p.bytes.size := by
          rw [whole, ← Nat.succ_mul]
          exact Nat.mul_le_mul_right _ row
        rw [List.range_succ, List.foldl_append, List.foldl_cons, List.foldl_nil, Array.size_append,
          Array.size_push, ih (Nat.le_of_succ_le row), Array.size_extract, Nat.min_eq_left row_end,
          Nat.succ_mul]
        omega
  exact rows p.height.toNat (Nat.le_refl _)

theorem size_le_size_store (bytes : Array UInt8) : bytes.size ≤ (store bytes).size := by
  have blocks : ∀ n, n * blockLimit ≤ bytes.size → n * blockLimit ≤ ((List.range n).foldl (fun out k =>
      out ++ storedBlock false (bytes.extract (k * blockLimit) ((k + 1) * blockLimit))) #[0x78, 0x01]).size := by
    intro n
    induction n with
    | zero =>
        intro _
        rw [Nat.zero_mul]
        exact Nat.zero_le _
    | succ n ih =>
        intro block
        have earlier : n * blockLimit ≤ bytes.size :=
          Nat.le_trans (Nat.mul_le_mul_right _ (Nat.le_succ n)) block
        rw [List.range_succ, List.foldl_append, List.foldl_cons, List.foldl_nil, Array.size_append,
          size_storedBlock, Array.size_extract, Nat.min_eq_left block, Nat.succ_mul]
        have before := ih earlier
        omega
  have full := blocks (bytes.size / blockLimit) (Nat.div_mul_le_self _ _)
  simp only [store, Array.size_append, size_storedBlock, Array.size_extract, Nat.min_self]
  omega

theorem size_le_size_encode (p : Picture) : p.bytes.size ≤ (encode p).size := by
  have rows : p.bytes.size ≤ (filteredRows p).size := by
    rw [size_filteredRows, p.size_eq, Nat.mul_right_comm, Nat.mul_comm _ p.height.toNat]
    exact Nat.mul_le_mul_left _ (Nat.le_succ _)
  have stored := size_le_size_store (filteredRows p)
  have data := size_le_size_chunk "IDAT" (store (filteredRows p))
  simp only [encode, Array.size_append]
  omega

end TwoBitAlpha.Png
