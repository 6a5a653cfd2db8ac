import TwoBitAlpha.Proofs.CArray.Text

/-!
Writing a C array where there is little room.

The definition is one run of bytes, and it makes no difference into which lines or smaller pieces it is cut for writing. A
sink takes the first bytes of the run, as many as it has room for, and the first piece that does not fit is the last
one that is tried.
-/

namespace TwoBitAlpha.CArray

theorem size_text (m : PackedMap) (symbol : String) :
    (text m symbol).toUTF8.data.size = (text m symbol).utf8ByteSize := rfl

theorem lineBytes_append (front back : List String) :
    Sink.lineBytes (front ++ back) = Sink.lineBytes front ++ Sink.lineBytes back := by
  rw [Sink.lineBytes, List.map_append, String.join_append]
  exact ByteArray.data_append

/-- The lines after one that does not fit play no part. -/
theorem collect_write_take {m : PackedMap} {symbol : String} {n k : Nat}
    (exceeds : n < (Sink.lineBytes ((lines m symbol).take k)).size) :
    (write m symbol).collect (some n) = (((lines m symbol).take k).forM Sink.putLine).collect (some n) := by
  have all : write m symbol = Sink.putBytes (Sink.lineBytes ((lines m symbol).take k)) >>= fun _ =>
      Sink.putBytes (Sink.lineBytes ((lines m symbol).drop k)) := by
    rw [← Sink.putBytes_append, ← lineBytes_append, List.take_append_drop]
    exact Sink.forM_putLine (lines m symbol)
  rw [all, Sink.collect_putBytes_bind exceeds, Sink.forM_putLine]

/-- A sink with room for `n` bytes ends up with the first `n` bytes of the definition, or with all of it, and the writing
succeeds if and only if there is room for all. Once the first lines do not fit, no later line counts, and pieces of any
other size would have left the same. -/
theorem write_within_room (m : PackedMap) (symbol : String) (n : Nat) :
    let bytes := (text m symbol).toUTF8.data
    (write m symbol).collect none = (.ok (), bytes) ∧
    bytes.size = (text m symbol).utf8ByteSize ∧
    ((write m symbol).collect (some n)).2 = bytes.take (min n bytes.size) ∧
    (((write m symbol).collect (some n)).1 = .ok () ↔ bytes.size ≤ n) ∧
    (((write m symbol).collect (some n)).1 = .error .full ↔ n < bytes.size) ∧
    (∀ k, n < (Sink.lineBytes ((lines m symbol).take k)).size →
      (write m symbol).collect (some n) = (((lines m symbol).take k).forM Sink.putLine).collect (some n)) ∧
    ∀ pieces, Sink.joined pieces = bytes →
      (pieces.forM Sink.putBytes).collect (some n) = (write m symbol).collect (some n) := by
  intro bytes
  have limited : (write m symbol).collect (some n) =
      (if bytes.size ≤ n then .ok () else .error .full, bytes.take n) := by
    rw [write_eq_putBytes, Sink.collect_putBytes_some]
  have cut : bytes.take n = bytes.take (min n bytes.size) := by
    simp only [Array.take_eq_extract, Array.extract_eq_extract_right, Nat.sub_zero, Nat.min_assoc, Nat.min_self]
  refine ⟨collect_write m symbol, size_text m symbol, ?_, ?_, ?_, fun k => collect_write_take, ?_⟩
  · rw [limited, cut]
  · rw [limited]
    split
    · rename_i fits
      exact iff_of_true rfl fits
    · rename_i exceeds
      exact iff_of_false nofun exceeds
  · rw [limited, ← Nat.not_le]
    split
    · rename_i fits
      exact iff_of_false nofun (not_not_intro fits)
    · rename_i exceeds
      exact iff_of_true rfl exceeds
  · intro pieces whole
    rw [Sink.forM_putBytes, whole, write_eq_putBytes]

/-- Room for five bytes, which end within the first line. -/
theorem write_within_room_of_five :
    let m : PackedMap := ⟨⟨1, 1, by decide, by decide⟩, #[64], by rfl⟩
    5 < (Sink.lineBytes ((lines m "_").take 1)).size ∧
    (write m "_").collect (some 5) = (((lines m "_").take 1).forM Sink.putLine).collect (some 5) ∧
    ((write m "_").collect (some 5)).2 = "// 1x".toUTF8.data := by
  intro m
  obtain ⟨_, _, start, _, _, stops, _⟩ := write_within_room m "_" 5
  have exceeds : 5 < (Sink.lineBytes ((lines m "_").take 1)).size := by decide +kernel
  exact ⟨exceeds, stops 1 exceeds, start.trans (by decide +kernel)⟩

end TwoBitAlpha.CArray
