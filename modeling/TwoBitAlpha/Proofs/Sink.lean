import TwoBitAlpha.Sink

/-!
Writing to a sink piece by piece.

The room that one piece leaves is the room that the next one finds, and a piece that does not fit ends the writing. So to
write pieces one after the other is to write them as one, wherever they are cut.
-/

namespace TwoBitAlpha

namespace Sink

def joined (pieces : List (Array UInt8)) : Array UInt8 := pieces.foldr (· ++ ·) #[]

/-- The bytes of lines with their newlines, in UTF-8. -/
def lineBytes (lines : List String) : Array UInt8 := (String.join (lines.map (· ++ "\n"))).toUTF8.data

theorem accept_append (s : Sink) (a b : Array UInt8) :
    s.accept (a ++ b) = if (s.accept a).1 = true then (s.accept a).2.accept b else s.accept a := by
  obtain ⟨room, taken⟩ := s
  cases room with
  | none => simp only [accept, if_true, Array.append_assoc]
  | some n =>
      simp only [accept, decide_eq_true_eq, Array.size_append, Array.take_eq_extract, Array.extract_append]
      split
      · rename_i fits
        have both : a.size + b.size ≤ n ↔ b.size ≤ n - a.size := by omega
        have all : a.extract 0 n = a := Array.extract_eq_self_of_le fits
        simp only [both, all, Nat.sub_sub, Nat.zero_sub, Array.append_assoc]
      · rename_i exceeds
        have neither : ¬ a.size + b.size ≤ n := by omega
        have nothing : b.extract (0 - a.size) (n - a.size) = #[] := Array.extract_empty_of_stop_le_start (by omega)
        have none_left : n - (a.size + b.size) = n - a.size := by omega
        simp only [neither, exceeds, nothing, none_left, Array.append_empty]

theorem accept_empty (s : Sink) : s.accept #[] = (true, s) := by
  obtain ⟨room, taken⟩ := s
  cases room with
  | none => rw [accept, Array.append_empty]
  | some n =>
      simp only [accept, Array.size_empty, Nat.zero_le, decide_true, Nat.sub_zero, Array.take_eq_extract,
        Array.extract_empty, Array.append_empty]

theorem run_putBytes_bind (bytes : Array UInt8) (after : Writing Unit) (s : Sink) :
    (putBytes bytes >>= fun _ => after).run.run s =
      if (s.accept bytes).1 = true then after.run.run (s.accept bytes).2
      else (.error .full, (s.accept bytes).2) := by
  change ((if (s.accept bytes).1 = true then pure () else throw .full : Writing Unit) >>= fun _ => after).run.run
    (s.accept bytes).2 = _
  split
  · rfl
  · rfl

theorem run_putBytes (bytes : Array UInt8) (s : Sink) :
    (putBytes bytes).run.run s =
      (if (s.accept bytes).1 = true then .ok () else .error .full, (s.accept bytes).2) := by
  have alone : putBytes bytes = putBytes bytes >>= fun _ => pure () := (bind_pure (putBytes bytes)).symm
  rw [alone, run_putBytes_bind]
  split
  · rfl
  · rfl

theorem putBytes_append (a b : Array UInt8) :
    putBytes (a ++ b) = putBytes a >>= fun _ => putBytes b := by
  apply ExceptT.ext
  apply StateT.ext
  intro s
  rw [run_putBytes_bind, run_putBytes, accept_append]
  -- If the first piece does not fit, neither does the whole, and both leave the same.
  split
  · rw [run_putBytes]
  · rfl

theorem forM_putBytes (pieces : List (Array UInt8)) : pieces.forM putBytes = putBytes (joined pieces) := by
  induction pieces with
  | nil =>
      apply ExceptT.ext
      apply StateT.ext
      intro s
      rw [joined, List.foldr_nil, run_putBytes, accept_empty]
      rfl
  | cons piece rest ih =>
      have first : (piece :: rest).forM putBytes = putBytes piece >>= fun _ => rest.forM putBytes := rfl
      rw [joined, List.foldr_cons, putBytes_append, first, ih, joined]

theorem joined_lines (lines : List String) :
    joined (lines.map fun line => (line ++ "\n").toUTF8.data) = lineBytes lines := by
  induction lines with
  | nil => rfl
  | cons line rest ih =>
      have bytes : (line ++ "\n" ++ String.join (rest.map (· ++ "\n"))).toUTF8.data =
          (line ++ "\n").toUTF8.data ++ (String.join (rest.map (· ++ "\n"))).toUTF8.data := ByteArray.data_append
      rw [lineBytes, List.map_cons, List.map_cons, String.join_cons, bytes, joined, List.foldr_cons]
      exact congrArg ((line ++ "\n").toUTF8.data ++ ·) ih

theorem forM_putLine (lines : List String) : lines.forM putLine = putBytes (lineBytes lines) := by
  have pieces : (lines.map fun line => (line ++ "\n").toUTF8.data).forM putBytes = lines.forM putLine :=
    List.forM_map
  rw [← pieces, forM_putBytes, joined_lines]

theorem collect_putBytes_none (bytes : Array UInt8) : (putBytes bytes).collect none = (.ok (), bytes) := by
  rw [Writing.collect, run_putBytes, accept, empty, Array.empty_append]
  rfl

theorem collect_putBytes_some (bytes : Array UInt8) (n : Nat) :
    (putBytes bytes).collect (some n) = (if bytes.size ≤ n then .ok () else .error .full, bytes.take n) := by
  rw [Writing.collect, run_putBytes]
  simp only [accept, empty, decide_eq_true_eq, Array.empty_append]

theorem collect_putBytes_bind {bytes : Array UInt8} {n : Nat} (exceeds : n < bytes.size) (after : Writing Unit) :
    (putBytes bytes >>= fun _ => after).collect (some n) = (putBytes bytes).collect (some n) := by
  have full : ¬ bytes.size ≤ n := Nat.not_le_of_lt exceeds
  rw [Writing.collect, Writing.collect, run_putBytes_bind, run_putBytes]
  simp only [accept, empty, decide_eq_true_eq, if_neg full]

end Sink

end TwoBitAlpha
