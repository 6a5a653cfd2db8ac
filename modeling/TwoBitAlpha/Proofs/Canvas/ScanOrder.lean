import Mathlib.Data.Prod.Lex
import Mathlib.Data.Set.Function
import TwoBitAlpha.Proofs.Canvas.Layout

/-!
The slots of a canvas in the order of its pixels.

Pixels are counted row by row from the top left, slots byte by byte and from the left within a byte. Going from a
pixel to its slot is one to one, reaches every slot that stands for a column of the canvas, and keeps the order. What
carries it: a pixel is as many fields from the start of the map as its row and column say.
-/

namespace TwoBitAlpha.Canvas

/-- The pixels of a canvas, each as its column and row. -/
def pixels (c : Canvas) : Set (UInt32 × UInt32) := {p | c.contains p.1 p.2 = true}

instance (c : Canvas) (p : UInt32 × UInt32) : Decidable (p ∈ c.pixels) :=
  inferInstanceAs (Decidable (c.contains p.1 p.2 = true))

/-- The byte that holds a pixel, and the field of it. -/
def slotOf (c : Canvas) (p : UInt32 × UInt32) : Nat × Fin 4 := ((c.offset p.1 p.2).toNat, fieldOf p.1)

/-- The slots of a map that stand for a column of the canvas. -/
def filledSlots (c : Canvas) : Set (Nat × Fin 4) :=
  {s | s.1 < c.packedLength.toNat ∧ 4 * (s.1 % c.rowBytes.toNat) + s.2.val < c.width.toNat}

instance (c : Canvas) (s : Nat × Fin 4) : Decidable (s ∈ c.filledSlots) :=
  inferInstanceAs (Decidable (_ ∧ _))

/-- The order of pixels: by row, and by column within a row. -/
def rowMajor (p : UInt32 × UInt32) : UInt32 ×ₗ UInt32 := toLex (p.2, p.1)

/-- Pairs with a second part below `n` are ordered as the numbers that they write in base `n`. -/
theorem lt_iff_place_lt {n a b a' b' : Nat} (hb : b < n) (hb' : b' < n) :
    a < a' ∨ a = a' ∧ b < b' ↔ a * n + b < a' * n + b' := by
  rcases Nat.lt_trichotomy a a' with before | rfl | after
  · have ends : a * n + n ≤ a' * n := row_end_le before
    omega
  · omega
  · have ends : a' * n + n ≤ a * n := row_end_le after
    omega

theorem slotOf_place (c : Canvas) (p : UInt32 × UInt32) :
    (c.slotOf p).1 * 4 + (c.slotOf p).2.val = p.2.toNat * (c.rowBytes.toNat * 4) + p.1.toNat := by
  change (c.offset p.1 p.2).toNat * 4 + (fieldOf p.1).val = _
  rw [offset_toNat, fieldOf_val, Nat.add_mul, Nat.mul_assoc, Nat.add_assoc, Nat.div_add_mod']

theorem slot_lt_iff (s t : Nat × Fin 4) :
    toLex s < toLex t ↔ s.1 * 4 + s.2.val < t.1 * 4 + t.2.val := by
  rw [Prod.Lex.toLex_lt_toLex]
  exact lt_iff_place_lt s.2.isLt t.2.isLt

section
variable {c : Canvas} {p q : UInt32 × UInt32}

theorem column_lt_fields (hp : p ∈ c.pixels) : p.1.toNat < c.rowBytes.toNat * 4 := by
  obtain ⟨column, _⟩ := (contains_iff _ _ _).mp hp
  have row := c.rowBytes_toNat
  omega

theorem rowMajor_lt_iff (hp : p ∈ c.pixels) (hq : q ∈ c.pixels) :
    rowMajor p < rowMajor q ↔
      p.2.toNat * (c.rowBytes.toNat * 4) + p.1.toNat < q.2.toNat * (c.rowBytes.toNat * 4) + q.1.toNat := by
  rw [rowMajor, rowMajor, Prod.Lex.toLex_lt_toLex, UInt32.lt_iff_toNat_lt, UInt32.lt_iff_toNat_lt,
    ← UInt32.toNat_inj]
  exact lt_iff_place_lt (column_lt_fields hp) (column_lt_fields hq)

theorem slotOf_lt_iff (hp : p ∈ c.pixels) (hq : q ∈ c.pixels) :
    toLex (c.slotOf p) < toLex (c.slotOf q) ↔ rowMajor p < rowMajor q := by
  rw [slot_lt_iff, slotOf_place, slotOf_place, rowMajor_lt_iff hp hq]

theorem mem_filledSlots_iff (s : Nat × Fin 4) :
    s ∈ c.filledSlots ↔ s.1 < c.packedLength.toNat ∧ ¬ c.IsPadding s.1 s.2 := by
  rw [isPadding_iff, Nat.not_le]
  rfl

theorem slotOf_mem_filledSlots (hp : p ∈ c.pixels) : c.slotOf p ∈ c.filledSlots :=
  (mem_filledSlots_iff _).mpr ⟨offset_lt_packedLength hp, not_isPadding_offset hp⟩

theorem mem_pixels_of_mem_filledSlots {s : Nat × Fin 4} (hs : s ∈ c.filledSlots) :
    (c.slotColumn s.1 s.2, c.slotRow s.1) ∈ c.pixels := by
  obtain ⟨within, shown⟩ := (mem_filledSlots_iff s).mp hs
  exact (contains_slot_iff within s.2).mpr shown

theorem slotOf_bijOn (c : Canvas) : Set.BijOn c.slotOf c.pixels c.filledSlots := by
  have inverse : Set.InvOn (fun s => (c.slotColumn s.1 s.2, c.slotRow s.1)) c.slotOf c.pixels c.filledSlots := by
    refine ⟨?_, ?_⟩
    · intro p hp
      exact Prod.ext (slotColumn_offset hp) (slotRow_offset hp)
    · intro s hs
      exact Prod.ext (offset_slot hs.1 s.2) (fieldOf_slotColumn c s.1 s.2)
  exact inverse.bijOn (fun _ => slotOf_mem_filledSlots) (fun _ => mem_pixels_of_mem_filledSlots)

theorem offset_eq_offset_iff (hp : p ∈ c.pixels) (hq : q ∈ c.pixels) :
    c.offset p.1 p.2 = c.offset q.1 q.2 ↔ p.2 = q.2 ∧ p.1 / 4 = q.1 / 4 := by
  obtain ⟨column, _⟩ := (contains_iff _ _ _).mp hq
  have byte_lt := div_four_lt_rowBytes column
  rw [← UInt64.toNat_inj, offset_eq_iff hp, offset_toNat, row_position_mod byte_lt, row_position_div byte_lt,
    and_comm, UInt32.toNat_inj, ← UInt32.toNat_inj (a := p.1 / 4)]
  rfl

/-- The first field of a byte always has a pixel. -/
theorem zero_mem_filledSlots {i : Nat} (h : i < c.packedLength.toNat) : (i, 0) ∈ c.filledSlots := by
  refine ⟨h, ?_⟩
  have byte_lt := Nat.mod_lt i c.rowBytes_toNat_pos
  have row := c.rowBytes_toNat
  change 4 * (i % c.rowBytes.toNat) + 0 < _
  omega

end

/-- Pixels go one to one onto the slots within the width of the canvas, in scan order. Those that share a byte are in
one row and one group of four columns, and no byte is without a pixel. -/
theorem scan_order (c : Canvas) :
    Set.InjOn c.slotOf c.pixels ∧
    (∀ p ∈ c.pixels, (c.offset p.1 p.2).toNat < c.packedLength.toNat) ∧
    c.slotOf '' c.pixels = c.filledSlots ∧
    (∀ p ∈ c.pixels, ∀ q ∈ c.pixels, rowMajor p < rowMajor q ↔ toLex (c.slotOf p) < toLex (c.slotOf q)) ∧
    (∀ p ∈ c.pixels, ∀ q ∈ c.pixels,
      c.offset p.1 p.2 = c.offset q.1 q.2 ↔ p.2 = q.2 ∧ p.1 / 4 = q.1 / 4) ∧
    ∀ i < c.packedLength.toNat, ∃ p ∈ c.pixels, (c.offset p.1 p.2).toNat = i := by
  refine ⟨c.slotOf_bijOn.injOn, fun p hp => offset_lt_packedLength hp, c.slotOf_bijOn.image_eq,
    fun p hp q hq => (slotOf_lt_iff hp hq).symm, fun p hp q hq => offset_eq_offset_iff hp hq, ?_⟩
  intro i h
  obtain ⟨p, hp, slot⟩ := c.slotOf_bijOn.surjOn (zero_mem_filledSlots h)
  exact ⟨p, hp, congrArg Prod.fst slot⟩

/-- Five columns: the last pixel of the upper row has its byte to itself and comes right before the first pixel of the
lower row. -/
theorem scan_order_five_columns :
    let c : Canvas := ⟨5, 2, by decide, by decide⟩
    ((4, 0) ∈ c.pixels ∧ (0, 1) ∈ c.pixels ∧ (1, 0) ∈ c.filledSlots ∧ (1, 1) ∉ c.filledSlots) ∧
      c.slotOf (4, 0) = (1, 0) ∧ toLex (c.slotOf (4, 0)) < toLex (c.slotOf (0, 1)) ∧
      c.offset 4 0 ≠ c.offset 3 0 ∧ ∃ p ∈ c.pixels, (c.offset p.1 p.2).toNat = 3 := by
  intro c
  have last : (4, 0) ∈ c.pixels := by decide
  have first : (0, 1) ∈ c.pixels := by decide
  have third : (3, 0) ∈ c.pixels := by decide
  obtain ⟨_, _, image, order, sharing, nonempty⟩ := scan_order c
  refine ⟨⟨last, first, image ▸ ⟨(4, 0), last, by decide⟩, by decide⟩, by decide,
    (order _ last _ first).mp ?_, ?_, nonempty 3 (by decide)⟩
  · exact Prod.Lex.toLex_lt_toLex.mpr (.inl (by decide))
  · intro same
    exact absurd ((sharing _ last _ third).mp same) (by decide)

end TwoBitAlpha.Canvas
