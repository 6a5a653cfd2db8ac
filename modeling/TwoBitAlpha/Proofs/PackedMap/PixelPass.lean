import TwoBitAlpha.Proofs.PackedMap.Access
import TwoBitAlpha.Proofs.PackedMap.Padding

/-!
Packing and drawing in one pass over the single pixels.

A pass that packs ors the level of each pixel into its field of a clear buffer, and a pass that draws sets the entry of
each pixel from its field. Both end as the rows do: what carries it is that a pixel is right from the moment it is
seen, as no other pixel has its field or its place.
-/

namespace TwoBitAlpha

theorem Level.toBits_injective {a b : Level} (h : a.toBits = b.toBits) : a = b := by
  rw [← ofBits_toBits a, h, ofBits_toBits]

namespace Group

theorem toBits_field_or (a b : UInt8) (k : Fin 4) :
    (field (a ||| b) k).toBits = (field a k).toBits ||| (field b k).toBits := by
  simp only [toBits_field, UInt8.shiftRight_or]
  apply UInt8.toBitVec_inj.mp
  ext i
  simp [Bool.and_or_distrib_right]

theorem field_shifted (l : Level) (j k : Fin 4) :
    field (l.toBits <<< (6 - 2 * UInt8.ofNat j.val)) k = if j = k then l else .transparent := by
  cases l <;> revert j k <;> decide

theorem field_or_other (b : UInt8) (l : Level) {j k : Fin 4} (other : j ≠ k) :
    field (b ||| l.toBits <<< (6 - 2 * UInt8.ofNat j.val)) k = field b k := by
  apply Level.toBits_injective
  rw [toBits_field_or, field_shifted, if_neg other]
  exact UInt8.or_zero

/-- A field that is transparent, or has the level already, has the level afterwards. -/
theorem field_or_same {b : UInt8} {l : Level} {k : Fin 4} (before : field b k = .transparent ∨ field b k = l) :
    field (b ||| l.toBits <<< (6 - 2 * UInt8.ofNat k.val)) k = l := by
  apply Level.toBits_injective
  rw [toBits_field_or, field_shifted, if_pos rfl]
  rcases before with clear | same
  · rw [clear]
    exact UInt8.zero_or
  · rw [same, UInt8.or_self]

end Group

namespace Canvas

/-- The pixels of a canvas in scan order. -/
def scan (c : Canvas) : List (UInt32 × UInt32) :=
  (List.range c.height.toNat).flatMap fun y =>
    (List.range c.width.toNat).map fun x => (UInt32.ofNat x, UInt32.ofNat y)

/-- Where the field of column `x` begins in its byte. -/
def shiftOf (x : UInt32) : UInt8 := (6 - 2 * (x % 4)).toUInt8

theorem mem_scan (c : Canvas) (x y : UInt32) : (x, y) ∈ c.scan ↔ c.contains x y = true := by
  simp only [scan, List.mem_flatMap, List.mem_map, List.mem_range, Prod.mk.injEq]
  rw [contains_iff]
  constructor
  · rintro ⟨b, hb, a, ha, rfl, rfl⟩
    rw [toNat_ofNat_of_lt_toNat ha, toNat_ofNat_of_lt_toNat hb]
    exact ⟨ha, hb⟩
  · rintro ⟨hx, hy⟩
    exact ⟨y.toNat, hy, x.toNat, hx, UInt32.ofNat_toNat, UInt32.ofNat_toNat⟩

/-- A pass over the canvas keeps what each pixel keeps, given the pixels that were seen before. -/
theorem foldl_scan {β : Type} (c : Canvas) {kept : List (UInt32 × UInt32) → β → Prop}
    {visit : β → UInt32 × UInt32 → β} {start : β} (fresh : kept [] start)
    (step : ∀ {seen b x y}, c.contains x y = true → kept seen b → kept (seen ++ [(x, y)]) (visit b (x, y))) :
    kept c.scan (c.scan.foldl visit start) := by
  have run : ∀ (pixels : List (UInt32 × UInt32)) {seen b}, (∀ p ∈ pixels, c.contains p.1 p.2 = true) →
      kept seen b → kept (seen ++ pixels) (pixels.foldl visit b) := by
    intro pixels
    induction pixels with
    | nil =>
        intro seen b _ before
        rwa [List.append_nil]
    | cons p rest ih =>
        intro seen b inside before
        have next := step (inside p List.mem_cons_self) before
        have done := ih (fun q member => inside q (List.mem_cons_of_mem _ member)) next
        rwa [List.append_assoc] at done
  exact run c.scan (fun _ member => (c.mem_scan _ _).mp member) fresh

end Canvas

namespace PackedMap

variable {r : Raster} {c : Canvas} {bytes : Array UInt8}

def orPixel (r : Raster) (c : Canvas) (bytes : Array UInt8) (p : UInt32 × UInt32) : Array UInt8 :=
  bytes.modify (c.offset p.1 p.2).toNat fun b => b ||| (r.levelAt p.1 p.2).toBits <<< Canvas.shiftOf p.1

/-- The alpha channel of a raster, pixel by pixel. -/
def packPixels (r : Raster) (c : Canvas) : Array UInt8 :=
  c.scan.foldl (orPixel r c) (Array.replicate c.packedLength.toNat 0)

def drawPixel {α : Type} (entry : Level → α) (bytes : Array UInt8) (c : Canvas) (buffer : Array α)
    (p : UInt32 × UInt32) : Array α :=
  match bytes[(c.offset p.1 p.2).toNat]? with
  | none => buffer
  | some b =>
    buffer.setIfInBounds (p.2.toNat * c.width.toNat + p.1.toNat) (entry (Level.ofBits (b >>> Canvas.shiftOf p.1)))

/-- One entry for each pixel, pixel by pixel. -/
def drawPixels {α : Type} (entry : Level → α) (blank : α) (bytes : Array UInt8) (c : Canvas) : Array α :=
  c.scan.foldl (drawPixel entry bytes c) (Array.replicate c.pixelCount.toNat blank)

/-- The fields of the pixels that were seen hold their levels, and the others are clear. -/
structure Filled (r : Raster) (c : Canvas) (seen : List (UInt32 × UInt32)) (bytes : Array UInt8) : Prop where
  size : bytes.size = c.packedLength.toNat
  level : ∀ {i k b}, bytes[i]? = some b → (c.slotColumn i k, c.slotRow i) ∈ seen →
    Group.field b k = r.levelAt (c.slotColumn i k) (c.slotRow i)
  clear : ∀ {i k b}, bytes[i]? = some b → (c.slotColumn i k, c.slotRow i) ∉ seen → Group.field b k = .transparent

theorem filled_clear (r : Raster) (c : Canvas) : Filled r c [] (Array.replicate c.packedLength.toNat 0) := by
  refine ⟨Array.size_replicate, ?_, ?_⟩
  · intro i k b _ member
    cases member
  · intro i k b byte _
    obtain ⟨_, rfl⟩ := Array.getElem?_eq_some_iff.mp byte
    have clear : ∀ k, Group.field 0 k = .transparent := by decide
    rw [Array.getElem_replicate, clear]

section
variable {seen : List (UInt32 × UInt32)} {x y : UInt32} (inside : c.contains x y = true)

theorem getElem?_orPixel (r : Raster) (c : Canvas) (bytes : Array UInt8) (x y : UInt32) (i : Nat) :
    (orPixel r c bytes (x, y))[i]? =
      if (c.offset x y).toNat = i then
        bytes[i]?.map fun b => b ||| (r.levelAt x y).toBits <<< (6 - 2 * UInt8.ofNat (Canvas.fieldOf x).val)
      else bytes[i]? := by
  rw [orPixel, Array.getElem?_modify, Canvas.shiftOf, shift_fieldOf]

include inside

/-- A pixel has one slot, and every other slot keeps its level. -/
theorem field_orPixel_other {i : Nat} {k : Fin 4} {b : UInt8} (byte : (orPixel r c bytes (x, y))[i]? = some b)
    (other : (c.slotColumn i k, c.slotRow i) ≠ (x, y)) :
    ∃ a, bytes[i]? = some a ∧ Group.field b k = Group.field a k := by
  rw [getElem?_orPixel] at byte
  split at byte
  · rename_i here
    subst here
    obtain ⟨a, before, rfl⟩ := Option.map_eq_some_iff.mp byte
    refine ⟨a, before, Group.field_or_other _ _ ?_⟩
    rintro rfl
    rw [Canvas.slotColumn_offset inside, Canvas.slotRow_offset inside] at other
    exact other rfl
  · exact ⟨b, byte, rfl⟩

theorem Filled.orPixel (filled : Filled r c seen bytes) :
    Filled r c (seen ++ [(x, y)]) (orPixel r c bytes (x, y)) := by
  refine ⟨by rw [PackedMap.orPixel, Array.size_modify, filled.size], ?_, ?_⟩
  · intro i k b byte member
    by_cases here : (c.slotColumn i k, c.slotRow i) = (x, y)
    · obtain ⟨rfl, rfl⟩ := Prod.mk.inj here
      obtain ⟨i_lt, _⟩ := Array.getElem?_eq_some_iff.mp byte
      rw [PackedMap.orPixel, Array.size_modify, filled.size] at i_lt
      rw [getElem?_orPixel, if_pos (Canvas.offset_slot i_lt k), Canvas.fieldOf_slotColumn] at byte
      obtain ⟨a, before, rfl⟩ := Option.map_eq_some_iff.mp byte
      apply Group.field_or_same
      by_cases again : (c.slotColumn i k, c.slotRow i) ∈ seen
      · exact .inr (filled.level before again)
      · exact .inl (filled.clear before again)
    · obtain ⟨a, before, same⟩ := field_orPixel_other inside byte here
      rw [same]
      rcases List.mem_append.mp member with earlier | now
      · exact filled.level before earlier
      · exact absurd (List.mem_singleton.mp now) here
  · intro i k b byte unseen
    rw [List.mem_append, not_or, List.mem_singleton] at unseen
    obtain ⟨a, before, same⟩ := field_orPixel_other inside byte unseen.2
    rw [same]
    exact filled.clear before unseen.1

end

theorem filled_packPixels (r : Raster) (c : Canvas) : Filled r c c.scan (packPixels r c) :=
  c.foldl_scan (filled_clear r c) fun inside filled => filled.orPixel inside

theorem ofRaster_eq_packPixels {m : PackedMap} (packed : ofRaster r c = .ok m) : m.bytes = packPixels r c := by
  obtain ⟨⟨width, height⟩, canvas, _⟩ := ofRaster_inv packed
  have filled := filled_packPixels r c
  apply eq_of_fields_eq (by rw [m.size_eq, canvas, filled.size])
  intro i k a b left right
  rw [field_ofRaster packed left]
  by_cases seen : (c.slotColumn i k, c.slotRow i) ∈ c.scan
  · exact (filled.level right seen).symm
  · rw [filled.clear right seen]
    apply Raster.levelAt_eq_transparent
    rw [Raster.contains, width, height]
    exact mt (c.mem_scan _ _).mpr seen

theorem field_eq_ofBits (b : UInt8) (x : UInt32) :
    Group.field b (Canvas.fieldOf x) = Level.ofBits (b >>> Canvas.shiftOf x) := by
  apply Level.toBits_injective
  rw [Group.toBits_field, Level.toBits_ofBits, Canvas.shiftOf, shift_fieldOf]

section
variable {α : Type} {entry : Level → α} {m : PackedMap} {buffer : Array α} {seen : List (UInt32 × UInt32)} {x y : UInt32}

theorem drawPixel_eq_set (entry : Level → α) (buffer : Array α) (inside : m.canvas.contains x y = true) :
    ∃ l, m.levelAt? x y = some l ∧
      drawPixel entry m.bytes m.canvas buffer (x, y) =
        buffer.setIfInBounds (y.toNat * m.canvas.width.toNat + x.toNat) (entry l) := by
  obtain ⟨b, byte, level⟩ := m.levelAt?_inside inside
  refine ⟨_, level, ?_⟩
  simp only [drawPixel, byte, field_eq_ofBits]

/-- Pixels that were seen have the entries of their levels. -/
structure Drawn (entry : Level → α) (m : PackedMap) (seen : List (UInt32 × UInt32)) (buffer : Array α) : Prop where
  size : buffer.size = m.canvas.height.toNat * m.canvas.width.toNat
  inside : ∀ {x y}, (x, y) ∈ seen → m.canvas.contains x y = true
  entries : ∀ {x y}, (x, y) ∈ seen →
    buffer[y.toNat * m.canvas.width.toNat + x.toNat]? = (m.levelAt? x y).map entry

theorem drawn_fresh (entry : Level → α) (blank : α) (m : PackedMap) :
    Drawn entry m [] (Array.replicate m.canvas.pixelCount.toNat blank) := by
  refine ⟨by rw [Array.size_replicate, m.canvas.pixelCount_toNat, Nat.mul_comm], ?_, ?_⟩
  · intro x y member
    cases member
  · intro x y member
    cases member

theorem Drawn.drawPixel (drawn : Drawn entry m seen buffer) (inside : m.canvas.contains x y = true) :
    Drawn entry m (seen ++ [(x, y)]) (drawPixel entry m.bytes m.canvas buffer (x, y)) := by
  obtain ⟨l, level, set⟩ := drawPixel_eq_set entry buffer inside
  obtain ⟨hx, hy⟩ := (Canvas.contains_iff _ _ _).mp inside
  have within : ∀ {u v}, (u, v) ∈ seen ++ [(x, y)] → m.canvas.contains u v = true := by
    intro u v member
    rcases List.mem_append.mp member with earlier | now
    · exact drawn.inside earlier
    · cases List.mem_singleton.mp now
      exact inside
  rw [set]
  refine ⟨by rw [Array.size_setIfInBounds, drawn.size], within, ?_⟩
  intro u v member
  by_cases here : y.toNat * m.canvas.width.toNat + x.toNat = v.toNat * m.canvas.width.toNat + u.toNat
  · obtain ⟨hu, _⟩ := (Canvas.contains_iff _ _ _).mp (within member)
    obtain ⟨rfl, rfl⟩ := Raster.position_injective hx hu here
    rw [Array.getElem?_setIfInBounds_self, if_pos (by rw [drawn.size]; exact row_position_lt hy hx), level,
      Option.map_some]
  · rw [Array.getElem?_setIfInBounds_ne here]
    rcases List.mem_append.mp member with earlier | now
    · exact drawn.entries earlier
    · cases List.mem_singleton.mp now
      exact absurd rfl here

theorem drawn_drawPixels (entry : Level → α) (blank : α) (m : PackedMap) :
    Drawn entry m m.canvas.scan (drawPixels entry blank m.bytes m.canvas) :=
  m.canvas.foldl_scan (drawn_fresh entry blank m) fun inside drawn => drawn.drawPixel inside

theorem draw_eq_drawPixels (entry : Level → α) (blank : α) (m : PackedMap) :
    draw entry blank m.bytes m.canvas = drawPixels entry blank m.bytes m.canvas := by
  have drawn := drawn_drawPixels entry blank m
  have size := (size_draw entry blank m.bytes m.canvas).trans m.canvas.pixelCount_toNat
  apply Raster.ext_position size
  · rw [drawn.size, Nat.mul_comm]
  · intro x y hx hy
    have inside := (Canvas.contains_iff _ _ _).mpr ⟨hx, hy⟩
    rw [getElem?_draw_level entry blank m inside]
    exact (drawn.entries ((m.canvas.mem_scan x y).mpr inside)).symm

end

end PackedMap

end TwoBitAlpha
