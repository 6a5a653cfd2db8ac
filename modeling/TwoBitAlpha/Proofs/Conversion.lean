import TwoBitAlpha.Conversion
import TwoBitAlpha.Proofs.PackedMap.Access
import TwoBitAlpha.Proofs.PackedMap.Padding
import TwoBitAlpha.Proofs.Resampling

/-!
Long runs of conversions on one canvas.

A run that edits nothing settles: once it has packed or decoded, it is in one map or in the white picture of that
map, and goes to and fro between the two. The levels are those of the start all the time.
-/

namespace TwoBitAlpha

namespace PackedMap

variable {c : Canvas} {m n : PackedMap}

theorem paddingClear_clearPadding (c : Canvas) (bytes : Array UInt8) :
    PaddingClear c (clearPadding c bytes) := by
  intro i k b byte padding
  obtain ⟨a, _, field⟩ := field_clearPadding byte k
  rw [field, if_pos padding]

/-- A map without its padding. -/
def cleared (m : PackedMap) : PackedMap where
  canvas := m.canvas
  bytes := clearPadding m.canvas m.bytes
  size_eq := by rw [clearPadding, Array.size_mapIdx, m.size_eq]

theorem cleared_eq_self_iff : m.cleared = m ↔ PaddingClear m.canvas m.bytes := by
  rw [← clearPadding_eq_self_iff]
  constructor
  · intro same
    exact congrArg PackedMap.bytes same
  · intro same
    exact eq_of_bytes_eq rfl same

theorem cleared_cleared (m : PackedMap) : m.cleared.cleared = m.cleared :=
  cleared_eq_self_iff.mpr (paddingClear_clearPadding m.canvas m.bytes)

theorem levelAt?_cleared (m : PackedMap) : ∀ x y, m.cleared.levelAt? x y = m.levelAt? x y := by
  apply (levelAt?_eq_iff (m := m.cleared) (n := m) rfl).mpr
  intro i k a b after before shown
  obtain ⟨b', before', field⟩ := field_clearPadding after k
  rw [before] at before'
  cases before'
  rw [field]
  exact if_neg shown

theorem toRaster_cleared (m : PackedMap) : m.cleared.toRaster = m.toRaster :=
  (toRaster_eq_iff (m := m.cleared) (n := m) rfl).mpr m.levelAt?_cleared

theorem ofRaster_toRaster_eq (m : PackedMap) : ofRaster m.toRaster m.canvas = .ok m.cleared := by
  obtain ⟨n, packed⟩ := ofRaster_eq_ok (r := m.toRaster) (c := m.canvas) ⟨rfl, rfl⟩
  obtain ⟨_, canvas, _⟩ := ofRaster_inv packed
  rw [packed, eq_of_bytes_eq (n := m.cleared) canvas (ofRaster_toRaster packed)]

theorem cleared_ofRaster {r : Raster} (packed : ofRaster r c = .ok m) : m.cleared = m := by
  obtain ⟨_, rfl, _⟩ := ofRaster_inv packed
  exact cleared_eq_self_iff.mpr (paddingClear_ofRaster packed)

theorem ofRaster_toRaster_of_packed {r : Raster} (packed : ofRaster r c = .ok m) : ofRaster m.toRaster c = .ok m := by
  obtain ⟨_, rfl, _⟩ := ofRaster_inv packed
  rw [m.ofRaster_toRaster_eq, cleared_ofRaster packed]

end PackedMap

/-- The conversions that edit nothing and stay on a canvas. -/
def Conversion.StaysOn (c : Canvas) : Conversion → Prop
  | .pack d | .fit d | .unpack d | .rewrap d => d = c
  | .picture => True
  | .setPixel .. | .preview _ | .setByte .. => False

def Conversion.Packs : Conversion → Prop
  | .pack _ => True
  | _ => False

def Conversion.Decodes : Conversion → Prop
  | .unpack _ | .picture => True
  | _ => False

namespace Form

variable {c : Canvas} {m : PackedMap} {form next : Form} {k : Conversion}

/-- Whether a conversion is for a form of this kind. -/
def Takes : Form → Conversion → Prop
  | raster _, .pack _ | raster _, .fit _ | raster _, .setPixel .. => True
  | packed _, .unpack _ | packed _, .picture | packed _, .preview _ | packed _, .rewrap _ => True
  | packed _, .setByte .. => True
  | _, _ => False

def levelAt? : Form → UInt32 → UInt32 → Option Level
  | raster r, x, y => (r.pixel? x y).map fun p => Level.ofAlpha p.alpha
  | packed m, x, y => m.levelAt? x y

/-- The map that packing a form on a canvas gives, sooner or later. -/
def SettlesIn (c : Canvas) (m : PackedMap) : Form → Prop
  | raster r => PackedMap.ofRaster r c = .ok m
  | packed n => n.canvas = c ∧ n.cleared = m

theorem SettlesIn.canvas (h : form.SettlesIn c m) : m.canvas = c ∧ m.cleared = m := by
  cases form with
  | raster r => exact ⟨(PackedMap.ofRaster_inv h).2.1, PackedMap.cleared_ofRaster h⟩
  | packed n =>
      obtain ⟨rfl, rfl⟩ := h
      exact ⟨rfl, n.cleared_cleared⟩

theorem SettlesIn.packed (h : form.SettlesIn c m) : (Form.packed m).SettlesIn c m := h.canvas

theorem SettlesIn.white (h : form.SettlesIn c m) : (Form.raster m.toRaster).SettlesIn c m := by
  obtain ⟨rfl, clear⟩ := h.canvas
  exact m.ofRaster_toRaster_eq.trans (congrArg Except.ok clear)

theorem SettlesIn.levelAt? (h : form.SettlesIn c m) (x y : UInt32) :
    form.levelAt? x y = m.levelAt? x y := by
  cases form with
  | raster r => exact (PackedMap.levelAt?_ofRaster h x y).symm
  | packed n =>
      obtain ⟨_, rfl⟩ := h
      exact (n.levelAt?_cleared x y).symm

/-- A conversion that applies either leaves the form as it is, and then it neither packs nor decodes, or leads to
the map in which the form settles or to the picture of that map. -/
theorem convert_settled (h : form.SettlesIn c m) (on : k.StaysOn c) :
    (¬ form.Takes k ∧ form.convert k = .error .notApplicable) ∨
    ∃ next, form.convert k = .ok next ∧
      ((next = form ∧ ¬ k.Packs ∧ ¬ k.Decodes) ∨ next = .packed m ∨ next = .raster m.toRaster) := by
  cases form with
  | raster r =>
      have packs : PackedMap.ofRaster r c = .ok m := h
      cases k with
      | pack d =>
          obtain rfl : d = c := on
          right
          refine ⟨.packed m, ?_, .inr (.inl rfl)⟩
          rw [convert, packs]
          rfl
      | fit d =>
          obtain rfl : d = c := on
          right
          refine ⟨.raster r, ?_, .inl ⟨rfl, id, id⟩⟩
          rw [convert, Raster.fit_eq_self (PackedMap.ofRaster_inv packs).1]
          rfl
      | setPixel => exact on.elim
      | preview => exact on.elim
      | setByte => exact on.elim
      | unpack => exact .inl ⟨id, rfl⟩
      | picture => exact .inl ⟨id, rfl⟩
      | rewrap => exact .inl ⟨id, rfl⟩
  | packed n =>
      obtain ⟨rfl, rfl⟩ := h
      cases k with
      | pack => exact .inl ⟨id, rfl⟩
      | fit => exact .inl ⟨id, rfl⟩
      | setPixel => exact on.elim
      | preview => exact on.elim
      | setByte => exact on.elim
      | unpack d =>
          obtain rfl : d = n.canvas := on
          right
          refine ⟨.raster n.toRaster, ?_, .inr (.inr ?_)⟩
          · rw [convert, n.ofPackedBytes_bytes]
            rfl
          · rw [n.toRaster_cleared]
      | picture =>
          right
          refine ⟨.raster n.toRaster, rfl, .inr (.inr ?_)⟩
          rw [n.toRaster_cleared]
      | rewrap d =>
          obtain rfl : d = n.canvas := on
          right
          refine ⟨.packed n, ?_, .inl ⟨rfl, id, id⟩⟩
          rw [convert, n.ofBytes_bytes]
          rfl

theorem run_cons (form : Form) (k : Conversion) (rest : List Conversion) :
    form.run (k :: rest) = form.convert k >>= fun next => next.run rest :=
  List.foldlM_cons

/-- A run leaves the start only by packing or decoding, and only for that map and its picture. -/
theorem run_settled (h : form.SettlesIn c m) {steps : List Conversion} (on : ∀ k ∈ steps, k.StaysOn c) :
    form.run steps = .error .notApplicable ∨
    ∃ last, form.run steps = .ok last ∧
      ((last = form ∧ ∀ k ∈ steps, ¬ k.Packs ∧ ¬ k.Decodes) ∨
        last = .packed m ∨ last = .raster m.toRaster) := by
  -- Carried along: the form still settles in the same map, whether it was left or not.
  induction steps generalizing form with
  | nil =>
      refine .inr ⟨form, rfl, .inl ⟨rfl, ?_⟩⟩
      intro k member
      cases member
  | cons k rest ih =>
      have later : ∀ j ∈ rest, j.StaysOn c := fun j member => on j (List.mem_cons_of_mem _ member)
      rw [run_cons]
      rcases convert_settled h (on k List.mem_cons_self) with ⟨_, refused⟩ | ⟨next, done, kept⟩
      · left
        rw [refused]
        rfl
      · rw [done]
        change next.run rest = _ ∨ ∃ last, next.run rest = .ok last ∧ _
        rcases kept with ⟨rfl, quiet⟩ | settled
        · rcases ih h later with refused | ⟨last, reached, ⟨rfl, still⟩ | settled⟩
          · exact .inl refused
          · exact .inr ⟨last, reached, .inl ⟨rfl, List.forall_mem_cons.mpr ⟨quiet, still⟩⟩⟩
          · exact .inr ⟨last, reached, .inr settled⟩
        · have onward : next.SettlesIn c m := by
            rcases settled with rfl | rfl
            · exact h.packed
            · exact h.white
          rcases ih onward later with refused | ⟨last, reached, ⟨rfl, _⟩ | settled⟩
          · exact .inl refused
          · exact .inr ⟨last, reached, .inr settled⟩
          · exact .inr ⟨last, reached, .inr settled⟩

theorem run_keeps (h : form.SettlesIn c m) {steps : List Conversion} (on : ∀ k ∈ steps, k.StaysOn c) :
    (∀ e, form.run steps = .error e → e = .notApplicable) ∧
    ∀ last, form.run steps = .ok last →
      (∀ k, k.StaysOn c → last.Takes k → ∃ next, last.convert k = .ok next) ∧
      (∀ x y, last.levelAt? x y = form.levelAt? x y) ∧
      ((last = form ∧ ∀ k ∈ steps, ¬ k.Packs ∧ ¬ k.Decodes) ∨
        last = .packed m ∨ last = .raster m.toRaster) := by
  rcases run_settled h on with refused | ⟨last, reached, kept⟩
  · rw [refused]
    refine ⟨?_, ?_⟩
    · intro e same
      exact (Except.error.inj same).symm
    · intro last same
      cases same
  · rw [reached]
    refine ⟨?_, ?_⟩
    · intro e same
      cases same
    · rintro _ ⟨⟩
      have settles : last.SettlesIn c m := by
        rcases kept with ⟨rfl, _⟩ | rfl | rfl
        · exact h
        · exact h.packed
        · exact h.white
      refine ⟨?_, ?_, kept⟩
      · intro k stays takes
        rcases convert_settled settles stays with ⟨refuses, _⟩ | ⟨next, done, _⟩
        · exact absurd takes refuses
        · exact ⟨next, done⟩
      · intro x y
        rw [settles.levelAt?, h.levelAt?]

/-- Whatever a run on one canvas does, in whatever order and however often, each conversion that applies succeeds and
every level stays. A run from a raster knows one map and, after the first decoding, one picture. A run from a map whose
padding is not clear only clears it, with the first packing. -/
theorem conversions_never_drift (c : Canvas) :
    (∀ r : Raster, r.width = c.width ∧ r.height = c.height →
      ∃ m, PackedMap.ofRaster r c = .ok m ∧
      ∀ steps : List Conversion, (∀ k ∈ steps, k.StaysOn c) →
        (∀ e, (raster r).run steps = .error e → e = .notApplicable) ∧
        ∀ last, (raster r).run steps = .ok last →
          (∀ k, k.StaysOn c → last.Takes k → ∃ next, last.convert k = .ok next) ∧
          (∀ x y, last.levelAt? x y = (raster r).levelAt? x y) ∧
          (∀ n, last = packed n → n = m) ∧
          ∀ s, last = raster s → (∃ k ∈ steps, k.Decodes) → s = m.toRaster) ∧
    ∀ b : PackedMap, b.canvas = c →
      ∀ steps : List Conversion, (∀ k ∈ steps, k.StaysOn c) →
        (∀ e, (packed b).run steps = .error e → e = .notApplicable) ∧
        ∀ last, (packed b).run steps = .ok last →
          (∀ k, k.StaysOn c → last.Takes k → ∃ next, last.convert k = .ok next) ∧
          (∀ x y, last.levelAt? x y = (packed b).levelAt? x y) ∧
          (∀ n, last = packed n → (∃ k ∈ steps, k.Packs) →
            n.canvas = c ∧ n.bytes = PackedMap.clearPadding c b.bytes) ∧
          ∀ s, last = raster s → s = b.toRaster := by
  refine ⟨?_, ?_⟩
  · intro r size
    obtain ⟨m, packs⟩ := PackedMap.ofRaster_eq_ok size
    refine ⟨m, packs, ?_⟩
    intro steps on
    have settles : (raster r).SettlesIn c m := packs
    obtain ⟨errors, kept⟩ := run_keeps settles on
    refine ⟨errors, ?_⟩
    intro last reached
    obtain ⟨goes, levels, places⟩ := kept last reached
    refine ⟨goes, levels, ?_, ?_⟩
    · rintro n rfl
      rcases places with ⟨same, _⟩ | same | same
      · cases same
      · cases same
        rfl
      · cases same
    · rintro s rfl ⟨k, member, decodes⟩
      rcases places with ⟨_, still⟩ | same | same
      · exact absurd decodes (still k member).2
      · cases same
      · cases same
        rfl
  · rintro b rfl steps on
    have settles : (packed b).SettlesIn b.canvas b.cleared := ⟨rfl, rfl⟩
    obtain ⟨errors, kept⟩ := run_keeps settles on
    refine ⟨errors, ?_⟩
    intro last reached
    obtain ⟨goes, levels, places⟩ := kept last reached
    refine ⟨goes, levels, ?_, ?_⟩
    · rintro n rfl ⟨k, member, packs⟩
      rcases places with ⟨_, still⟩ | same | same
      · exact absurd packs (still k member).1
      · cases same
        exact ⟨rfl, rfl⟩
      · cases same
    · rintro s rfl
      rcases places with ⟨same, _⟩ | same | same
      · cases same
      · cases same
      · cases same
        exact b.toRaster_cleared

theorem conversions_never_drift_six_columns :
    ∃ n, (packed ⟨⟨6, 2, by decide, by decide⟩, #[0xff, 0xff, 0x00, 0xff], by decide⟩).run
        [.picture, .fit ⟨6, 2, by decide, by decide⟩, .pack ⟨6, 2, by decide, by decide⟩] = .ok (packed n) ∧
      n.bytes = #[0xff, 0xf0, 0x00, 0xf0] := by
  let c : Canvas := ⟨6, 2, by decide, by decide⟩
  let b : PackedMap := ⟨c, #[0xff, 0xff, 0x00, 0xff], by decide⟩
  obtain ⟨n, packs⟩ := PackedMap.ofRaster_eq_ok (r := b.toRaster) (c := c) ⟨rfl, rfl⟩
  have reached : (packed b).run [.picture, .fit c, .pack c] = .ok (packed n) := by
    rw [run_cons, convert]
    change (raster b.toRaster).run [.fit c, .pack c] = _
    rw [run_cons, convert, Raster.fit_eq_self ⟨rfl, rfl⟩]
    change (raster b.toRaster).run [.pack c] = _
    rw [run_cons, convert, packs]
    rfl
  have on : ∀ k ∈ [Conversion.picture, .fit c, .pack c], k.StaysOn c := by
    intro k member
    simp only [List.mem_cons, List.not_mem_nil, or_false] at member
    rcases member with rfl | rfl | rfl
    · trivial
    · rfl
    · rfl
  have bytes := (((conversions_never_drift c).2 b rfl _ on).2 _ reached).2.2.1 n rfl
    ⟨.pack c, by simp, trivial⟩
  exact ⟨n, reached, bytes.2.trans (by decide)⟩

end Form

end TwoBitAlpha
