import Mathlib
import TwoBitAlpha.Palette.Reading
import TwoBitAlpha.Proofs.Toml.Keys

/-!
Which documents are palettes.

The entries of a document are visited one after the other. As no key stands there twice, the visit ends with what a
look-up of `name` and of `colors` finds, wherever the two stand and whatever else is there. Of the array only the
first four items are looked at, so an array that goes on after them is taken as well.
-/

namespace TwoBitAlpha

theorem Except.bind_eq_ok_iff {ε α β : Type} {x : Except ε α} {f : α → Except ε β} {b : β} :
    x >>= f = .ok b ↔ ∃ a, x = .ok a ∧ f a = .ok b := by
  cases x with
  | error e => exact iff_of_false nofun nofun
  | ok a =>
      constructor
      · exact fun done => ⟨a, rfl, done⟩
      · rintro ⟨_, ⟨⟩, done⟩
        exact done

theorem Except.mapError_eq_ok_iff {ε ε' α : Type} {x : Except ε α} {f : ε → ε'} {a : α} :
    x.mapError f = .ok a ↔ x = .ok a := by
  cases x with
  | error e => exact iff_of_false nofun nofun
  | ok b => rw [Except.mapError, Except.ok.injEq, Except.ok.injEq]

namespace Palette

open Association

/-- A color as it stands in a document. -/
def colorValue (color : UInt8) : Toml.Value := .integer color.toNat

theorem nameOf_eq_ok_iff {v : Toml.Value} {name : String} : nameOf v = .ok name ↔ v = .text name := by
  cases v with
  | text s => rw [nameOf, Except.ok.injEq, Toml.Value.text.injEq]
  | _ => exact iff_of_false nofun nofun

theorem colorOf_eq_ok_iff {v : Toml.Value} {color : UInt8} : colorOf v = .ok color ↔ v = colorValue color := by
  cases v with
  | integer n =>
      have color_lt := color.toNat_lt
      rw [colorOf, colorValue, Toml.Value.integer.injEq]
      constructor
      · intro taken
        split at taken
        · rename_i range
          have size : n.toNat < UInt8.size := by
            change n.toNat < 256
            omega
          cases taken
          rw [UInt8.toNat_ofNat_of_lt' size]
          omega
        · cases taken
      · rintro rfl
        rw [if_pos (by omega), Int.toNat_natCast, UInt8.ofNat_toNat]
  | _ => exact iff_of_false nofun nofun

theorem mapM_colorOf_iff {items : List Toml.Value} {colors : List UInt8} :
    items.mapM colorOf = .ok colors ↔ items = colors.map colorValue := by
  induction items generalizing colors with
  | nil =>
      rw [List.mapM_nil]
      constructor
      · intro none
        cases none
        rfl
      · intro none
        rw [List.map_eq_nil_iff.mp none.symm]
        rfl
  | cons v rest ih =>
      rw [List.mapM_cons, Except.bind_eq_ok_iff]
      constructor
      · rintro ⟨color, first, more⟩
        obtain ⟨others, later, ⟨⟩⟩ := Except.bind_eq_ok_iff.mp more
        rw [List.map_cons, ← ih.mp later, ← colorOf_eq_ok_iff.mp first]
      · intro same
        obtain ⟨color, others, rfl, rfl, rfl⟩ := List.map_eq_cons_iff.mp same.symm
        refine ⟨color, colorOf_eq_ok_iff.mpr rfl, Except.bind_eq_ok_iff.mpr ⟨others, ih.mpr rfl, rfl⟩⟩

/-- Four colors in front, and no item after them is looked at. -/
theorem colorsOfItems_eq_ok_iff {items : List Toml.Value} {colors : Vector UInt8 4} :
    colorsOfItems items = .ok colors ↔ ∃ more, items = colors.toList.map colorValue ++ more := by
  rw [colorsOfItems, Except.bind_eq_ok_iff]
  constructor
  · rintro ⟨found, taken, whole⟩
    refine ⟨items.drop 4, ?_⟩
    split at whole
    · cases whole
      rw [← List.take_append_drop 4 items, mapM_colorOf_iff.mp taken]
      rfl
    · cases whole
  · rintro ⟨more, rfl⟩
    refine ⟨colors.toList, ?_, ?_⟩
    · rw [mapM_colorOf_iff, List.take_left' (by rw [List.length_map, Vector.length_toList])]
    · obtain ⟨⟨entries⟩, size⟩ := colors
      match entries, size with
      | [a, b, c, d], _ => rfl

theorem colorsOf_eq_ok_iff {v : Toml.Value} {colors : Vector UInt8 4} :
    colorsOf v = .ok colors ↔ ∃ more, v = .array (colors.toList.map colorValue ++ more) := by
  cases v with
  | array items => simp only [colorsOf, colorsOfItems_eq_ok_iff, Toml.Value.array.injEq]
  | _ => exact iff_of_false nofun nofun

/-- What a field is after a visit: read from the value under its key, or as before if the key is not there. -/
def Settled {α : Type} (read : Toml.Value → Except PaletteFault α) (found : Option Toml.Value)
    (before after : Option α) : Prop :=
  match found with
  | none => after = before
  | some v => ∃ a, read v = .ok a ∧ after = some a

/-- Two visits in a row, of which at most one comes upon the key. -/
theorem settled_or_iff {α : Type} {read : Toml.Value → Except PaletteFault α} {first later : Option Toml.Value}
    {before after : Option α} (once : first = none ∨ later = none) :
    (∃ between, Settled read first before between ∧ Settled read later between after) ↔
      Settled read (first.or later) before after := by
  cases first with
  | none =>
      rw [Option.none_or]
      constructor
      · rintro ⟨_, rfl, next⟩
        exact next
      · exact fun next => ⟨before, rfl, next⟩
  | some v =>
      obtain rfl : later = none := once.resolve_left (Option.some_ne_none v)
      rw [Option.some_or]
      constructor
      · rintro ⟨_, taken, rfl⟩
        exact taken
      · exact fun taken => ⟨after, taken, rfl⟩

theorem visit_eq_ok_iff {fields next : Fields} {entry : String × Toml.Value} :
    fields.visit entry = .ok next ↔
      Settled nameOf (Toml.Table.get? [entry] "name") fields.name next.name ∧
      Settled colorsOf (Toml.Table.get? [entry] "colors") fields.colors next.colors := by
  obtain ⟨key, v⟩ := entry
  by_cases name : key = "name"
  · subst name
    change (nameOf v >>= fun s => .ok { fields with name := some s }) = .ok next ↔
      (∃ s, nameOf v = .ok s ∧ next.name = some s) ∧ next.colors = fields.colors
    rw [Except.bind_eq_ok_iff]
    constructor
    · rintro ⟨s, taken, ⟨⟩⟩
      exact ⟨⟨s, taken, rfl⟩, rfl⟩
    · rintro ⟨⟨s, taken, found⟩, kept⟩
      exact ⟨s, taken, by rw [← found, ← kept]⟩
  · by_cases colors : key = "colors"
    · subst colors
      change (colorsOf v >>= fun cs => .ok { fields with colors := some cs }) = .ok next ↔
        next.name = fields.name ∧ ∃ cs, colorsOf v = .ok cs ∧ next.colors = some cs
      rw [Except.bind_eq_ok_iff]
      constructor
      · rintro ⟨cs, taken, ⟨⟩⟩
        exact ⟨rfl, cs, taken, rfl⟩
      · rintro ⟨kept, cs, taken, found⟩
        exact ⟨cs, taken, by rw [← found, ← kept]⟩
    · have noName : Toml.Table.get? [(key, v)] "name" = none :=
        lookup_eq_none_iff.mpr fun member => name (List.mem_singleton.mp member).symm
      have noColors : Toml.Table.get? [(key, v)] "colors" = none :=
        lookup_eq_none_iff.mpr fun member => colors (List.mem_singleton.mp member).symm
      rw [Fields.visit, if_neg name, if_neg colors, noName, noColors]
      constructor
      · rintro ⟨⟩
        exact ⟨rfl, rfl⟩
      · rintro ⟨same, same'⟩
        cases next
        cases same
        cases same'
        rfl

theorem foldlM_visit_iff {entries : Toml.Table} {fields last : Fields} (distinct : Distinct entries) :
    entries.foldlM Fields.visit fields = .ok last ↔
      Settled nameOf (entries.get? "name") fields.name last.name ∧
      Settled colorsOf (entries.get? "colors") fields.colors last.colors := by
  induction entries generalizing fields with
  | nil =>
      constructor
      · rintro ⟨⟩
        exact ⟨rfl, rfl⟩
      · rintro ⟨same, same'⟩
        cases last
        cases same
        cases same'
        rfl
  | cons entry rest ih =>
      obtain ⟨absent, distinct⟩ := distinct_cons_iff.mp distinct
      -- The key of this entry does not come again.
      have once : ∀ key, Toml.Table.get? [entry] key = none ∨ Toml.Table.get? rest key = none := by
        intro key
        by_cases same : key = entry.1
        · subst same
          exact .inr (lookup_eq_none_iff.mpr absent)
        · exact .inl (lookup_eq_none_iff.mpr fun member => same (List.mem_singleton.mp member))
      have split : ∀ key, Toml.Table.get? (entry :: rest) key =
          (Toml.Table.get? [entry] key).or (Toml.Table.get? rest key) := by
        intro key
        change ([entry] ++ rest).lookup key = _
        rw [List.lookup_append]
        rfl
      rw [List.foldlM_cons, Except.bind_eq_ok_iff, split, split, ← settled_or_iff (once _), ← settled_or_iff (once _)]
      simp only [visit_eq_ok_iff, ih distinct]
      constructor
      · rintro ⟨next, ⟨name, colors⟩, name', colors'⟩
        exact ⟨⟨_, name, name'⟩, _, colors, colors'⟩
      · rintro ⟨⟨foundName, name, name'⟩, foundColors, colors, colors'⟩
        exact ⟨⟨foundName, foundColors⟩, ⟨name, colors⟩, name', colors'⟩

theorem complete_eq_ok_iff {fields : Fields} {p : Palette} :
    fields.complete = .ok p ↔ fields.name = some p.name ∧ fields.colors = some p.colors := by
  obtain ⟨name, colors⟩ := fields
  cases name with
  | none => exact iff_of_false nofun nofun
  | some name =>
      cases colors with
      | none => exact iff_of_false nofun nofun
      | some colors =>
          constructor
          · rintro ⟨⟩
            exact ⟨rfl, rfl⟩
          · rintro ⟨⟨⟩, ⟨⟩⟩
            rfl

theorem settled_none_iff {α : Type} {read : Toml.Value → Except PaletteFault α} {found : Option Toml.Value} {a : α} :
    Settled read found none (some a) ↔ ∃ v, found = some v ∧ read v = .ok a := by
  cases found with
  | none => exact iff_of_false nofun nofun
  | some v =>
      constructor
      · rintro ⟨_, taken, ⟨⟩⟩
        exact ⟨v, rfl, taken⟩
      · rintro ⟨_, ⟨⟩, taken⟩
        exact ⟨a, taken, rfl⟩

/-- A table has the name of a palette and its four colors in order, with more items after them. -/
structure Describes (table : Toml.Table) (p : Palette) (more : List Toml.Value) : Prop where
  name : table.get? "name" = some (.text p.name)
  colors : table.get? "colors" = some (.array (p.colors.toList.map colorValue ++ more))

theorem ofTable_eq_ok_iff {table : Toml.Table} (distinct : Distinct table) {p : Palette} :
    ofTable table = .ok p ↔ ∃ more, Describes table p more := by
  rw [ofTable, Except.bind_eq_ok_iff]
  simp only [foldlM_visit_iff distinct, complete_eq_ok_iff]
  constructor
  · rintro ⟨last, ⟨name, colors⟩, named, colored⟩
    rw [named, settled_none_iff] at name
    rw [colored, settled_none_iff] at colors
    obtain ⟨v, found, text⟩ := name
    obtain ⟨w, found', items⟩ := colors
    obtain ⟨more, rfl⟩ := colorsOf_eq_ok_iff.mp items
    exact ⟨more, found.trans (congrArg some (nameOf_eq_ok_iff.mp text)), found'⟩
  · rintro ⟨more, name, colors⟩
    refine ⟨⟨some p.name, some p.colors⟩, ⟨?_, ?_⟩, rfl, rfl⟩
    · exact settled_none_iff.mpr ⟨_, name, nameOf_eq_ok_iff.mpr rfl⟩
    · exact settled_none_iff.mpr ⟨_, colors, colorsOf_eq_ok_iff.mpr ⟨more, rfl⟩⟩

variable {text : String} {table : Toml.Table} {p : Palette}

theorem ofText_of_table (parsed : Toml.Table.ofText text = some table) :
    ofText text = (ofTable table).mapError .unfit := by
  simp only [ofText, parsed]

theorem ofText_eq_malformed_iff : ofText text = .error .malformed ↔ Toml.Table.ofText text = none := by
  cases parsed : Toml.Table.ofText text with
  | none => simp only [ofText, parsed]
  | some table =>
      rw [ofText_of_table parsed]
      cases ofTable table with
      | error fault => exact iff_of_false nofun nofun
      | ok p => exact iff_of_false nofun nofun

theorem ofText_ne_malformed (parsed : Toml.Table.ofText text = some table) : ofText text ≠ .error .malformed := by
  intro malformed
  rw [ofText_eq_malformed_iff.mp malformed] at parsed
  cases parsed

theorem ofText_eq_ok_iff_of_table (parsed : Toml.Table.ofText text = some table) :
    ofText text = .ok p ↔ ∃ more, Describes table p more := by
  rw [ofText_of_table parsed, Except.mapError_eq_ok_iff, ofTable_eq_ok_iff (Toml.distinct_ofText parsed)]

theorem ofText_eq_ok_iff :
    ofText text = .ok p ↔ ∃ table more, Toml.Table.ofText text = some table ∧ Describes table p more := by
  cases parsed : Toml.Table.ofText text with
  | none =>
      rw [ofText_eq_malformed_iff.mpr parsed]
      exact iff_of_false nofun nofun
  | some table =>
      rw [ofText_eq_ok_iff_of_table parsed]
      constructor
      · rintro ⟨more, describes⟩
        exact ⟨table, more, rfl, describes⟩
      · rintro ⟨_, more, ⟨⟩, describes⟩
        exact ⟨more, describes⟩

theorem four_le_of_describes {items more : List Toml.Value} (describes : Describes table p more)
    (colors : table.get? "colors" = some (.array items)) : 4 ≤ items.length := by
  have same := describes.colors.symm.trans colors
  cases same
  rw [List.length_append, List.length_map, Vector.length_toList]
  omega

theorem ofText_unfit_of_few {items : List Toml.Value} (parsed : Toml.Table.ofText text = some table)
    (colors : table.get? "colors" = some (.array items)) (few : items.length < 4) :
    ∃ fault, ofText text = .error (.unfit fault) := by
  cases outcome : ofText text with
  | ok p =>
      obtain ⟨_, more, again, describes⟩ := ofText_eq_ok_iff.mp outcome
      cases parsed.symm.trans again
      exact absurd (four_le_of_describes describes colors) (Nat.not_le_of_lt few)
  | error e =>
      cases e with
      | malformed => exact absurd outcome (ofText_ne_malformed parsed)
      | unfit fault => exact ⟨fault, rfl⟩

/-- A text is taken for a palette if and only if it is a well-formed document with the name of the palette under `name`
and an array under `colors` that begins with its four colors, each an integer from 0 to 255. What is not well formed
is reported as such, and an array of fewer than four items is always at fault. An array of more than four is not: the
equivalence with an array of exactly four fails for those texts, and only for them, that go on after four colors. -/
theorem ofText_accepts_iff (text : String) :
    (∀ p, ofText text = .ok p ↔ ∃ table more, Toml.Table.ofText text = some table ∧ Describes table p more) ∧
    (ofText text = .error .malformed ↔ Toml.Table.ofText text = none) ∧
    (∀ table items, Toml.Table.ofText text = some table → table.get? "colors" = some (.array items) →
      items.length < 4 → ∃ fault, ofText text = .error (.unfit fault)) ∧
    ((∀ p, ofText text = .ok p ↔ ∃ table, Toml.Table.ofText text = some table ∧ Describes table p []) ↔
      ¬ ∃ table p v more, Toml.Table.ofText text = some table ∧ Describes table p (v :: more)) := by
  refine ⟨fun p => ofText_eq_ok_iff, ofText_eq_malformed_iff, fun _ _ => ofText_unfit_of_few, ?_, ?_⟩
  · rintro exactly ⟨table, p, v, more, parsed, describes⟩
    obtain ⟨_, again, four⟩ := (exactly p).mp (ofText_eq_ok_iff.mpr ⟨table, _, parsed, describes⟩)
    cases parsed.symm.trans again
    have same := describes.colors.symm.trans four.colors
    rw [Option.some_inj, Toml.Value.array.injEq, List.append_cancel_left_eq] at same
    cases same
  · intro never p
    rw [ofText_eq_ok_iff]
    constructor
    · rintro ⟨table, more, parsed, describes⟩
      cases more with
      | nil => exact ⟨table, parsed, describes⟩
      | cons v more => exact absurd ⟨table, p, v, more, parsed, describes⟩ never
    · rintro ⟨table, parsed, describes⟩
      exact ⟨table, [], parsed, describes⟩

/-- The device's palette with its keys the other way round, and with one color too few. -/
theorem ofText_accepts_iff_device :
    ofText "colors = [0, 0x25, 73, 0b100_1001] # comment\nname = 'ti84'" = .ok device ∧
      ∃ fault, ofText "name = 'ti84'\ncolors = [0, 0x25, 73]" = .error (.unfit fault) := by
  have whole : Toml.Table.ofText "colors = [0, 0x25, 73, 0b100_1001] # comment\nname = 'ti84'" =
      some [("colors", .array (device.colors.toList.map colorValue)), ("name", .text "ti84")] := by cbv
  have short : Toml.Table.ofText "name = 'ti84'\ncolors = [0, 0x25, 73]" =
      some [("name", .text "ti84"), ("colors", .array [.integer 0, .integer 37, .integer 73])] := by cbv
  refine ⟨((ofText_accepts_iff _).1 device).mpr ⟨_, [], whole, rfl, rfl⟩, ?_⟩
  exact (ofText_accepts_iff _).2.2.1 _ _ short rfl (by decide)

/-- Five colors are taken for four. -/
theorem ofText_ignores_fifth_color :
    let text := "name = \"five\"\ncolors = [0, 1, 2, 3, 4]"
    ∃ table, Toml.Table.ofText text = some table ∧
      table.get? "colors" = some (.array [.integer 0, .integer 1, .integer 2, .integer 3, .integer 4]) ∧
      (∀ p, ¬ Describes table p []) ∧ ofText text = .ok ⟨"five", #v[0, 1, 2, 3]⟩ := by
  intro text
  have parsed : Toml.Table.ofText text = some [("name", .text "five"),
      ("colors", .array [.integer 0, .integer 1, .integer 2, .integer 3, .integer 4])] := by cbv
  refine ⟨_, parsed, rfl, ?_, ofText_eq_ok_iff.mpr ⟨_, [.integer 4], parsed, rfl, rfl⟩⟩
  intro p describes
  have same := Option.some.inj describes.colors
  rw [List.append_nil] at same
  have length := congrArg List.length (Toml.Value.array.inj same)
  rw [List.length_map, Vector.length_toList] at length
  cases length

end Palette

end TwoBitAlpha
