import TwoBitAlpha.Proofs.Palette.Reading

/-!
What a palette takes from a document.

Documents in which `name` and `colors` say the same are the same palette, or none of them is a palette. It does not
matter in which order the keys stand, which other keys there are, and how the values are written.
-/

namespace TwoBitAlpha

namespace Toml.Value

/-- Values that say the same. The keys of a table may come in any order, and floats and moments, which have many
spellings, are not told from each other. -/
inductive Alike : Value → Value → Prop where
  | text (s : String) : Alike (.text s) (.text s)
  | integer (n : Int) : Alike (.integer n) (.integer n)
  | float (x y : Decimal.Binary64) : Alike (.float x) (.float y)
  | boolean (b : Bool) : Alike (.boolean b) (.boolean b)
  | moment (s t : String) : Alike (.moment s) (.moment t)
  | array {items others : List Value} (each : List.Forall₂ Alike items others) : Alike (.array items) (.array others)
  | table {entries others : List (String × Value)}
      (each : ∀ key, Option.Rel Alike (entries.lookup key) (others.lookup key)) : Alike (.table entries) (.table others)

theorem sizeOf_lt_of_lookup {entries : List (String × Value)} {key : String} {v : Value}
    (found : entries.lookup key = some v) : sizeOf v < sizeOf entries := by
  obtain ⟨before, after, rfl, _⟩ := List.lookup_eq_some_iff.mp found
  have entry_lt : sizeOf (key, v) < sizeOf (before ++ (key, v) :: after) :=
    List.sizeOf_lt_of_mem (List.mem_append_right _ (List.mem_cons_self ..))
  rw [Prod.mk.sizeOf_spec] at entry_lt
  omega

/-- In particular, equal values say the same. -/
theorem Alike.refl : (v : Value) → Alike v v
  | .text s => .text s
  | .integer n => .integer n
  | .float x => .float x x
  | .boolean b => .boolean b
  | .moment s => .moment s s
  | .array items => .array (List.forall₂_same.mpr fun v _ => Alike.refl v)
  | .table entries => by
      apply Alike.table
      intro key
      match found : entries.lookup key with
      | none => exact .none
      | some v =>
          have smaller := sizeOf_lt_of_lookup found
          exact .some (Alike.refl v)

theorem rel_alike_of_eq {found found' : Option Value} (same : found = found') : Option.Rel Alike found found' := by
  subst same
  cases found with
  | none => exact .none
  | some v => exact .some (Alike.refl v)

theorem Alike.eq_text_iff {v w : Value} (alike : Alike v w) (s : String) : v = .text s ↔ w = .text s := by
  cases alike with
  | text => exact Iff.rfl
  | _ => exact iff_of_false nofun nofun

theorem Alike.eq_integer_iff {v w : Value} (alike : Alike v w) (n : Int) : v = .integer n ↔ w = .integer n := by
  cases alike with
  | integer => exact Iff.rfl
  | _ => exact iff_of_false nofun nofun

end Toml.Value

namespace Palette

open Association Toml.Value

theorem begins_iff_of_alike {items others : List Toml.Value} (each : List.Forall₂ Alike items others)
    (colors : List UInt8) :
    (∃ more, items = colors.map colorValue ++ more) ↔ ∃ more, others = colors.map colorValue ++ more := by
  induction colors generalizing items others with
  | nil => exact iff_of_true ⟨items, rfl⟩ ⟨others, rfl⟩
  | cons color colors ih =>
      cases each with
      | nil => exact iff_of_false nofun nofun
      | cons alike rest =>
          simp only [List.map_cons, List.cons_append, List.cons.injEq, exists_and_left, ih rest]
          exact and_congr_left' (alike.eq_integer_iff _)

variable {a b : Toml.Table}

theorem name_iff_of_alike {found found' : Option Toml.Value} (alike : Option.Rel Alike found found') (name : String) :
    found = some (.text name) ↔ found' = some (.text name) := by
  cases alike with
  | none => exact Iff.rfl
  | some alike =>
      rw [Option.some_inj, Option.some_inj]
      exact alike.eq_text_iff name

theorem colors_iff_of_alike {found found' : Option Toml.Value} (alike : Option.Rel Alike found found')
    (colors : List UInt8) :
    (∃ more, found = some (.array (colors.map colorValue ++ more))) ↔
      ∃ more, found' = some (.array (colors.map colorValue ++ more)) := by
  cases alike with
  | none => exact Iff.rfl
  | some alike =>
      simp only [Option.some_inj]
      cases alike with
      | array each =>
          simp only [Toml.Value.array.injEq]
          exact begins_iff_of_alike each colors
      | _ => exact iff_of_false nofun nofun

theorem exists_describes_iff {table : Toml.Table} {p : Palette} :
    (∃ more, Describes table p more) ↔ table.get? "name" = some (.text p.name) ∧
      ∃ more, table.get? "colors" = some (.array (p.colors.toList.map colorValue ++ more)) := by
  constructor
  · rintro ⟨more, name, colors⟩
    exact ⟨name, more, colors⟩
  · rintro ⟨name, more, colors⟩
    exact ⟨more, name, colors⟩

/-- Nothing but the two entries is looked at, and of them nothing but what they say. -/
theorem describes_iff_of_alike (name : Option.Rel Alike (a.get? "name") (b.get? "name"))
    (colors : Option.Rel Alike (a.get? "colors") (b.get? "colors")) (p : Palette) :
    (∃ more, Describes a p more) ↔ ∃ more, Describes b p more := by
  rw [exists_describes_iff, exists_describes_iff, name_iff_of_alike name, colors_iff_of_alike colors]

/-- Two well-formed documents that say the same about `name` and about `colors`, or lack it both, are taken for the same
palette or are both at fault. -/
theorem ofText_eq_of_alike {s t : String} {a b : Toml.Table} (first : Toml.Table.ofText s = some a)
    (second : Toml.Table.ofText t = some b) (name : Option.Rel Alike (a.get? "name") (b.get? "name"))
    (colors : Option.Rel Alike (a.get? "colors") (b.get? "colors")) :
    (∃ p, ofText s = .ok p ∧ ofText t = .ok p) ∨
      ∃ fault fault', ofText s = .error (.unfit fault) ∧ ofText t = .error (.unfit fault') := by
  have same : ∀ p, ofText s = .ok p ↔ ofText t = .ok p := by
    intro p
    rw [ofText_eq_ok_iff_of_table first, ofText_eq_ok_iff_of_table second]
    exact describes_iff_of_alike name colors p
  cases left : ofText s with
  | ok p => exact .inl ⟨p, rfl, (same p).mp left⟩
  | error e =>
      cases right : ofText t with
      | ok p =>
          rw [(same p).mpr right] at left
          cases left
      | error e' =>
          cases e with
          | malformed => exact absurd left (ofText_ne_malformed first)
          | unfit fault =>
              cases e' with
              | malformed => exact absurd right (ofText_ne_malformed second)
              | unfit fault' => exact .inr ⟨fault, fault', rfl, rfl⟩

/-- The keys in another order, with numbers to other bases and further tables; and a document with two faults, of which
each order of the keys reports another one. -/
theorem ofText_eq_of_alike_reordered :
    (∃ p, ofText "name = 'ti84'\ncolors = [0, 37, 73, 73]" = .ok p ∧
      ofText "colors = [0x0, 0o45, 0b100_1001, 7_3] # shades\n\"name\" = \"ti84\"\n[[more]]\nname = 07:32:00" = .ok p) ∧
    ∃ fault fault', ofText "name = 5\ncolors = [0, 1, 2, 300]" = .error (.unfit fault) ∧
      ofText "colors = [0, 1, 2, 3_00]\nname = 0x5" = .error (.unfit fault') := by
  have plain : Toml.Table.ofText "name = 'ti84'\ncolors = [0, 37, 73, 73]" =
      some [("name", .text "ti84"), ("colors", .array (device.colors.toList.map colorValue))] := by cbv
  have other : Toml.Table.ofText
      "colors = [0x0, 0o45, 0b100_1001, 7_3] # shades\n\"name\" = \"ti84\"\n[[more]]\nname = 07:32:00" =
      some [("colors", .array (device.colors.toList.map colorValue)), ("name", .text "ti84"),
        ("more", .array [.table [("name", .moment "07:32:00")]])] := by cbv
  have faulty : Toml.Table.ofText "name = 5\ncolors = [0, 1, 2, 300]" =
      some [("name", .integer 5), ("colors", .array [.integer 0, .integer 1, .integer 2, .integer 300])] := by cbv
  have faulty' : Toml.Table.ofText "colors = [0, 1, 2, 3_00]\nname = 0x5" =
      some [("colors", .array [.integer 0, .integer 1, .integer 2, .integer 300]), ("name", .integer 5)] := by cbv
  refine ⟨?_, ?_⟩
  · obtain same | ⟨fault, _, refused, _⟩ :=
      ofText_eq_of_alike plain other (rel_alike_of_eq rfl) (rel_alike_of_eq rfl)
    · exact same
    · rw [(ofText_eq_ok_iff_of_table (p := device) plain).mpr ⟨[], rfl, rfl⟩] at refused
      cases refused
  · obtain ⟨p, accepted, _⟩ | same := ofText_eq_of_alike faulty faulty' (rel_alike_of_eq rfl) (rel_alike_of_eq rfl)
    · obtain ⟨_, describes⟩ := (ofText_eq_ok_iff_of_table faulty).mp accepted
      cases describes.name
    · exact same

end Palette

end TwoBitAlpha
