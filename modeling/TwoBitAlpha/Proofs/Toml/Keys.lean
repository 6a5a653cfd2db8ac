import TwoBitAlpha.Toml.Document

/-!
Each key of a document stands there once.

A value is only added under a new key, a header takes the place of the table that it opens, and everything else is put
back where it was. So what a look-up in a document finds is all that the document says about a key.
-/

namespace TwoBitAlpha

namespace Association

variable {κ ν : Type} [BEq κ] [LawfulBEq κ] {entries : List (κ × ν)} {key : κ}

/-- No two entries have the same key. -/
def Distinct (entries : List (κ × ν)) : Prop := (entries.map Prod.fst).Nodup

omit [BEq κ] [LawfulBEq κ] in
theorem distinct_cons_iff {value : ν} :
    Distinct ((key, value) :: entries) ↔ key ∉ entries.map Prod.fst ∧ Distinct entries := List.nodup_cons

theorem lookup_eq_none_iff : entries.lookup key = none ↔ key ∉ entries.map Prod.fst := by
  rw [List.lookup_eq_none_iff, List.mem_map]
  constructor
  · rintro other ⟨e, member, rfl⟩
    exact bne_iff_ne.mp (other e member) rfl
  · intro absent e member
    exact bne_iff_ne.mpr fun same => absent ⟨e, member, same.symm⟩

theorem mem_keys_put {other : κ} {value : ν} (member : other ∈ (put key value entries).map Prod.fst) :
    other = key ∨ other ∈ entries.map Prod.fst := by
  by_cases same : other = key
  · exact .inl same
  · right
    apply Classical.byContradiction
    intro absent
    have missing := lookup_put key other value entries
    rw [if_neg (by rwa [beq_iff_eq]), lookup_eq_none_iff.mpr absent] at missing
    exact lookup_eq_none_iff.mp missing member

theorem Distinct.put (distinct : Distinct entries) (key : κ) (value : ν) : Distinct (put key value entries) := by
  induction entries with
  | nil => exact List.nodup_cons.mpr ⟨List.not_mem_nil, List.nodup_nil⟩
  | cons e rest ih =>
      obtain ⟨k, v⟩ := e
      obtain ⟨new, distinct⟩ := distinct_cons_iff.mp distinct
      rw [Association.put]
      split
      · exact distinct_cons_iff.mpr ⟨new, distinct⟩
      · rename_i other
        refine distinct_cons_iff.mpr ⟨?_, ih distinct⟩
        intro member
        rcases mem_keys_put member with rfl | again
        · exact other BEq.rfl
        · exact new again

theorem Distinct.append (distinct : Distinct entries) (fresh : entries.lookup key = none) (value : ν) :
    Distinct (entries ++ [(key, value)]) := by
  have absent := lookup_eq_none_iff.mp fresh
  rw [Distinct, List.map_append, List.map_singleton, List.nodup_append]
  refine ⟨distinct, List.nodup_cons.mpr ⟨List.not_mem_nil, List.nodup_nil⟩, ?_⟩
  rintro k member last added rfl
  cases List.mem_singleton.mp added
  exact absent member

omit [LawfulBEq κ] in
theorem Distinct.erase (distinct : Distinct entries) (key : κ) : Distinct (erase key entries) :=
  distinct.sublist (List.filter_sublist.map Prod.fst)

end Association

namespace Toml

open Association

theorem foldlM_keeps {α β : Type} {kept : β → Prop} {step : β → α → Option β}
    (keeps : ∀ {b a next}, kept b → step b a = some next → kept next) {items : List α} {start last : β}
    (first : kept start) (done : items.foldlM step start = some last) : kept last := by
  induction items generalizing start with
  | nil =>
      cases done
      exact first
  | cons a rest ih =>
      rw [List.foldlM_cons] at done
      obtain ⟨next, stepped, done⟩ := Option.bind_eq_some_iff.mp done
      exact ih (keeps first stepped) done

/-- A change deep inside a table puts the table on the way back under its own key. -/
theorem distinct_descend {made : Origin} {change : Origin → Entries → Option Entries} {path : List String}
    {origin : Origin} {entries after : Entries} (distinct : Distinct entries)
    (keeps : ∀ {origin after}, change origin entries = some after → Distinct after)
    (done : descend made change path origin entries = some after) : Distinct after := by
  cases path with
  | nil =>
      rw [descend] at done
      exact keeps done
  | cons key path =>
      rw [descend] at done
      split at done
      · obtain ⟨inside, _, ⟨⟩⟩ := Option.bind_eq_some_iff.mp done
        exact distinct.put _ _
      · cases done
      · split at done
        · cases done
        · obtain ⟨inside, _, ⟨⟩⟩ := Option.bind_eq_some_iff.mp done
          exact distinct.put _ _
      · split at done
        · cases done
        · obtain ⟨last, _, ⟨⟩⟩ := Option.bind_eq_some_iff.mp done
          exact distinct.put _ _

theorem distinct_assign {entries after : Entries} {a : Assignment} (distinct : Distinct entries)
    (done : assign entries a = some after) : Distinct after := by
  refine distinct_descend distinct ?_ done
  intro origin after changed
  split at changed
  · cases changed
  · split at changed
    · cases changed
    · rename_i fresh
      cases changed
      exact distinct.append (Option.not_isSome_iff_eq_none.mp fresh) _

theorem distinct_assignAll {entries after : Entries} {assignments : List Assignment} (distinct : Distinct entries)
    (done : assignAll entries assignments = some after) : Distinct after :=
  foldlM_keeps distinct_assign distinct done

theorem distinct_addSection {entries after : Entries} {s : Section} (distinct : Distinct entries)
    (done : addSection entries s = some after) : Distinct after := by
  rw [addSection] at done
  split at done
  · rename_i key _
    refine distinct_descend distinct ?_ done
    intro origin after changed
    have opened : ∀ start, (assignAll start s.assignments >>= fun inside =>
        some (erase key.name entries ++ [(key.name, Node.table .header inside)])) = some after → Distinct after := by
      intro start changed
      obtain ⟨inside, _, ⟨⟩⟩ := Option.bind_eq_some_iff.mp changed
      apply (distinct.erase key.name).append
      rw [lookup_erase, if_pos BEq.rfl]
    dsimp only at changed
    split at changed
    · exact opened [] changed
    · exact opened _ changed
    · cases changed
  · rename_i key _
    refine distinct_descend distinct ?_ done
    intro origin after changed
    have added : ∀ before, (assignAll [] s.assignments >>= fun row =>
        some (put key.name (Node.rows (before ++ [row])) entries)) = some after → Distinct after := by
      intro before changed
      obtain ⟨row, _, ⟨⟩⟩ := Option.bind_eq_some_iff.mp changed
      exact distinct.put _ _
    dsimp only at changed
    split at changed
    · exact added [] changed
    · exact added _ changed
    · cases changed

theorem keys_entriesValue (entries : Entries) : (entriesValue entries).map Prod.fst = entries.map Prod.fst := by
  induction entries with
  | nil => rw [entriesValue, List.map_nil, List.map_nil]
  | cons e rest ih =>
      obtain ⟨key, node⟩ := e
      rw [entriesValue, List.map_cons, List.map_cons, ih]

theorem distinct_ofSections {top : List Assignment} {sections : List Section} {table : Table}
    (done : Table.ofSections top sections = some table) : Distinct table := by
  obtain ⟨entries, assigned, done⟩ := Option.bind_eq_some_iff.mp done
  obtain ⟨whole, added, ⟨⟩⟩ := Option.bind_eq_some_iff.mp done
  have fresh : Distinct ([] : Entries) := List.nodup_nil
  rw [Distinct, keys_entriesValue]
  exact foldlM_keeps distinct_addSection (distinct_assignAll fresh assigned) added

/-- No key of a document is assigned or opened twice. -/
theorem distinct_ofText {text : String} {table : Table} (parsed : Table.ofText text = some table) : Distinct table := by
  obtain ⟨ls, _, built⟩ := Option.bind_eq_some_iff.mp parsed
  exact distinct_ofSections built

end Toml

end TwoBitAlpha
