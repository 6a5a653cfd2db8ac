import TwoBitAlpha.Path

/-!
Paths that are a single name.

A name leads one step into a directory and has no second spelling of its kind.
-/

namespace TwoBitAlpha.Path

/-- A path that is one step, and not to the directory itself or to the one above. -/
structure IsName (name : String) : Prop where
  nonempty : name ≠ ""
  not_here : name ≠ "."
  not_up : name ≠ ".."
  no_slash : '/' ∉ name.toList

theorem splitSlashes_eq_singleton {s : List Char} (plain : '/' ∉ s) : splitSlashes s = [s] := by
  induction s with
  | nil => rfl
  | cons c rest ih =>
      rw [List.mem_cons, not_or] at plain
      obtain ⟨other, plain⟩ := plain
      rw [splitSlashes, ih plain]
      exact Ne.symm other

variable {name other stem : String}

theorem isName_of_length (long : 2 < name.length) (no_slash : '/' ∉ name.toList) : IsName name := by
  have longer : ∀ short : String, short.length ≤ 2 → name ≠ short := by
    rintro _ few rfl
    exact absurd few (Nat.not_le.mpr long)
  exact ⟨longer _ (by decide), longer _ (by decide), longer _ (by decide), no_slash⟩

namespace IsName

variable (named : IsName name)
include named

theorem parts_eq : parts ⟨name⟩ = [name] := by
  rw [parts, splitSlashes_eq_singleton named.no_slash, List.map_singleton, String.ofList_toList]

theorem not_isAbsolute : isAbsolute ⟨name⟩ = false := by
  rw [isAbsolute, beq_eq_false_iff_ne]
  intro slash
  exact named.no_slash (List.mem_of_head? slash)

theorem components_eq : components ⟨name⟩ = [.name name] := by
  have here : ¬ [name].head? = some "." := fun same => named.not_here (Option.some.inj same)
  have skipped : ¬ (name = "" ∨ name = ".") := not_or.mpr ⟨named.nonempty, named.not_here⟩
  simp only [components, named.not_isAbsolute, named.parts_eq, Bool.false_eq_true, if_false, if_neg here,
    List.filterMap_cons, List.filterMap_nil, componentOf, if_neg skipped, if_neg named.not_up, List.nil_append]

theorem fileName?_eq : fileName? ⟨name⟩ = some name := by
  rw [fileName?, named.components_eq]
  rfl

theorem isSame_iff (also : IsName other) : isSame ⟨name⟩ ⟨other⟩ = true ↔ name = other := by
  rw [isSame, named.components_eq, also.components_eq, beq_iff_eq, List.singleton_inj, Component.name.injEq]

end IsName

theorem splitName_png (nonempty : stem ≠ "") : splitName (stem ++ ".png") = (stem, some "png") := by
  have backwards : (stem ++ ".png").toList.reverse = 'g' :: 'n' :: 'p' :: '.' :: stem.toList.reverse := by
    rw [String.toList_append, List.reverse_append]
    rfl
  have stem_eq : String.ofList stem.toList.reverse.reverse = stem := by
    rw [List.reverse_reverse, String.ofList_toList]
  cases before : stem.toList.reverse with
  | nil =>
      rw [List.reverse_eq_nil_iff, String.toList_eq_nil_iff] at before
      exact absurd before nonempty
  | cons c rest =>
      rw [before] at backwards stem_eq
      simp only [splitName, backwards]
      change (String.ofList (c :: rest).reverse, _) = _
      rw [stem_eq]
      rfl

theorem extension?_png (named : IsName (stem ++ ".png")) (nonempty : stem ≠ "") :
    extension? ⟨stem ++ ".png"⟩ = some "png" := by
  rw [extension?, named.fileName?_eq, Option.bind_eq_bind, Option.bind_some, splitName_png nonempty]

end TwoBitAlpha.Path
