/-!
Lists of keys and values, in the order in which the keys first came.

The value of a key is what `List.lookup` finds; `lookup_put` and `lookup_erase` say what a change does to
it.
-/

namespace TwoBitAlpha.Association

variable {κ ν : Type} [BEq κ]

/-- Replaces the value of a key where it stands, or adds the key at the end. -/
def put (key : κ) (value : ν) : List (κ × ν) → List (κ × ν)
  | [] => [(key, value)]
  | (k, v) :: rest => if key == k then (k, value) :: rest else (k, v) :: put key value rest

def erase (key : κ) (entries : List (κ × ν)) : List (κ × ν) := entries.filter fun e => !(key == e.1)

theorem lookup_put [LawfulBEq κ] (key other : κ) (value : ν) (entries : List (κ × ν)) :
    (put key value entries).lookup other =
      if other == key then some value else entries.lookup other := by
  induction entries with
  | nil =>
    rw [put, List.lookup_cons, List.lookup_nil]
    cases other == key <;> rfl
  | cons e rest ih =>
    obtain ⟨k, v⟩ := e
    by_cases h : key = k
    · subst h
      simp only [put, BEq.rfl, if_true, List.lookup_cons]
      cases other == key <;> rfl
    · have hk : (key == k) = false := beq_false_of_ne h
      simp only [put, hk, Bool.false_eq_true, if_false, List.lookup_cons, ih]
      by_cases ho : other = k
      · subst ho
        have : (other == key) = false := beq_false_of_ne (Ne.symm h)
        simp [this]
      · have : (other == k) = false := beq_false_of_ne ho
        simp [this]

theorem put_eq_self [LawfulBEq κ] {key : κ} {value : ν} {entries : List (κ × ν)}
    (there : entries.lookup key = some value) : put key value entries = entries := by
  induction entries with
  | nil => cases there
  | cons e rest ih =>
    obtain ⟨k, v⟩ := e
    rw [List.lookup_cons] at there
    by_cases h : key = k
    · subst h
      simp only [BEq.rfl] at there
      cases there
      simp only [put, BEq.rfl, if_true]
    · have hk : (key == k) = false := beq_false_of_ne h
      simp only [hk] at there
      simp only [put, hk, Bool.false_eq_true, if_false, ih there]

theorem lookup_erase [LawfulBEq κ] (key other : κ) (entries : List (κ × ν)) :
    (erase key entries).lookup other = if other == key then none else entries.lookup other := by
  induction entries with
  | nil => simp [erase]
  | cons e rest ih =>
    obtain ⟨k, v⟩ := e
    rw [erase] at ih
    by_cases h : key = k
    · subst h
      simp only [erase, List.filter_cons, BEq.rfl, Bool.not_true, Bool.false_eq_true, if_false, ih,
        List.lookup_cons]
      cases other == key <;> rfl
    · have hk : (key == k) = false := beq_false_of_ne h
      simp only [erase, List.filter_cons, hk, Bool.not_false, if_true, List.lookup_cons, ih]
      by_cases ho : other = k
      · subst ho
        have : (other == key) = false := beq_false_of_ne (Ne.symm h)
        simp [this]
      · have : (other == k) = false := beq_false_of_ne ho
        simp [this]

end TwoBitAlpha.Association
