import TwoBitAlpha.FileTree
import TwoBitAlpha.Proofs.Path

/-!
Reading a tree after a file was written.

A file is never written in the place of a directory, so every path that leads somewhere leads to the same place
afterwards. At that place the new contents are found, and everywhere else what was there before.
-/

namespace TwoBitAlpha.FileTree

variable {t changed : FileTree} {p q : Path} {place : Location} {contents found : Contents}

theorem read_eq_ok_iff :
    t.read p = .ok found ↔ ∃ place, t.locate p = .ok place ∧ t.node? place = some (.file found) := by
  rw [read]
  cases t.locate p with
  | error e =>
      constructor
      · intro missing
        cases missing
      · rintro ⟨place, missing, _⟩
        cases missing
  | ok place =>
      simp only [bind, Except.bind]
      constructor
      · intro there
        refine ⟨place, rfl, ?_⟩
        split at there
        · cases there
        · cases there
        · rename_i node
          cases there
          exact node
      · rintro ⟨_, ⟨⟩, node⟩
        rw [node]
        rfl

theorem write_eq_ok_iff :
    t.write p contents = .ok changed ↔ ∃ place, t.locate p = .ok place ∧
      t.node? place ≠ some .directory ∧
      changed = { t with nodes := Association.put place (.file contents) t.nodes } := by
  rw [write]
  cases t.locate p with
  | error e =>
      constructor
      · intro refused
        cases refused
      · rintro ⟨place, refused, _⟩
        cases refused
  | ok place =>
      simp only [bind, Except.bind]
      constructor
      · intro done
        split at done
        · cases done
        · rename_i free
          cases done
          exact ⟨place, rfl, free, rfl⟩
      · rintro ⟨_, ⟨⟩, free, rfl⟩
        split
        · rename_i node
          exact absurd node free
        · rfl

theorem exists_write (located : t.locate p = .ok place) (free : t.node? place ≠ some .directory)
    (contents : Contents) : ∃ changed, t.write p contents = .ok changed :=
  ⟨_, write_eq_ok_iff.mpr ⟨place, located, free, rfl⟩⟩

/-- A file that can be read can be replaced, under each spelling of its path. -/
theorem exists_write_of_read (there : t.read q = .ok found) (same : t.locate p = t.locate q)
    (contents : Contents) : ∃ changed, t.write p contents = .ok changed := by
  obtain ⟨place, located, node⟩ := read_eq_ok_iff.mp there
  apply exists_write (same.trans located)
  rw [node]
  intro directory
  cases directory

theorem node?_put (free : t.node? place ≠ some .directory) (other : Location) :
    FileTree.node? { t with nodes := Association.put place (.file contents) t.nodes } other =
      if other = place then some (.file contents) else t.node? other := by
  have below : place ≠ [] := by
    rintro rfl
    exact free rfl
  rw [node?, node?, Association.lookup_put]
  by_cases root : other = []
  · subst root
    rw [if_pos rfl, if_pos rfl, if_neg (Ne.symm below)]
  · rw [if_neg root, if_neg root]
    by_cases same : other = place
    · rw [if_pos same, if_pos (beq_iff_eq.mpr same)]
    · rw [if_neg same, if_neg (by rwa [beq_iff_eq])]

/-- What a write changes: the node at the place of its path, where no directory was. -/
theorem node?_write (written : t.write p contents = .ok changed) :
    ∃ place, t.locate p = .ok place ∧ t.node? place ≠ some .directory ∧
      ∀ other, changed.node? other = if other = place then some (.file contents) else t.node? other := by
  obtain ⟨place, located, free, rfl⟩ := write_eq_ok_iff.mp written
  exact ⟨place, located, free, node?_put free⟩

theorem directory_write_iff (written : t.write p contents = .ok changed) (other : Location) :
    changed.node? other = some .directory ↔ t.node? other = some .directory := by
  obtain ⟨place, _, free, nodes⟩ := node?_write written
  rw [nodes]
  split
  · rename_i same
    subst same
    constructor
    · intro file
      cases file
    · intro directory
      exact absurd directory free
  · rfl

/-- A walk that arrives has seen directories only. -/
theorem walk_cons_eq_ok_iff {start : Location} {step : String} {rest : List String} :
    t.walk start (step :: rest) = .ok place ↔
      t.node? start = some .directory ∧
      (if step = "." then t.walk start rest = .ok place
        else if step = ".." then t.walk start.dropLast rest = .ok place
        else step.utf8ByteSize ≤ maxName ∧ t.walk (start ++ [step]) rest = .ok place) := by
  rw [walk]
  cases node : t.node? start with
  | none =>
      constructor
      · intro missing
        cases missing
      · rintro ⟨missing, _⟩
        cases missing
  | some entry =>
      cases entry with
      | file held =>
          constructor
          · intro blocked
            cases blocked
          · rintro ⟨blocked, _⟩
            cases blocked
      | directory =>
          simp only [true_and]
          split
          · rfl
          · split
            · rfl
            · split
              · rename_i long
                constructor
                · intro refused
                  cases refused
                · rintro ⟨short, _⟩
                  exact absurd short (Nat.not_le_of_lt long)
              · rename_i short
                exact ⟨fun arrives => ⟨Nat.le_of_not_lt short, arrives⟩, And.right⟩

theorem walk_write_iff (written : t.write p contents = .ok changed) (start : Location)
    (steps : List String) :
    changed.walk start steps = .ok place ↔ t.walk start steps = .ok place := by
  induction steps generalizing start with
  | nil => rfl
  | cons step rest ih =>
      simp only [walk_cons_eq_ok_iff, directory_write_iff written, ih]

theorem current_write (written : t.write p contents = .ok changed) : changed.current = t.current := by
  obtain ⟨_, _, _, rfl⟩ := write_eq_ok_iff.mp written
  rfl

theorem home_write (written : t.write p contents = .ok changed)
    (home : t.node? t.current = some .directory) : changed.node? changed.current = some .directory := by
  rw [current_write written]
  exact (directory_write_iff written _).mpr home

theorem locate_write_iff (written : t.write p contents = .ok changed) :
    changed.locate q = .ok place ↔ t.locate q = .ok place := by
  rw [locate, locate, current_write written]
  split
  · constructor
    · intro refused
      cases refused
    · intro refused
      cases refused
  · exact walk_write_iff written _ _

/-- The path that was written to, and every other that leads to its place, reads the new contents. -/
theorem read_write_same (written : t.write p contents = .ok changed) (same : t.locate q = t.locate p) :
    changed.read q = .ok contents := by
  obtain ⟨place, located, _, nodes⟩ := node?_write written
  refine read_eq_ok_iff.mpr ⟨place, ?_, ?_⟩
  · rw [locate_write_iff written, same, located]
  · rw [nodes, if_pos rfl]

/-- What could be read at another place can be read there still. -/
theorem read_write_other (written : t.write p contents = .ok changed) (there : t.read q = .ok found)
    (other : t.locate q ≠ t.locate p) : changed.read q = .ok found := by
  obtain ⟨place, located, _, nodes⟩ := node?_write written
  obtain ⟨place', located', node⟩ := read_eq_ok_iff.mp there
  refine read_eq_ok_iff.mpr ⟨place', (locate_write_iff written).mpr located', ?_⟩
  rw [nodes, if_neg, node]
  intro same
  exact other (by rw [located', located, same])

theorem write_eq_self (written : t.write p contents = .ok changed) (there : t.read p = .ok contents) :
    changed = t := by
  obtain ⟨place, located, free, rfl⟩ := write_eq_ok_iff.mp written
  obtain ⟨place', located', node⟩ := read_eq_ok_iff.mp there
  rw [located] at located'
  cases located'
  have below : place ≠ [] := by
    rintro rfl
    exact free rfl
  rw [node?, if_neg below] at node
  rw [Association.put_eq_self node]

/-- A file can be created under a path, or replaced there. -/
def IsWritable (t : FileTree) (p : Path) : Prop :=
  ∃ place, t.locate p = .ok place ∧ t.node? place ≠ some .directory

theorem isWritable_iff (t : FileTree) (p : Path) (contents : Contents) :
    t.IsWritable p ↔ ∃ changed, t.write p contents = .ok changed := by
  constructor
  · rintro ⟨place, located, free⟩
    exact exists_write located free contents
  · rintro ⟨changed, written⟩
    obtain ⟨place, located, free, _⟩ := write_eq_ok_iff.mp written
    exact ⟨place, located, free⟩

/-- From one tree to the next, the file that a path leads to was written, and nothing else is different. -/
structure WroteOnly (before after : FileTree) (p : Path) (contents : Contents) : Prop where
  read : after.read p = .ok contents
  others : ∀ place, before.locate p ≠ .ok place → after.node? place = before.node? place
  current : after.current = before.current

theorem wroteOnly_of_write (written : t.write p contents = .ok changed) : WroteOnly t changed p contents := by
  refine ⟨read_write_same written rfl, ?_, current_write written⟩
  intro other elsewhere
  obtain ⟨place, located, _, nodes⟩ := node?_write written
  rw [nodes, if_neg]
  rintro rfl
  exact elsewhere located

section
variable {name other : String}

theorem steps_name (named : Path.IsName name) : steps ⟨name⟩ = [name] := by
  have no_slash : ¬ name.toList.getLast? = some '/' :=
    fun last => named.no_slash (List.mem_of_getLast? last)
  simp only [steps, named.parts_eq, if_neg no_slash]
  exact List.filter_cons_of_pos (bne_iff_ne.mpr named.nonempty)

/-- A name leads into the current directory. -/
theorem locate_name (home : t.node? t.current = some .directory) (named : Path.IsName name)
    (short : name.utf8ByteSize ≤ maxName) : t.locate ⟨name⟩ = .ok (t.current ++ [name]) := by
  have path_short : ¬ maxPath < name.utf8ByteSize := by
    rw [maxPath]
    rw [maxName] at short
    omega
  rw [locate, if_neg path_short, named.not_isAbsolute, steps_name named]
  refine walk_cons_eq_ok_iff.mpr ⟨home, ?_⟩
  rw [if_neg named.not_here, if_neg named.not_up]
  exact ⟨short, rfl⟩

theorem write_long_name (home : t.node? t.current = some .directory) (named : Path.IsName name)
    (long : maxName < name.utf8ByteSize) (contents : Contents) :
    t.write ⟨name⟩ contents = .error .tooLong := by
  have located : t.locate ⟨name⟩ = .error .tooLong := by
    rw [locate, named.not_isAbsolute, steps_name named]
    split
    · rfl
    · simp only [Bool.false_eq_true, if_false, walk, home, if_neg named.not_here, if_neg named.not_up, if_pos long]
  rw [write, located]
  rfl

end

end TwoBitAlpha.FileTree
