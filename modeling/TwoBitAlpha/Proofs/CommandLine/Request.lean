import TwoBitAlpha.CommandLine.Request

/-!
Which requests some command lines make.

An argument that does not look like an option is taken for a path as it stands. Viewing asks for nothing but a view.
-/

namespace TwoBitAlpha.CommandLine

/-- An argument that a path can be given by as it stands. -/
structure IsPathArgument (argument : String) : Prop where
  nonempty : argument ≠ ""
  plain : looksLikeOption argument = false

section
variable {spec : CommandSpec} {g : Given} {argument : String} {rest : List String}

theorem scan_argument (plain : looksLikeOption argument = false) :
    scan spec g none (argument :: rest) =
      g.addPath spec argument >>= fun g => scan spec g none rest := by
  have no_end : argument ≠ "--" := by
    rintro rfl
    cases plain
  simp only [scan, if_neg no_end]
  rw [looksLikeOption] at plain
  split
  · rename_i long
    rw [long] at plain
    cases plain
  · rename_i short
    rw [short] at plain
    cases plain
  · rfl

theorem addPath_eq_ok (argues : IsPathArgument argument) (few : g.paths.length < spec.paths) :
    g.addPath spec argument = .ok { g with paths := g.paths ++ [argument] } := by
  have accepted : ValueKind.path.accepts argument = true := bne_iff_ne.mpr argues.nonempty
  rw [Given.addPath, if_pos ⟨few, accepted⟩]

theorem scan_path (argues : IsPathArgument argument) (few : g.paths.length < spec.paths) :
    scan spec g none (argument :: rest) = scan spec { g with paths := g.paths ++ [argument] } none rest := by
  rw [scan_argument argues.plain, addPath_eq_ok argues few]
  rfl

theorem scan_value {o : OptionSpec} (plain : looksLikeOption argument = false)
    (new : g.option? o.long = none) (fits : (o.value.map (·.accepts argument)).getD true = true) :
    scan spec g (some o) (argument :: rest) =
      scan spec { g with options := g.options ++ [(o.long, argument)] } none rest := by
  have added : g.addOption o argument = .ok { g with options := g.options ++ [(o.long, argument)] } := by
    rw [Given.addOption, new, if_pos fits]
    rfl
  simp only [scan, plain, added]
  rfl

end

theorem ofArguments_encode {input output : String} (source : IsPathArgument input)
    (target : IsPathArgument output) :
    Request.ofArguments ["encode", input, output] =
      some (.command (.encode ⟨⟨input⟩, ⟨output⟩, .raw, defaultSymbol⟩)) := by
  change requestOf (scan encodeSpec .none none [input, output] >>= fun g => encodeOf g) = _
  rw [scan_path source (by decide), scan_path target]
  · rfl
  · exact Nat.lt_succ_self 1

theorem ofArguments_view {input output : String} (source : IsPathArgument input)
    (target : IsPathArgument output) :
    Request.ofArguments ["view", input, "-o", output] =
      some (.command (.view ⟨⟨input⟩, some ⟨output⟩, false, none⟩)) := by
  change requestOf (scan viewSpec .none none [input, "-o", output] >>= fun g => viewOf g) = _
  rw [scan_path source (by decide)]
  change requestOf (scan viewSpec _ (some ⟨"output", 'o', some .path⟩) [output] >>= fun g => viewOf g) = _
  rw [scan_value target.plain]
  · rfl
  · rfl
  · exact bne_iff_ne.mpr target.nonempty

/-- The arguments of a command make that command, ask for help, or are rejected. -/
theorem requestOf_cases (spec : CommandSpec) (given : Given → Except Stop Command) (rest : List String) :
    let request := requestOf (scan spec .none none rest >>= fun g => given g)
    request = none ∨ request = some .help ∨
      ∃ g c, given g = .ok c ∧ request = some (.command c) := by
  intro request
  have parsed : request = requestOf (scan spec .none none rest >>= fun g => given g) := rfl
  cases scanned : scan spec .none none rest with
  | error e =>
      rw [scanned] at parsed
      cases e with
      | rejected => exact .inl parsed
      | help => exact .inr (.inl parsed)
  | ok g =>
      have made : request = requestOf (given g) := by
        rw [parsed, scanned]
        rfl
      cases result : given g with
      | error e =>
          rw [result] at made
          cases e with
          | rejected => exact .inl made
          | help => exact .inr (.inl made)
      | ok c =>
          rw [result] at made
          exact .inr (.inr ⟨g, c, result, made⟩)

theorem ofArguments_view_cases {name : String} (viewing : name = "view" ∨ name = "decode")
    (rest : List String) :
    Request.ofArguments (name :: rest) = none ∨ Request.ofArguments (name :: rest) = some .help ∨
      ∃ options, Request.ofArguments (name :: rest) = some (.command (.view options)) := by
  have request : Request.ofArguments (name :: rest) =
      requestOf (scan viewSpec .none none rest >>= fun g => viewOf g) := by
    rcases viewing with rfl | rfl
    · rfl
    · rfl
  rw [request]
  rcases requestOf_cases viewSpec viewOf rest with rejected | help | ⟨g, c, made, asked⟩
  · exact .inl rejected
  · exact .inr (.inl help)
  · rw [viewOf] at made
    split at made
    · cases made
      exact .inr (.inr ⟨_, asked⟩)
    · cases made

theorem ofArguments_encode_cases (rest : List String) :
    Request.ofArguments ("encode" :: rest) = none ∨ Request.ofArguments ("encode" :: rest) = some .help ∨
      ∃ options, Request.ofArguments ("encode" :: rest) = some (.command (.encode options)) := by
  have request : Request.ofArguments ("encode" :: rest) =
      requestOf (scan encodeSpec .none none rest >>= fun g => encodeOf g) := rfl
  rw [request]
  rcases requestOf_cases encodeSpec encodeOf rest with rejected | help | ⟨g, c, made, asked⟩
  · exact .inl rejected
  · exact .inr (.inl help)
  · rw [encodeOf] at made
    split at made
    · cases made
      exact .inr (.inr ⟨_, asked⟩)
    · cases made

end TwoBitAlpha.CommandLine
