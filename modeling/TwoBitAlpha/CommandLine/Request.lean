import TwoBitAlpha.Path

/-!
What a command line asks for.

Options and positional arguments may be mixed. An option is given at most once, with its value in the same
argument or in the next one; a separate value does not begin with a dash. After two dashes all arguments are
positional. The arguments are taken in order, so help is given only if nothing before it is wrong.
-/

namespace TwoBitAlpha.CommandLine

inductive OutputFormat where
  | raw
  | cArray
  deriving DecidableEq

structure EncodeOptions where
  input : Path
  output : Path
  format : OutputFormat
  symbol : String
  deriving DecidableEq

structure ViewOptions where
  input : Path
  output : Option Path
  device : Bool
  palette : Option Path
  deriving DecidableEq

inductive Command where
  | encode (options : EncodeOptions)
  | view (options : ViewOptions)
  deriving DecidableEq

inductive Request where
  | help
  | version
  | command (c : Command)
  deriving DecidableEq

inductive ValueKind where
  | path
  | format
  | text
  deriving DecidableEq

def formatOf? (s : String) : Option OutputFormat :=
  if s = "raw" then some .raw else if s = "c-array" then some .cArray else none

def ValueKind.accepts : ValueKind → String → Bool
  | path, s => s != ""
  | format, s => (formatOf? s).isSome
  | text, _ => true

structure OptionSpec where
  long : String
  short : Char
  value : Option ValueKind

structure CommandSpec where
  options : List OptionSpec
  paths : Nat

def encodeSpec : CommandSpec where
  options := [⟨"format", 'f', some .format⟩, ⟨"symbol", 's', some .text⟩]
  paths := 2

def viewSpec : CommandSpec where
  options := [⟨"output", 'o', some .path⟩, ⟨"device", 'd', none⟩, ⟨"palette", 'p', some .path⟩]
  paths := 1

/-- The options by their long names, a flag with an empty value, and the paths. -/
structure Given where
  options : List (String × String)
  paths : List String

inductive Stop where
  | rejected
  | help
  deriving DecidableEq

namespace Given

def none : Given := ⟨[], []⟩

def option? (g : Given) (long : String) : Option String := g.options.lookup long

def addOption (g : Given) (o : OptionSpec) (value : String) : Except Stop Given :=
  if (g.option? o.long).isSome then .error .rejected
  else if (o.value.map (·.accepts value)).getD true then
    .ok { g with options := g.options ++ [(o.long, value)] }
  else .error .rejected

def addPath (spec : CommandSpec) (g : Given) (value : String) : Except Stop Given :=
  if g.paths.length < spec.paths ∧ ValueKind.path.accepts value then
    .ok { g with paths := g.paths ++ [value] }
  else .error .rejected

end Given

/-- Whether an argument cannot be the value of the option before it. -/
def looksLikeOption (argument : String) : Bool :=
  match argument.toList with
  | '-' :: _ :: _ => true
  | _ => false

/-- The letters of one argument. An option that takes a value takes the rest of the argument for it; if
there is no rest, it is returned and waits for the next argument. -/
def scanLetters (spec : CommandSpec) (g : Given) : List Char → Except Stop (Given × Option OptionSpec)
  | [] => .ok (g, none)
  | c :: rest =>
    if c = 'h' then .error .help
    else
      match spec.options.find? (·.short == c) with
      | none => .error .rejected
      | some o =>
        if o.value.isNone then do scanLetters spec (← g.addOption o "") rest
        else
          match rest with
          | [] => .ok (g, some o)
          | '=' :: value => do return (← g.addOption o (String.ofList value), none)
          | value => do return (← g.addOption o (String.ofList value), none)

/-- An argument that begins with two dashes, without them. An option that takes a value and has none in
the argument is returned. -/
def scanLong (spec : CommandSpec) (g : Given) (argument : List Char) :
    Except Stop (Given × Option OptionSpec) :=
  let name := String.ofList (argument.takeWhile (· != '='))
  let attached :=
    match argument.dropWhile (· != '=') with
    | [] => none
    | _ :: value => some (String.ofList value)
  if name = "help" then .error (if attached.isSome then .rejected else .help)
  else
    match spec.options.find? (·.long == name) with
    | none => .error .rejected
    | some o =>
      match o.value, attached with
      | none, none => do return (← g.addOption o "", none)
      | none, some _ => .error .rejected
      | some _, none => .ok (g, some o)
      | some _, some value => do return (← g.addOption o value, none)

/-- The arguments of a command. `waiting` is an option that still needs its value. -/
def scan (spec : CommandSpec) (g : Given) (waiting : Option OptionSpec) :
    List String → Except Stop Given
  | [] => if waiting.isSome then .error .rejected else .ok g
  | argument :: rest =>
    match waiting with
    | some o =>
      if looksLikeOption argument then .error .rejected
      else do scan spec (← g.addOption o argument) none rest
    | none =>
      if argument = "--" then rest.foldlM (Given.addPath spec) g
      else
        match argument.toList with
        | '-' :: '-' :: long => do
          let (g, waiting) ← scanLong spec g long
          scan spec g waiting rest
        | '-' :: c :: letters => do
          let (g, waiting) ← scanLetters spec g (c :: letters)
          scan spec g waiting rest
        | _ => do scan spec (← g.addPath spec argument) none rest

def defaultSymbol : String := "world_map"

def encodeOf (g : Given) : Except Stop Command :=
  match g.paths with
  | [input, output] => .ok (.encode {
      input := ⟨input⟩
      output := ⟨output⟩
      format := ((g.option? "format").bind formatOf?).getD .raw
      symbol := (g.option? "symbol").getD defaultSymbol })
  | _ => .error .rejected

def viewOf (g : Given) : Except Stop Command :=
  match g.paths with
  | [input] => .ok (.view {
      input := ⟨input⟩
      output := (g.option? "output").map Path.mk
      device := (g.option? "device").isSome
      palette := (g.option? "palette").map Path.mk })
  | _ => .error .rejected

def requestOf (parsed : Except Stop Command) : Option Request :=
  match parsed with
  | .ok c => some (.command c)
  | .error .help => some .help
  | .error .rejected => none

/-- The commands by name; viewing has two names. -/
def commandOf? (name : String) (arguments : List String) : Option (Except Stop Command) :=
  if name = "encode" then some (do encodeOf (← scan encodeSpec .none none arguments))
  else if name = "view" ∨ name = "decode" then some (do viewOf (← scan viewSpec .none none arguments))
  else none

/-- Help on at most one command, or on help itself. -/
def helpOf : List String → Option Request
  | [] => some .help
  | [topic] => if ["encode", "view", "decode", "help"].contains topic then some .help else none
  | _ => none

def Request.ofArguments : List String → Option Request
  | [] => none
  | first :: rest =>
    if first = "--help" then some .help
    else if first = "--version" then some .version
    else if first = "help" then helpOf rest
    else
      match first.toList with
      | '-' :: 'h' :: _ => some .help
      | '-' :: 'V' :: _ => some .version
      | _ => (commandOf? first rest).bind requestOf

end TwoBitAlpha.CommandLine
