/-
# The command line

What the arguments of the command ask for.  Options and operands may come in any order; behind `--`
everything is an operand.  The first operand is the template unless an option has given it, the
others are values: JSON where they are JSON, plain text otherwise.

The first fault in the order of the arguments is the one that is reported.
-/
import Stencil.Json.Reader
import Stencil.Text.Search

namespace Stencil.Cli

/-! ## 1. What can be asked for -/

/-- What to do with a placeholder that has no value. -/
inductive MissingMode
  | default
  | ignore
  | text (text : String)
  deriving DecidableEq, Repr

/-- A template to be filled. -/
structure Config where
  /-- Read from the standard input if it is not given. -/
  template : Option String := none
  positional : List Value := []
  named : Option Fields := none
  missing : MissingMode := .default
  explain : Bool := false
  color : Bool := false

/-- What the command is asked to do. -/
inductive Request
  | help
  | version
  | fill (config : Config)

/-- The options that take a value. -/
inductive Valued
  | template
  | named
  | missing
  deriving DecidableEq, Repr

/-- The long spelling of an option. -/
def Valued.spelling : Valued → String
  | template => "--template"
  | named => "--named"
  | missing => "--missing"

/-- Why the arguments are refused. -/
inductive UsageError
  | valueExpected (option : Valued)
  | templateTwice
  | notAnObject
  | invalidJson (description : String)
  | invalidMissing (text : String)
  | unknownOption (text : String)
  | namedAndPositional
  | noTemplate
  deriving DecidableEq, Repr

/-! ## 2. Texts -/

/-- The name and the version of the command. -/
def versionText : String := "flexvars 0.1.0"

/-- The help text. -/
def helpText : String :=
  String.join ([
    versionText,
    "",
    "Interpolate a template with pipe-style filters.",
    "",
    "Usage:",
    "  flexvars [OPTIONS] [--] <template> [values...]",
    "  flexvars [OPTIONS] --template <text> [values...]",
    "  flexvars [OPTIONS] --named '\x7b\"name\": \"tom\"\x7d' <template>",
    "",
    "Values are parsed as JSON when possible (42, true, [1,2]) and taken as plain",
    "text otherwise. Without a template argument the template is read from stdin.",
    "",
    "Options:",
    "  -t, --template <text>      Template to interpolate.",
    "  -n, --named <json>         JSON object of named values.",
    "  --missing <mode>           default | ignore | with:<text>   (default: default)",
    "  --explain                  Print the parsed placeholders and the result.",
    "  --color                    Force ANSI color output.",
    "  --no-color                 Disable ANSI color output.",
    "  -h, --help                 Show this help message.",
    "  -V, --version              Print version information.",
    "",
    "Environment:",
    "  FLEXVARS_LOG                Log filter (e.g. debug, flexvars=trace).",
    "",
    "Exit codes:",
    "  0  Success.",
    "  1  Interpolation failed (a throw policy fired).",
    "  2  Invalid arguments or missing template."].map (· ++ "\n"))

/-- The wording of a refusal. -/
def UsageError.message : UsageError → String
  | valueExpected .named => "error: --named expects a JSON value"
  | valueExpected option => "error: " ++ option.spelling ++ " expects a value"
  | templateTwice => "error: template provided multiple times"
  | notAnObject => "error: --named expects a JSON object"
  | invalidJson description => "error: invalid --named JSON: " ++ description
  | invalidMissing text =>
    "error: invalid --missing '" ++ text ++ "' (expected default, ignore or with:<text>)"
  | unknownOption text => "error: unknown option '" ++ text ++ "'"
  | namedAndPositional => "error: --named cannot be combined with positional values"
  | noTemplate => "error: no template provided\n\n" ++ helpText

/-! ## 3. Reading the arguments -/

/-- An operand as a value. -/
def readValue (text : String) : Value := (Json.read? text.toList).getD (.string text)

/-- The named values that a text writes. -/
def readNamed (text : String) : Except UsageError Fields :=
  match Json.read text.toList with
  | .ok (.object fields) => .ok fields
  | .ok _ => .error .notAnObject
  | .error fault => .error (.invalidJson (fault.describe text.toList))

/-- A mode for missing values: a keyword, or `with:` and a text. -/
def readMissing (text : String) : Except UsageError MissingMode :=
  if text = "default" then .ok .default
  else if text = "ignore" then .ok .ignore
  else
    let lead := "with:".toList
    if lead.isPrefixOf text.toList then
      .ok (.text (String.ofList (text.toList.drop lead.length)))
    else .error (.invalidMissing text)

/-- The configuration with the value of an option. -/
def setOption (config : Config) (option : Valued) (value : String) :
    Except UsageError Config :=
  match option with
  | .template =>
    if config.template.isSome then .error .templateTwice
    else .ok { config with template := some value }
  | .named => do
    let fields ← readNamed value
    .ok { config with named := some fields }
  | .missing => do
    let mode ← readMissing value
    .ok { config with missing := mode }

/-- The configuration with one more operand. -/
def addOperand (config : Config) (operand : String) : Config :=
  if config.template.isNone then { config with template := some operand }
  else { config with positional := config.positional ++ [readValue operand] }

/-- An option that takes its value from the next argument. -/
def separate? (arg : String) : Option Valued :=
  if arg = "--named" || arg = "-n" then some .named
  else if arg = "--missing" then some .missing
  else if arg = "--template" || arg = "-t" then some .template
  else none

/-- A text without a lead it starts with, taken off as often as it is there. -/
def dropLeads (lead cs : List Char) : List Char :=
  if lead.isEmpty || !lead.isPrefixOf cs then cs else dropLeads lead (cs.drop lead.length)
termination_by cs.length
decreasing_by
  rename_i here
  simp only [Bool.or_eq_true, List.isEmpty_iff, Bool.not_eq_true', not_or,
    Bool.not_eq_false, List.isPrefixOf_iff_prefix] at here
  have shorter := here.2.length_le
  have positive := List.length_pos_iff.2 here.1
  simp only [List.length_drop]
  omega

/-- An option that has its value behind an equals sign.  The option and the sign may be written
several times in front of the value. -/
def joined? (arg : String) : Option (Valued × String) :=
  [Valued.named, .missing, .template].findSome? fun option =>
    let lead := (option.spelling ++ "=").toList
    if lead.isPrefixOf arg.toList then
      some (option, String.ofList (dropLeads lead arg.toList))
    else none

/-- What the arguments ask for, when some have been read already. -/
def readFrom (config : Config) : List String → Except UsageError Request
  | [] => .ok (.fill config)
  | arg :: rest =>
    if arg = "-h" || arg = "--help" then .ok .help
    else if arg = "-V" || arg = "--version" then .ok .version
    else if arg = "--color" then readFrom { config with color := true } rest
    else if arg = "--no-color" then readFrom { config with color := false } rest
    else if arg = "--explain" then readFrom { config with explain := true } rest
    else if arg = "--" then .ok (.fill (rest.foldl addOperand config))
    else
      match separate? arg with
      | some option =>
        match rest with
        | [] => .error (.valueExpected option)
        | value :: rest =>
          match setOption config option value with
          | .ok config => readFrom config rest
          | .error e => .error e
      | none =>
        match joined? arg with
        | some (option, value) =>
          match setOption config option value with
          | .ok config => readFrom config rest
          | .error e => .error e
        | none =>
          if arg.toList.head? == some '-' && arg.length != 1 then .error (.unknownOption arg)
          else readFrom (addOperand config arg) rest

/-- What the arguments ask for.  Colors are on from the start when the output is a terminal. -/
def read (terminal : Bool) (args : List String) : Except UsageError Request := do
  match ← readFrom { color := terminal } args with
  | .fill config =>
    if config.named.isSome && !config.positional.isEmpty then .error .namedAndPositional
    else .ok (.fill config)
  | request => .ok request

/-- The template of a configuration; without one, the text of the standard input up to the line ends
that close it. -/
def templateOf (config : Config) (input : String) : Except UsageError String :=
  let template := config.template.getD <|
    String.ofList (input.toList.reverse.dropWhile fun c => c == '\r' || c == '\n').reverse
  if template.isEmpty then .error .noTemplate else .ok template

end Stencil.Cli
