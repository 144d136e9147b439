/-
# Running the command

From arguments and standard input to the exit code and the two outputs.  The code is 0 for success,
1 when a policy made filling fail, and 2 when the arguments are refused.
-/
import Stencil.Cli.Options
import Stencil.Cli.Report

namespace Stencil.Cli

/-- What the command leaves behind. -/
structure Outcome where
  code : Nat := 0
  output : String := ""
  errors : String := ""
  deriving DecidableEq, Repr

/-- The option of the engine for a mode. -/
def MissingMode.option : MissingMode → Missing Unit
  | default => .default
  | ignore => .ignore
  | text t => .ask fun _ => pure (.string t)

/-- The engine of the command. -/
def engine (config : Config) : Engine Unit :=
  Engine.withOptions { missing := config.missing.option }

/-- The values of a configuration.  Each operand is one value, a list too. -/
def values (config : Config) : Values Unit :=
  match config.named with
  | some fields => Values.ofValue (.object fields)
  | none => .list (config.positional.map .given)

/-- Fills a template and prints it, or the report on it. -/
def fill (config : Config) (template : String) : Outcome :=
  let e := engine config
  match (e.replace template (values config) ()).1 with
  | none => { code := 1, errors := "error: the values bring ever new placeholders\n" }
  | some result =>
    let report :=
      if config.explain then
        Report.text config.color (fun name => (e.knows name ()).1) template result
      else ""
    match result with
    | .ok text => { output := if config.explain then report else text ++ "\n" }
    | .error error =>
      { code := 1, output := report, errors := "error: " ++ error.message ++ "\n" }

/-- A refusal of the arguments. -/
def refuse (error : UsageError) : Outcome := { code := 2, errors := error.message ++ "\n" }

/-- Runs the command.  `terminal` says whether the output is a terminal. -/
def run (terminal : Bool) (args : List String) (input : String) : Outcome :=
  match read terminal args with
  | .error error => refuse error
  | .ok .help => { output := helpText ++ "\n" }
  | .ok .version => { output := versionText ++ "\n" }
  | .ok (.fill config) =>
    match templateOf config input with
    | .error error => refuse error
    | .ok template => fill config template

/-- Whether the command takes its template from the standard input. -/
def needsInput (args : List String) : Bool :=
  match read false args with
  | .ok (.fill config) => config.template.isNone
  | _ => false

end Stencil.Cli
