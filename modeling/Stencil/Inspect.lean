/-
# Descriptions for diagnosis

One line that shows what a value, a definition, a context, options or an engine holds.  Texts are
quoted, an optional part stands as `None` or in `Some(..)`, and functions, which have nothing to
show, as `<function>`.
-/
import Stencil.Engine.Fill
import Stencil.Text.Quoted

namespace Stencil.Inspect

/-! ## 1. Layouts -/

/-- Parts separated by commas. -/
def commas (parts : List String) : String := ", ".intercalate parts

/-- Parts in brackets. -/
def list (parts : List String) : String := "[" ++ commas parts ++ "]"

/-- Quoted keys with their parts, in braces. -/
def map (entries : List (String × String)) : String :=
  "\x7b" ++ commas (entries.map fun (k, part) => Text.quoted k ++ ": " ++ part) ++ "\x7d"

/-- A name with a part in parentheses. -/
def tuple (name part : String) : String := name ++ "(" ++ part ++ ")"

/-- A name with named parts. -/
def record (name : String) (fields : List (String × String)) : String :=
  name ++ " \x7b " ++ commas (fields.map fun (k, part) => k ++ ": " ++ part) ++ " \x7d"

/-- An optional part. -/
def option : Option String → String
  | none => "None"
  | some part => tuple "Some" part

def bool (b : Bool) : String := if b then "true" else "false"

/-- What stands for a function. -/
def function : String := "<function>"

/-! ## 2. Values -/

mutual

/-- A value with its kind. -/
def value : Value → String
  | .null => "Null"
  | .bool b => tuple "Bool" (bool b)
  | .number n => tuple "Number" (String.ofList (Json.numberText n))
  | .string s => tuple "String" (Text.quoted s)
  | .array items => "Array " ++ list (values items)
  | .object members => "Object " ++ map (fields members)

def values : List Value → List String
  | [] => []
  | v :: rest => value v :: values rest

def fields : List (String × Value) → List (String × String)
  | [] => []
  | (k, v) :: rest => (k, value v) :: fields rest

end

variable {σ : Type}

/-- A value for a placeholder. -/
def entry : Entry σ → String
  | .given v => tuple "Value" (value v)
  | .lazy _ => tuple "Lazy" function

/-- The values for a template. -/
def supply : Values σ → String
  | .ready (.positional entries) => tuple "Positional" (list (entries.map entry))
  | .ready (.named entries) => tuple "Named" (map (entries.map fun (k, x) => (k, entry x)))
  | .lazy .. => tuple "Lazy" function

/-! ## 3. Filters -/

def priority : Priority → String
  | .before => "Before"
  | .normal => "Normal"
  | .after => "After"

def defaults : Defaults σ → String
  | .none => "None"
  | .fixed members => tuple "Static" (map (fields members))
  | .factory _ => tuple "Factory" function

/-- A handler or another function that may be absent. -/
def presence {α : Type} (f : Option α) : String := option (f.map fun _ => Text.quoted function)

/-- A definition of a filter. -/
def definition (d : Definition σ) : String :=
  record "FilterDef" [
    ("name", Text.quoted d.name),
    ("priority", priority d.priority),
    ("defaults", defaults d.defaults),
    ("args", option (d.parameters.map fun names => list (names.map Text.quoted))),
    ("config_key", option (d.configKey.map Text.quoted)),
    ("next", Text.quoted function),
    ("on_error", presence d.onError),
    ("on_empty", presence d.onEmpty),
    ("control", bool d.control)]

/-- The context of a filter. -/
def context (ctx : Context σ) : String :=
  record "FilterContext" [
    ("name", Text.quoted ctx.name),
    ("value", value ctx.value),
    ("matched", Text.quoted ctx.matched),
    ("prefix", Text.quoted ctx.leading),
    ("suffix", Text.quoted ctx.trailing),
    ("args", list (ctx.args.map fun slot => option (slot.map value))),
    ("config", option (ctx.config.map value)),
    ("on_error", bool ctx.onError.isSome),
    ("on_empty", bool ctx.onEmpty.isSome)]

/-! ## 4. Engines -/

def missing : Missing σ → String
  | .default => "Default"
  | .ignore => "Ignore"
  | .ask _ => tuple "With" function

/-- Whether a function is set, as a quoted word. -/
def setting {α : Type} (f : Option α) : String :=
  Text.quoted (if f.isSome then function else "None")

/-- The options of an engine. -/
def options (o : Options σ) : String :=
  record "Options" [
    ("missing", missing o.missing),
    ("on_error", setting o.onError),
    ("on_empty", setting o.onEmpty),
    ("is_empty", setting o.isEmpty),
    ("get_filter", setting o.source),
    ("config", value o.config)]

/-- An engine with its filters. -/
def engine (e : Engine σ) : String :=
  record "FlexVars" [
    ("options", options e.options),
    ("filters", map (e.filters.map fun (k, d) => (k, definition d)))]

end Stencil.Inspect
