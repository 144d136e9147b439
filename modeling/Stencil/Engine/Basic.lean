/-
# Engines

An engine is a registry of filters and its options.  Every engine starts with the two control
filters.  Registering a filter replaces the one of the same name, and a filter whose name is blank
is refused.

A name resolves, in this order, to the registered filter, to what the source of the options hands
back, or to a built-in operation.
-/
import Stencil.Engine.Options
import Stencil.Filter.Control
import Stencil.Operation.Table

namespace Stencil

/-- A registry of filters, by name, and options. -/
structure Engine (σ : Type) where
  options : Options σ := {}
  filters : Keyed (Definition σ) := []

namespace Engine

variable {σ : Type}

/-! ## 1. The registry -/

/-- The filters of a new engine. -/
def preregistered : Keyed (Definition σ) :=
  [Control.error, Control.empty].foldl (fun all d => all.insert d.name d) []

/-- The filters of a new engine, in the order of their names. -/
theorem preregistered_eq : (preregistered : Keyed (Definition σ)) =
    [("empty", Control.empty), ("error", Control.error)] := by
  have order : "empty" < "error" := by decide +kernel
  have error : (Control.error : Definition σ).name = "error" := rfl
  have empty : (Control.empty : Definition σ).name = "empty" := rfl
  simp [preregistered, Keyed.insert, error, empty, order]

/-- An engine with the control filters. -/
def withOptions (options : Options σ) : Engine σ := { options, filters := preregistered }

/-- An engine with the control filters and all options at their defaults. -/
def new : Engine σ := withOptions {}

/-- The engine with one more filter, which replaces the one of the same name. -/
def add (e : Engine σ) (d : Definition σ) : Except Error (Engine σ) :=
  match d.flaw? with
  | some flaw => .error (.invalidFilter flaw)
  | none => .ok { e with filters := e.filters.insert d.name d }

/-- The engine without a filter. -/
def remove (e : Engine σ) (name : String) : Engine σ :=
  { e with filters := e.filters.erase name }

/-- The registered filter of a name. -/
def filter? (e : Engine σ) (name : String) : Option (Definition σ) := e.filters.find? name

/-- The engine with a registered filter changed in place. -/
def adjust (e : Engine σ) (name : String) (change : Definition σ → Definition σ) : Engine σ :=
  { e with filters := e.filters.adjust name change }

/-- The names of the registered filters, in increasing order. -/
def filterNames (e : Engine σ) : List String := e.filters.keys

/-! ## 2. Resolving names -/

/-- The filter that a name stands for. -/
def resolve (e : Engine σ) (name : String) : StateM σ (Option (Definition σ)) :=
  match e.filter? name with
  | some d => pure (some d)
  | none =>
    match e.options.source with
    | none => pure (Operation.definition? name)
    | some source => do
      match ← source name with
      | some supplied => pure (some (supplied.toDefinition name))
      | none => pure (Operation.definition? name)

/-- Whether a name stands for a filter. -/
def knows (e : Engine σ) (name : String) : StateM σ Bool := do
  return (← e.resolve name).isSome

end Engine

end Stencil
