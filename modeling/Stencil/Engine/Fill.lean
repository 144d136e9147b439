/-
# Filling a template with values

Values come by position or by name.  By position each placeholder takes the next value, whatever its
name, and only the placeholder found is replaced.  By name equal placeholders get equal texts, so
later copies of a placeholder are replaced along with it.  A value may be produced on demand, each
time a placeholder takes it, and so may all the values together, once and before the first
placeholder is looked for.
-/
import Stencil.Engine.Run
import Stencil.Template.Splice

namespace Stencil

/-- A value for a placeholder, given or produced on demand. -/
inductive Entry (σ : Type)
  | given (value : Value)
  | lazy (produce : StateM σ Value)

/-- The value itself. -/
def Entry.resolve {σ : Type} : Entry σ → StateM σ Value
  | given value => pure value
  | lazy produce => produce

/-- The values for a template. -/
inductive Entries (σ : Type)
  | positional (entries : List (Entry σ))
  | named (entries : Keyed (Entry σ))

/-- Values, given or produced on demand; producing them leaves the state `after`. -/
inductive Values (σ : Type)
  | ready (entries : Entries σ)
  | lazy (produce : σ → Values σ) (after : σ → σ)

namespace Values

variable {σ : Type}

/-- No values. -/
def none : Values σ := ready (.positional [])

/-- One value. -/
def one (entry : Entry σ) : Values σ := ready (.positional [entry])

/-- Values in order. -/
def list (entries : List (Entry σ)) : Values σ := ready (.positional entries)

/-- Values by name. -/
def map (entries : Keyed (Entry σ)) : Values σ := ready (.named entries)

/-- The items of a list in order, the members of an object by name, any other value alone. -/
def ofValue : Value → Values σ
  | .array items => list (items.map .given)
  | .object fields => map (fields.map fun (name, value) => (name, .given value))
  | value => one (.given value)

/-- The values themselves. -/
def force : Values σ → StateM σ (Entries σ)
  | ready entries => pure entries
  | lazy produce after => fun state => (produce state).force (after state)

end Values

namespace Engine

variable {σ : Type}

/-- The text of a placeholder with the value it takes, or without one. -/
def fillWith (e : Engine σ) (template : String) (p : Placeholder) (supplied? : Option (Entry σ))
    (key : MissingKey) : StateM σ (Except Error String) := do
  match supplied? with
  | some entry => e.run template p (← entry.resolve)
  | none =>
    match ← e.options.missing.value? key with
    | some value => e.run template p value
    | none => pure (.ok p.matched)

/-- The text of a placeholder, by name. -/
def fillNamed (e : Engine σ) (template : String) (entries : Keyed (Entry σ)) (p : Placeholder) :
    StateM σ (Except Error String) :=
  e.fillWith template p (entries.find? p.name) (.name p.name)

/-- The text of a placeholder, by position; the state counts the placeholders. -/
def fillPositional (e : Engine σ) (template : String) (entries : List (Entry σ))
    (p : Placeholder) : StateM (Nat × σ) (Except Error String) :=
  fun (index, state) =>
    let (result, state) := e.fillWith template p entries[index]? (.index index) state
    (result, (index + 1, state))

/-- A template filled with values.  By name it may take `extra` steps for placeholders that the
values bring, and the answer is `none` if they do not suffice. -/
def replaceWithin (e : Engine σ) (extra : Nat) (template : String) (values : Values σ) :
    StateM σ (Option (Except Error String)) := do
  match ← values.force with
  | .named entries =>
    let steps := Template.ownSteps template + extra
    Template.splice .all (e.fillNamed template entries) steps template
  | .positional entries => fun state =>
    let (result, (_, state)) :=
      Template.splice .one (e.fillPositional template entries) (Template.ownSteps template) template
        (0, state)
    (result, state)

/-- The steps for placeholders that values bring. -/
def stepLimit : Nat := Nat.pow 10 7

/-- A template filled with values; `none` if these bring ever new placeholders. -/
def replace (e : Engine σ) (template : String) (values : Values σ) :
    StateM σ (Option (Except Error String)) :=
  e.replaceWithin stepLimit template values

end Engine

end Stencil
