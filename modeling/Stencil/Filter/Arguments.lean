/-
# The arguments of one filter run

A filter sees its arguments twice: by name, where defaults, the section of the configuration and the
call are layered over each other, and by position, as the slots were written.
-/
import Stencil.Argument.Slot

namespace Stencil

/-- The arguments of one filter run. -/
structure Arguments where
  named : Fields := []
  positional : List Slot := []

namespace Arguments

/-- The named argument. -/
def get? (a : Arguments) (name : String) : Option Value := a.named.find? name

/-- The named argument, if it is a text. -/
def text? (a : Arguments) (name : String) : Option String := (a.get? name).bind Value.text?

/-- The number in the named argument; a text that writes one counts. -/
def number? (a : Arguments) (name : String) : Option Binary64 :=
  (a.get? name).bind Value.toBinary64?

/-- The named argument, if it is a boolean. -/
def bool? (a : Arguments) (name : String) : Option Bool := (a.get? name).bind Value.bool?

/-- The slot at a position, if the call has it and it is set. -/
def slot? (a : Arguments) (index : Nat) : Option Value := a.positional[index]?.join

/-- No argument of either kind. -/
def isEmpty (a : Arguments) : Bool := a.named.isEmpty && a.positional.isEmpty

/-- The named arguments of a call with the given slots.  A single object is taken member by member;
otherwise the slots that are set get the declared names, position by position. -/
def ofCall (parameters : Option (List String)) (slots : List Slot) : Fields :=
  match slots with
  | [some (.object fields)] => fields
  | _ =>
    Keyed.ofList (((parameters.getD []).zip slots).filterMap fun (name, slot) =>
      slot.map fun value => (name, value))

/-- The members of a section of the configuration; one that is no object has none. -/
def ofSection (section? : Option Value) : Fields := (section?.bind Value.fields?).getD []

/-- The arguments of a run: the defaults, over them the section, over them the call. -/
def layered (defaults : Fields) (section? : Option Value) (parameters : Option (List String))
    (slots : List Slot) : Arguments where
  named := (defaults.merge (ofSection section?)).merge (ofCall parameters slots)
  positional := slots

end Arguments

end Stencil
