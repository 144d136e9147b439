/-
# Policies

A handler that is asked about a fault or an empty value answers with a `Behavior`, and the answer
decides how the chain goes on (`Flow`):

    answer          after a fault              after an empty value
    ignore          go on with the input       go on with the input
    ignore v        go on with v               go on with v
    abort           stop with the input        stop with the empty value
    abort v         stop with v                stop with v
    throw           raise the fault            raise that the value is empty
    throw f         raise f                    raise f
    handler fails   as ignore                  as ignore
    no handler      as ignore                  stop with the empty text
-/
import Stencil.Filter.Fault
import Stencil.Value.Basic

namespace Stencil

/-- What a handler wants done. -/
inductive Behavior
  | ignore (replacement : Option Value)
  | abort (replacement : Option Value)
  | throw (replacement : Option Fault)

/-- A text as an answer ends the chain with that text. -/
def Behavior.ofText (text : String) : Behavior := .abort (some (.string text))

/-- How a chain goes on. -/
inductive Flow
  | proceed (value : Value)
  | stop (value : Value)
  | raise (error : Error)

namespace Flow

/-- The answer that counts: without a handler the default, and of a handler that fails `ignore`. -/
def answer (default : Behavior) : Option (Except Fault Behavior) → Behavior
  | none => default
  | some (.ok behavior) => behavior
  | some (.error _) => .ignore none

/-- How a chain goes on behind a filter that failed on its input. -/
def afterFault (filter : String) (fault : Fault) (input : Value)
    (outcome : Option (Except Fault Behavior)) : Flow :=
  match answer (.ignore none) outcome with
  | .ignore replacement => proceed (replacement.getD input)
  | .abort replacement => stop (replacement.getD input)
  | .throw replacement => raise (.filter filter (replacement.getD fault))

/-- How a chain goes on behind a filter that made an empty value of its input. -/
def afterEmpty (filter : String) (input empty : Value)
    (outcome : Option (Except Fault Behavior)) : Flow :=
  match answer (.ofText "") outcome with
  | .ignore replacement => proceed (replacement.getD input)
  | .abort replacement => stop (replacement.getD empty)
  | .throw none => raise (.emptyValue filter)
  | .throw (some fault) => raise (.filter filter fault)

end Flow

end Stencil
