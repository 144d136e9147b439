/-
# Why a filter or a whole run fails

A filter fails with a `Fault`.  The built-in operations have a closed list of causes; filters from
outside bring a text of their own.  A run fails with an `Error`: a policy let the fault of a filter
through, or made an empty value an error.  A definition is refused with an `Error` too.

Each cause has its wording in one place, `Fault.message` and `Error.message`.
-/
import Stencil.Text.Digit

namespace Stencil

/-- A number in decimal, for messages. -/
def natText (n : Nat) : String := String.ofList (Text.decimalDigits n)

/-- An integer in decimal, for messages. -/
def intText (i : Int) : String := (if i < 0 then "-" else "") ++ natText i.natAbs

/-- The most that padding (in characters) and repeating (in bytes) may produce. -/
def outputLimit : Nat := Nat.pow 2 20

/-- The counts that operations ask for. -/
inductive Count
  | padWidth
  | repetitions
  deriving DecidableEq, Repr

/-- What a message calls a count. -/
def Count.label : Count → String
  | padWidth => "pad width"
  | repetitions => "repeat count"

/-- Why a filter failed. -/
inductive Fault
  | countMissing (count : Count)
  | countNegative (count : Count) (value : Int)
  | padTooWide (width : Nat)
  | repeatTooLong (bytes times : Nat)
  | patternMissing
  | placesOutOfRange (places : Int)
  | custom (text : String)
  deriving DecidableEq, Repr

/-- The wording of a fault. -/
def Fault.message : Fault → String
  | countMissing count => count.label ++ " is required"
  | countNegative count value =>
    count.label ++ " must not be negative, got " ++ intText value
  | padTooWide width =>
    "pad width " ++ natText width ++ " exceeds the " ++ natText outputLimit ++ " limit"
  | repeatTooLong bytes times =>
    "repeating " ++ natText bytes ++ " bytes " ++ natText times ++ " times exceeds the "
      ++ natText outputLimit ++ " byte limit"
  | patternMissing => "replace needs a pattern"
  | placesOutOfRange places => "to_fixed digits out of range: " ++ intText places
  | custom text => text

/-- Why a definition is refused. -/
inductive Flaw
  | blankName
  | noTransform (name : String)
  deriving DecidableEq, Repr

/-- The wording of a flaw. -/
def Flaw.message : Flaw → String
  | blankName => "filter name must not be empty"
  | noTransform name => "filter `" ++ name ++ "` has no transform"

/-- Why a run or a registration failed. -/
inductive Error
  /-- A fault of the filter, let through or replaced by a policy. -/
  | filter (name : String) (source : Fault)
  /-- An empty value of the filter, made an error by a policy. -/
  | emptyValue (name : String)
  /-- A definition that cannot be registered. -/
  | invalidFilter (flaw : Flaw)
  deriving DecidableEq, Repr

/-- The wording of an error. -/
def Error.message : Error → String
  | filter name source => "filter `" ++ name ++ "` failed: " ++ source.message
  | emptyValue name => "filter `" ++ name ++ "` produced an empty value"
  | invalidFilter flaw => "invalid filter definition: " ++ flaw.message

/-- The filter that an error speaks of. -/
def Error.filterName? : Error → Option String
  | filter name _ => some name
  | emptyValue name => some name
  | invalidFilter _ => none

/-- The fault behind an error. -/
def Error.source? : Error → Option Fault
  | filter _ source => some source
  | _ => none

end Stencil
