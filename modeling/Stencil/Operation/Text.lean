/-
# Operations on texts

Case, trimming, padding, repeating, replacing, splitting, slicing and length.  Lengths and offsets
count characters.  Padding and repeating refuse to produce more than `outputLimit`: padding by the
width asked for, in characters, repeating by the size of its result, in bytes.
-/
import Stencil.Operation.Offsets
import Stencil.Text.Bytes
import Stencil.Text.Case
import Stencil.Text.Search

namespace Stencil.Operation

open Stencil.Text

/-- An operation on a text. -/
abbrev OnText := List Char → Arguments → Except Fault Value

/-- An operation that makes a text of a text and cannot fail. -/
def mapText (f : List Char → List Char) : OnText := fun cs _ => .ok (.ofChars (f cs))

/-- The first `n` characters of a text written again and again. -/
def cycle (fill : List Char) (n : Nat) : List Char :=
  if fill.isEmpty then []
  else (List.replicate (n / fill.length + 1) fill).flatten.take n

/-- What is missing to the width that the first argument asks for, made of the second. -/
def padding (cs : List Char) (args : Arguments) : Except Fault (List Char) := do
  let width ← count args 0 .padWidth
  if outputLimit < width then .error (.padTooWide width)
  else .ok (cycle ((text? args 1).getD [' ']) (width - cs.length))

def padStart : OnText := fun cs args => do
  let pad ← padding cs args
  .ok (.ofChars (pad ++ cs))

def padEnd : OnText := fun cs args => do
  let pad ← padding cs args
  .ok (.ofChars (cs ++ pad))

/-- The text written several times. -/
def «repeat» : OnText := fun cs args => do
  let times ← count args 0 .repetitions
  let bytes := byteLength cs
  if outputLimit < bytes * times then .error (.repeatTooLong bytes times)
  else if cs.isEmpty then .ok (.ofChars [])
  else .ok (.ofChars (List.replicate times cs).flatten)

/-- Each occurrence of the first argument replaced by the second; an empty pattern replaces
nothing. -/
def replace : OnText := fun cs args =>
  match text? args 0 with
  | none => .error .patternMissing
  | some pattern =>
    if pattern.isEmpty then .ok (.ofChars cs)
    else .ok (.ofChars (replaceAll pattern ((text? args 1).getD []) cs))

/-- The parts between the occurrences of the separator; the empty one separates all characters. -/
def split : OnText := fun cs args =>
  let separator := (text? args 0).getD [',']
  let parts := if separator.isEmpty then cs.map ([·]) else splitOn separator cs
  .ok (.array (parts.map Value.ofChars))

def sliceText : OnText := fun cs args =>
  .ok (.ofChars (slice cs (integer? args 0) (integer? args 1)))

def lengthOfText : OnText := fun cs _ => .ok (.ofInt cs.length)

/-- The operations on texts by name. -/
def onText : List (String × OnText) := [
  ("to_uppercase", mapText toUpper),
  ("to_lowercase", mapText toLower),
  ("trim", mapText trim),
  ("trim_start", mapText trimStart),
  ("trim_end", mapText trimEnd),
  ("pad_start", padStart),
  ("pad_end", padEnd),
  ("repeat", «repeat»),
  ("replace", replace),
  ("split", split),
  ("slice", sliceText),
  ("len", lengthOfText)]

end Stencil.Operation
