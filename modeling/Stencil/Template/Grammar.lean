/-
# The grammar of placeholders

    {  lead  name  | f(args) | g  trail  }

A placeholder stands between braces.  All its parts are optional, and blanks separate them:

* the *leading* literal touches the opening brace; it is a run of characters that are neither blank
  nor brace nor bar, at least one of them not a word character, so that a plain word is never taken
  for it;
* the *name* is a word of ASCII letters, digits and underscores;
* each *filter* is a bar, a word and arguments in parentheses, the last two optional.  Arguments
  hold quoted strings and any characters other than quotes and parentheses, braces included;
* the *trailing* literal is a run like the leading one, of any characters, in front of the closing
  brace, with a blank before it.

`recognise?` reads a placeholder at an opening brace.  Where a text can be read in several ways it
takes the first of these that leads to a closing brace: parentheses behind a filter word are its
arguments rather than a trailing literal, and a word is a name or a filter word rather than the
start of a trailing literal.

Each reader has a lemma that says what is left: a suffix of the text, behind a closing brace
(`recognise?_eq_some` for the whole placeholder).
-/
import Stencil.Text.Blank

namespace Stencil.Grammar

open Stencil.Text

/-! ## 1. Characters -/

/-- A character of a name. -/
def isWord (c : Char) : Bool := c.isAlphanum || c == '_'

/-- A character of a leading or trailing literal. -/
def isRun (c : Char) : Bool := !isBlank c && c != '{' && c != '}' && c != '|'

/-! ## 2. The end of a placeholder -/

/-- The rest behind the closing brace, which blanks may precede. -/
def close? (cs : List Char) : Option (List Char) :=
  match trimStart cs with
  | '}' :: rest => some rest
  | _ => none

theorem close?_suffix {cs rest : List Char} (h : close? cs = some rest) : '}' :: rest <:+ cs := by
  unfold close? at h
  split at h
  · rename_i eq
    cases h
    exact eq ▸ trimStart_suffix cs
  · cases h

/-- A trailing literal, behind at least one blank, and the rest behind the closing brace. -/
def trailing? (cs : List Char) : Option (List Char × List Char) :=
  let inner := trimStart cs
  let run := inner.takeWhile isRun
  if inner.length = cs.length || run.isEmpty then none
  else (close? (inner.drop run.length)).map fun rest => (run, rest)

theorem trailing?_suffix {cs run rest : List Char} (h : trailing? cs = some (run, rest)) :
    '}' :: rest <:+ cs := by
  unfold trailing? at h
  simp only at h
  split at h
  · cases h
  · obtain ⟨found, closed, same⟩ := Option.map_eq_some_iff.1 h
    cases same
    exact (close?_suffix closed).trans <| (List.drop_suffix _ _).trans <| trimStart_suffix cs

/-- The end of a placeholder, with a trailing literal or without. -/
def ending? (cs : List Char) : Option (List Char × List Char) :=
  match trailing? cs with
  | some found => some found
  | none => (close? cs).map fun rest => ([], rest)

theorem ending?_suffix {cs run rest : List Char} (h : ending? cs = some (run, rest)) :
    '}' :: rest <:+ cs := by
  unfold ending? at h
  split at h
  · cases h
    exact trailing?_suffix ‹_›
  · obtain ⟨found, closed, same⟩ := Option.map_eq_some_iff.1 h
    cases same
    exact close?_suffix closed

/-! ## 3. Filters -/

/-- The rest behind the parenthesis that closes arguments, outside the quotes. -/
def argumentsEnd? (quote : Option Char) : List Char → Option (List Char)
  | [] => none
  | c :: rest =>
    match quote with
    | some q => argumentsEnd? (if c == q then none else some q) rest
    | none =>
      if c == ')' then some rest
      else if c == '(' then none
      else argumentsEnd? (if c == '\'' || c == '"' then some c else none) rest

theorem argumentsEnd?_suffix {quote : Option Char} {cs rest : List Char}
    (h : argumentsEnd? quote cs = some rest) : ')' :: rest <:+ cs := by
  induction cs generalizing quote with
  | nil => simp [argumentsEnd?] at h
  | cons c cs ih =>
    unfold argumentsEnd? at h
    split at h
    · exact (ih h).trans (List.suffix_cons c cs)
    · split at h
      · rename_i closes
        cases h
        cases eq_of_beq closes
        exact List.suffix_refl _
      · split at h
        · cases h
        · exact (ih h).trans (List.suffix_cons c cs)

/-- What follows the name: the rest where the filters end, the trailing literal, and the rest behind
the closing brace. -/
structure Tail where
  filtersEnd : List Char
  trailing : List Char
  rest : List Char

/-- The text behind the word of a filter.  Without a word the blanks behind the bar are left to what
follows. -/
def pastWord (cs : List Char) : List Char :=
  let word := (trimStart cs).takeWhile isWord
  if word.isEmpty then cs else (trimStart cs).drop word.length

theorem pastWord_suffix (cs : List Char) : pastWord cs <:+ cs := by
  unfold pastWord
  simp only
  split
  · exact List.suffix_refl _
  · exact (List.drop_suffix _ _).trans (trimStart_suffix cs)

theorem suffix_of_trimStart {c : Char} {cs rest : List Char} (h : trimStart cs = c :: rest) :
    c :: rest <:+ cs := h ▸ trimStart_suffix cs

/-- The filters and the end of a placeholder. -/
def tail? (cs : List Char) : Option Tail :=
  match _bar : trimStart cs with
  | '|' :: behind =>
    let withArguments :=
      match _paren : trimStart (pastWord behind) with
      | '(' :: inner =>
        match _found : argumentsEnd? none inner with
        | some rest => tail? rest
        | none => none
      | _ => none
    match withArguments with
    | some tail => some tail
    | none =>
      match tail? (pastWord behind) with
      | some tail => some tail
      | none => (trailing? behind).map fun (run, rest) => ⟨behind, run, rest⟩
  | _ => (ending? cs).map fun (run, rest) => ⟨cs, run, rest⟩
termination_by cs.length
decreasing_by
  all_goals
    have bar' := (suffix_of_trimStart _bar).length_le
    have word := (pastWord_suffix behind).length_le
    simp only [List.length_cons] at bar'
  · have paren' := (suffix_of_trimStart _paren).length_le
    have inside := (argumentsEnd?_suffix _found).length_le
    simp only [List.length_cons] at paren' inside
    omega
  · omega

theorem tail?_suffix {cs : List Char} {tail : Tail} (h : tail? cs = some tail) :
    '}' :: tail.rest <:+ tail.filtersEnd ∧ tail.filtersEnd <:+ cs := by
  fun_induction tail? cs generalizing tail with
  | case1 cs behind bar withArguments found same =>
    rename_i ih
    cases h
    unfold withArguments at same
    split at same
    · rename_i inner paren
      split at same
      · rename_i rest closed
        obtain ⟨ended, inside⟩ := ih inner paren rest closed same
        have before := (List.suffix_cons ')' rest).trans (argumentsEnd?_suffix closed)
        exact ⟨ended, inside.trans <| before.trans <| (List.suffix_cons '(' inner).trans <|
          (suffix_of_trimStart paren).trans <| (pastWord_suffix behind).trans <|
          (List.suffix_cons '|' behind).trans <| suffix_of_trimStart bar⟩
      · cases same
    · cases same
  | case2 cs behind bar _ _ found same =>
    rename_i _ ih
    cases h
    obtain ⟨ended, inside⟩ := ih same
    exact ⟨ended, inside.trans <| (pastWord_suffix behind).trans <|
      (List.suffix_cons '|' behind).trans <| suffix_of_trimStart bar⟩
  | case3 cs behind bar =>
    obtain ⟨found, trailed, same⟩ := Option.map_eq_some_iff.1 h
    cases same
    exact ⟨trailing?_suffix trailed,
      (List.suffix_cons '|' behind).trans <| suffix_of_trimStart bar⟩
  | case4 cs _ =>
    obtain ⟨found, ended, same⟩ := Option.map_eq_some_iff.1 h
    cases same
    exact ⟨ending?_suffix ended, List.suffix_refl _⟩

/-! ## 4. Placeholders -/

/-- The parts of a placeholder as they are written. -/
structure Parts where
  leading : List Char
  name : List Char
  filters : List Char
  trailing : List Char
  deriving DecidableEq, Repr

/-- The parts from the name on, behind the leading literal and the blank that ends it. -/
def body? (leading cs : List Char) : Option (Parts × List Char) :=
  let inner := trimStart cs
  let name := inner.takeWhile isWord
  let start := if name.isEmpty then cs else inner.drop name.length
  match tail? start with
  | some tail =>
    let filters := start.take (start.length - tail.filtersEnd.length)
    some (⟨leading, name, trim filters, tail.trailing⟩, tail.rest)
  | none => (trailing? cs).map fun (run, rest) => (⟨leading, [], [], run⟩, rest)

theorem body?_suffix {leading cs rest : List Char} {parts : Parts}
    (h : body? leading cs = some (parts, rest)) : '}' :: rest <:+ cs := by
  unfold body? at h
  simp only at h
  split at h
  · rename_i tail found
    cases h
    obtain ⟨ended, inside⟩ := tail?_suffix found
    refine (ended.trans inside).trans ?_
    split
    · exact List.suffix_refl _
    · exact (List.drop_suffix _ _).trans (trimStart_suffix cs)
  · obtain ⟨found, trailed, same⟩ := Option.map_eq_some_iff.1 h
    cases same
    exact trailing?_suffix trailed

/-- The placeholder behind an opening brace. -/
def behindBrace? (cs : List Char) : Option (Parts × List Char) :=
  let run := cs.takeWhile isRun
  if run.all isWord then body? [] cs
  else
    match cs.drop run.length with
    | c :: rest => if isBlank c then body? run rest else none
    | [] => none

theorem behindBrace?_suffix {cs rest : List Char} {parts : Parts}
    (h : behindBrace? cs = some (parts, rest)) : '}' :: rest <:+ cs := by
  unfold behindBrace? at h
  simp only at h
  split at h
  · exact body?_suffix h
  · split at h
    · rename_i c behind eq
      split at h
      · exact (body?_suffix h).trans <|
          (List.suffix_cons c behind).trans (eq ▸ List.drop_suffix _ _)
      · cases h
    · cases h

/-- The placeholder that a text starts with, and the rest behind it. -/
def recognise? : List Char → Option (Parts × List Char)
  | '{' :: cs => behindBrace? cs
  | _ => none

/-- **A placeholder is a piece of the text**, from its opening brace to its closing one. -/
theorem recognise?_eq_some {cs rest : List Char} {parts : Parts}
    (h : recognise? cs = some (parts, rest)) : ∃ inner, cs = '{' :: inner ++ '}' :: rest := by
  unfold recognise? at h
  split at h
  · obtain ⟨inner, same⟩ := behindBrace?_suffix h
    exact ⟨inner, by simp [← same]⟩
  · cases h

end Stencil.Grammar
