/-
# Literals that are JSON already

The strict form of a literal that is a text of JSON is that text, however it is spaced, escaped and
nested.  So it does not matter whether the text or its strict form is read first.

* `stringBody_body`: what stands between double quotes is copied to the closing quote;
* `stays_of_produces`: each symbol of the grammar stays as it is;
* `toStrict_json`: so a whole text of JSON does, and its reading is the reading of its strict form.

A symbol is rewritten in front of what may follow it: any spaces, and then a comma, a closing
bracket, or the end (`Trails`).  There no word is a key, behind its spaces either, and no numeral
goes on.
-/
import Stencil.Proofs.JsonGrammar
import Stencil.Proofs.Relaxed

namespace Stencil

open Stencil.Text Json

namespace Literal

/-! ## 1. What may follow a value -/

theorem isSpace_iff {c : Char} :
    isSpace c = true ↔ ((c = ' ' ∨ c = '\n') ∨ c = '\t') ∨ c = '\r' := by
  simp [isSpace]

theorem isBlank_of_isSpace {c : Char} (h : isSpace c = true) : isBlank c = true := by
  rcases isSpace_iff.1 h with ((rfl | rfl) | rfl) | rfl <;> decide

theorem inWord_of_isSpace {c : Char} (h : isSpace c = true) : inWord c = false := by
  have noLetter : isAlphanumeric c = false := by
    refine isAlphanumeric_of_between ?_
    rcases isSpace_iff.1 h with ((rfl | rfl) | rfl) | rfl <;> decide
  have other : ∀ d, isSpace d = false → c ≠ d := fun d => ne_of_class h
  simp [inWord, noLetter, other '_' (by decide), other '$' (by decide)]

theorem inNumeral_of_isSpace {c : Char} (h : isSpace c = true) : inNumeral c = false := by
  rcases isSpace_iff.1 h with ((rfl | rfl) | rfl) | rfl <;> decide

/-- What may follow a value, behind any spaces: a comma, a closing bracket, or the end. -/
def Trails (rest : List Char) : Prop := ∃ gap more, Spaces gap ∧ Ends more ∧ rest = gap ++ more

theorem Trails.of_ends {rest : List Char} (ends : Ends rest) : Trails rest :=
  ⟨[], rest, spaces_nil, ends, rfl⟩

theorem Trails.spaces {gap rest : List Char} (spaces : Spaces gap) (trails : Trails rest) :
    Trails (gap ++ rest) := by
  obtain ⟨gap', more, spaces', ends, rfl⟩ := trails
  exact ⟨gap ++ gap', more, spaces.append spaces', ends, (List.append_assoc ..).symm⟩

/-- A run stops there if neither spaces nor what they stand in front of go on with it. -/
theorem Trails.stops {rest : List Char} (trails : Trails rest) {p : Char → Bool}
    (space : ∀ c, isSpace c = true → p c = false) (ends : ∀ more, Ends more → Stops p more) :
    Stops p rest := by
  obtain ⟨gap, more, spaces, ends', rfl⟩ := trails
  cases gap with
  | nil => exact ends more ends'
  | cons c gap => exact stops_cons.2 (space c (spaces c (List.mem_cons_self ..)))

theorem Trails.noKey {rest : List Char} (trails : Trails rest) : colonFollows rest = false := by
  obtain ⟨gap, more, spaces, ends, rfl⟩ := trails
  have behind : trimStart (gap ++ more) = trimStart more :=
    List.dropWhile_append_of_pos fun c mem => isBlank_of_isSpace (spaces c mem)
  rw [colonFollows, behind]
  exact ends.noKey

/-! ## 2. What stays -/

/-- A text stays as it is, in front of whatever may follow a value. -/
def Stays (cs : List Char) : Prop :=
  ∀ rest, Trails rest → toStrict (cs ++ rest) = cs ++ toStrict rest

theorem toStrict_spaces {gap : List Char} (spaces : Spaces gap) (rest : List Char) :
    toStrict (gap ++ rest) = gap ++ toStrict rest := by
  induction gap with
  | nil => rfl
  | cons c gap ih =>
    obtain ⟨space, spaces⟩ := List.forall_mem_cons.1 spaces
    have other : (c == '\'' || c == '"') = false ∧ startsNumeral c = false := by
      rcases isSpace_iff.1 space with ((rfl | rfl) | rfl) | rfl <;> decide
    have noWord : startsWord c = false := by
      have := inWord_of_isSpace space
      simp only [inWord, isAlphanumeric, Bool.or_eq_false_iff] at this
      simp [startsWord, this]
    rw [List.cons_append, toStrict_other other.1 other.2 noWord, ih spaces, List.cons_append]

theorem plain_of_isHex {c : Char} (h : isHex c = true) : c ≠ '\\' ∧ c ≠ '"' :=
  ⟨ne_of_class h (by decide), ne_of_class h (by decide)⟩

theorem stringBody_escape {c : Char} (noSingle : c ≠ '\'') (rest : List Char) :
    stringBody '"' ('\\' :: c :: rest) =
      ('\\' :: c :: (stringBody '"' rest).1, (stringBody '"' rest).2) := by
  rw [stringBody]
  simp [noSingle]

/-- **What stands between double quotes is copied** up to the closing quote. -/
theorem stringBody_body {body : List Char} (h : IsBody body) (rest : List Char) :
    stringBody '"' (body ++ '"' :: rest) = (body, rest) := by
  induction h with
  | nil => rfl
  | plain noQuote noBackslash printable h ih =>
    rw [List.cons_append, stringBody_plain noBackslash noQuote noQuote, ih]
  | @escape c mem cs h ih =>
    have noSingle : c ≠ '\'' := by
      rintro rfl
      exact absurd mem (by decide)
    rw [List.cons_append, List.cons_append, stringBody_escape noSingle, ih]
  | unicode hex h ih =>
    have plain := fun c mem => plain_of_isHex (hex c mem)
    simp only [List.forall_mem_cons, List.not_mem_nil, false_implies, implies_true] at plain
    obtain ⟨⟨a, a'⟩, ⟨b, b'⟩, ⟨c, c'⟩, ⟨d, d'⟩, -⟩ := plain
    simp only [List.cons_append, stringBody_escape (by decide : 'u' ≠ '\''),
      stringBody_plain a a' a', stringBody_plain b b' b', stringBody_plain c c' c',
      stringBody_plain d d' d', ih]

theorem toStrict_body {body : List Char} (h : IsBody body) (rest : List Char) :
    toStrict ('"' :: (body ++ '"' :: rest)) = '"' :: (body ++ '"' :: toStrict rest) := by
  rw [toStrict, stringBody_body h]
  simp

theorem inNumeral_of_isDigit {c : Char} (h : c.isDigit = true) : inNumeral c = true := by
  simp [inNumeral, Char.isAlphanum, h]

theorem inNumeral_fraction {cs : List Char} (h : IsFraction cs) : ∀ c ∈ cs, inNumeral c = true := by
  cases h with
  | none => exact fun _ no => absurd no List.not_mem_nil
  | some h =>
    exact List.forall_mem_cons.2 ⟨by decide, fun c mem => inNumeral_of_isDigit (h.digits c mem)⟩

theorem inNumeral_exponent {cs : List Char} (h : IsExponent cs) : ∀ c ∈ cs, inNumeral c = true := by
  cases h with
  | none => exact fun _ no => absurd no List.not_mem_nil
  | @some e letter sign signed ds h =>
    refine List.forall_mem_cons.2 ⟨?_, List.forall_mem_append.2 ⟨?_, ?_⟩⟩
    · rcases letter with rfl | rfl <;> decide
    · rcases signed with rfl | rfl | rfl <;> simp [inNumeral]
    · exact fun c mem => inNumeral_of_isDigit (h.digits c mem)

/-- A number without its sign is a digit and a run of what numerals go on with. -/
theorem exists_numeral {cs : List Char} (h : IsUnsigned cs) :
    ∃ c ds, cs = c :: ds ∧ c.isDigit = true ∧ ∀ d ∈ ds, inNumeral d = true := by
  obtain ⟨h, fraction, exponent⟩ := h
  rename_i whole _ _
  cases whole with
  | nil => exact absurd rfl h.nonempty
  | cons c ds =>
    obtain ⟨digit, digits⟩ := List.forall_mem_cons.1 h.digits
    exact ⟨c, _, rfl, digit, List.forall_mem_append.2
      ⟨fun d mem => inNumeral_of_isDigit (digits d mem), List.forall_mem_append.2
        ⟨inNumeral_fraction fraction, inNumeral_exponent exponent⟩⟩⟩

/-! ## 3. Texts of JSON -/

/-- **Each symbol of the grammar stays as it is.** -/
theorem stays_of_produces {symbol : Symbol} {cs : List Char} (h : Produces symbol cs) :
    Stays cs := by
  have numeral : ∀ {rest}, Trails rest → Stops inNumeral rest := fun trails =>
    trails.stops (fun _ => inNumeral_of_isSpace)
      fun _ ends => ends.stops (by decide) (by decide) (by decide)
  induction h with
  | word h =>
    intro rest trails
    refine toStrict_keyword ?_ (trails.stops (fun _ => inWord_of_isSpace)
      fun _ ends => ends.stops_word) trails.noKey
    simp only [List.mem_cons, List.not_mem_nil, or_false] at h
    rcases h with rfl | rfl | rfl <;> decide
  | positive h =>
    intro rest trails
    obtain ⟨c, ds, rfl, digit, inside⟩ := exists_numeral h
    exact toStrict_numeral (by simp [startsNumeral, digit]) inside (numeral trails)
  | negative h =>
    intro rest trails
    obtain ⟨c, ds, rfl, digit, inside⟩ := exists_numeral h
    exact toStrict_numeral (by decide)
      (List.forall_mem_cons.2 ⟨inNumeral_of_isDigit digit, inside⟩) (numeral trails)
  | @string cs h =>
    intro rest trails
    simpa using toStrict_body h rest
  | @emptyArray gap spaces =>
    intro rest trails
    rw [List.cons_append, List.append_assoc, toStrict_punctuation rfl, toStrict_spaces spaces,
      List.singleton_append, toStrict_punctuation rfl]
    simp
  | @array cs h ih =>
    intro rest trails
    rw [List.cons_append, List.append_assoc, toStrict_punctuation rfl, List.singleton_append,
      ih _ (.of_ends (ends_square rest)), toStrict_punctuation rfl]
    simp
  | @emptyObject gap spaces =>
    intro rest trails
    rw [List.cons_append, List.append_assoc, toStrict_punctuation rfl, toStrict_spaces spaces,
      List.singleton_append, toStrict_punctuation rfl]
    simp
  | @object cs h ih =>
    intro rest trails
    rw [List.cons_append, List.append_assoc, toStrict_punctuation rfl, List.singleton_append,
      ih _ (.of_ends (ends_brace rest)), toStrict_punctuation rfl]
    simp
  | element spaces h spaces' ih =>
    intro rest trails
    rw [List.append_assoc, List.append_assoc, toStrict_spaces spaces,
      ih _ (trails.spaces spaces'), toStrict_spaces spaces']
    simp
  | lastElement h ih => exact ih
  | elements h h' ih ih' =>
    intro rest trails
    rw [List.append_assoc, List.cons_append, ih _ (.of_ends (ends_comma _)),
      toStrict_punctuation rfl, ih' rest trails]
    simp
  | @member before key behind cs spaces h spaces' h' ih =>
    intro rest trails
    have whole : before ++ '"' :: (key ++ '"' :: (behind ++ ':' :: cs)) ++ rest =
        before ++ '"' :: (key ++ '"' :: (behind ++ ':' :: (cs ++ rest))) := by
      simp
    rw [whole, toStrict_spaces spaces, toStrict_body h, toStrict_spaces spaces',
      toStrict_punctuation rfl, ih rest trails]
    simp
  | lastMember h ih => exact ih
  | members h h' ih ih' =>
    intro rest trails
    rw [List.append_assoc, List.cons_append, ih _ (.of_ends (ends_comma _)),
      toStrict_punctuation rfl, ih' rest trails]
    simp

/-- **A text of JSON is its own strict form**, with any spaces, escapes, forms of numbers and
nesting.  So it does not matter whether it is read first as it stands, or in its strict form, or
only in one of the two.  Every text that the reader accepts is one. -/
theorem toStrict_json (cs : List Char) :
    ((Json.read? cs).isSome = true → Produces .element cs) ∧
      (Produces .element cs → toStrict cs = cs ∧ read? cs = Json.read? cs ∧
        read? cs = (Json.read? (toStrict cs) <|> Json.read? cs)) := by
  refine ⟨produces_of_read?, fun produces => ?_⟩
  have stays : toStrict cs = cs := by
    have whole := stays_of_produces produces [] (.of_ends ends_nil)
    rwa [List.append_nil, toStrict, List.append_nil] at whole
  have once : (Json.read? cs <|> Json.read? cs) = Json.read? cs := by
    cases Json.read? cs <;> rfl
  rw [read?, stays, once]
  exact ⟨rfl, rfl, rfl⟩

/-- An object with spaces, escapes, keywords as keys and several forms of numbers. -/
def spacedOut : List Char :=
  (" \x7b \"it's \\u00e9\\n\\\"\" : [ -0.5e+10 ,1E-2 ,\n18446744073709551616, true\t] ,\r\n" ++
    "\"null\":\x7b \x7d , \"$\" : [ [] , null ] \x7d ").toList

theorem toStrict_spacedOut :
    (Json.read? spacedOut).isSome = true ∧ Produces .element spacedOut ∧
      toStrict spacedOut = spacedOut ∧ read? spacedOut = Json.read? spacedOut ∧
      read? spacedOut = (Json.read? (toStrict spacedOut) <|> Json.read? spacedOut) := by
  have valid : (Json.read? spacedOut).isSome = true := by decide +kernel
  have produces := (toStrict_json spacedOut).1 valid
  exact ⟨valid, produces, (toStrict_json spacedOut).2 produces⟩

end Literal

end Stencil
