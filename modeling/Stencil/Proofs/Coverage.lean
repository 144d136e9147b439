/-
# The placeholders of a template, all of them and nothing else

What `Template.placeholders` lists is held against the language of placeholders
(`Regular.placeholder`), on any text, malformed or not.

* `Span`: a placeholder lies in the template at its place, and no backslash stands in front of it.
* `Placeholder.WellFormed`: its text is in the language, and its parts are of the characters that
  the language has for them.
* `placeholders_cover`: placeholders do not overlap and come in order, each is a well-formed span,
  and a brace outside of them all that is not escaped starts no text of the language.

Each of the three goes along the pieces of the template.  What stands in front of a piece is known
to `piecesFrom` by its last character only, so the lemmas say `front` for all of it.
-/
import Stencil.Proofs.Language
import Stencil.Proofs.Walk

namespace Stencil

open Stencil.Text

/-! ## 1. Well-formed placeholders -/

/-- A placeholder whose text is in the language, with parts of its characters. -/
structure Placeholder.WellFormed (p : Placeholder) : Prop where
  grammatical : p.matched.toList ∈ Regular.placeholder
  opens : p.matched.toList.head? = some '{'
  closes : p.matched.toList.getLast? = some '}'
  name : ∀ c ∈ p.name.toList, Grammar.isWord c = true
  leading : p.leading ≠ "" → (∀ c ∈ p.leading.toList, Grammar.isRun c = true) ∧
    ∃ c ∈ p.leading.toList, Grammar.isWord c = false
  trailing : ∀ c ∈ p.trailing.toList, Grammar.isRun c = true
  chain : ∀ call ∈ p.chain, ∀ c ∈ call.name.toList, Grammar.isWord c = true

namespace Written

theorem Spelling.leading_run (s : Spelling) (nonempty : s.leadingText ≠ []) :
    (∀ c ∈ s.leadingText, Grammar.isRun c = true) ∧
      ∃ c ∈ s.leadingText, Grammar.isWord c = false := by
  unfold leadingText at nonempty ⊢
  cases written : s.leading with
  | none => simp [written] at nonempty
  | some r => exact ⟨r.run, s.noWord r written⟩

theorem isRun_of_mem_trailingText (trailing : Option Trailing) :
    ∀ c ∈ trailingText trailing, Grammar.isRun c = true := by
  cases trailing with
  | none => simp [trailingText]
  | some t => exact t.run.run

/-- The name of a call is the word of its clause. -/
theorem Clause.isWord_of_call? {f : Clause} {call : Call} (h : f.call? = some call) :
    ∀ c ∈ call.name.toList, Grammar.isWord c = true := by
  unfold call? at h
  split at h
  · cases h
  · cases h
    simpa using f.isWord

end Written

namespace Template

/-- What is found is spelled by its parts. -/
theorem exists_spelling_of_next? {cs : List Char} {f : Found} (found : next? cs = some f) :
    ∃ s : Written.Spelling, f.matched = s.print ∧ f.parts = s.parts := by
  obtain ⟨s, whole, parts⟩ := Written.exists_spelling (recognise?_of_nextFrom found)
  rw [← Found.matched_append_rest (next?_eq_some found).2] at whole
  exact ⟨s, List.append_cancel_right whole, parts⟩

theorem wellFormed_of_next? {cs : List Char} {f : Found} (found : next? cs = some f) :
    f.placeholder.WellFormed := by
  obtain ⟨s, print, parts⟩ := exists_spelling_of_next? found
  constructor
  case grammatical =>
    rw [f.toList_matched_placeholder, print]
    exact Regular.mem_placeholder_iff.2 ⟨s, rfl⟩
  case opens => rw [f.toList_matched_placeholder]; rfl
  case closes => rw [f.toList_matched_placeholder, getLast?_matched found]
  case name => simpa [Found.placeholder, parts, Written.Spelling.parts] using s.isName
  case leading =>
    intro nonempty
    have written : s.leadingText ≠ [] := by
      rintro nothing
      simp [Found.placeholder, parts, Written.Spelling.parts, nothing] at nonempty
    simpa [Found.placeholder, parts, Written.Spelling.parts] using s.leading_run written
  case trailing =>
    simpa [Found.placeholder, parts, Written.Spelling.parts] using
      Written.isRun_of_mem_trailingText s.trailing
  case chain =>
    intro call mem
    simp only [Found.placeholder, parts, Written.Spelling.parts, Written.readChain_printClauses,
      List.mem_filterMap] at mem
    obtain ⟨clause, -, writes⟩ := mem
    exact Written.Clause.isWord_of_call? writes

/-! ## 2. Spans -/

/-- A placeholder at its place in a template, with no backslash in front of it. -/
def Span (cs : List Char) (p : Located) : Prop :=
  ∃ before after, cs = before ++ (p.matched.toList ++ after) ∧ before.getLast? ≠ some '\\' ∧
    p.start = byteLength before ∧ p.stop = byteLength before + byteLength p.matched.toList

theorem utf8Size_brace : ('{' : Char).utf8Size = 1 := by decide

/-- Each placeholder of a template is a well-formed span of it. -/
theorem span_of_mem {passed : List Char} {start : Nat} {cs : List Char} {p : Located}
    (front : List Char)
    (escapes : isEscaped front.reverse = isEscaped passed) (here : byteLength front = start)
    (mem : p ∈ placeholdersOf (piecesFrom passed start cs)) :
    Span (front ++ cs) p ∧ p.WellFormed := by
  fun_induction piecesFrom passed start cs generalizing front with
  | case1 passed start cs _ => simp at mem
  | case2 passed start cs f found here' _ =>
    rename_i ih
    have inside := @ih (front ++ (f.skipped.reverse ++ ['{'])) (by simp)
      (by simp [here, here', Nat.add_assoc, utf8Size_brace]) (by simpa using mem)
    rw [(next?_eq_some found).1]
    simpa using inside
  | case3 passed start cs f found here' unescaped =>
    rename_i ih
    have shape : cs = f.skipped.reverse ++ (f.matched ++ f.rest) := by
      rw [Found.matched_append_rest (next?_eq_some found).2]
      exact (next?_eq_some found).1
    simp only [placeholdersOf_literal, placeholdersOf_placeholder, List.mem_cons] at mem
    rcases mem with rfl | later
    · refine ⟨⟨front ++ f.skipped.reverse, f.rest, ?_, ?_, ?_, ?_⟩, wellFormed_of_next? found⟩
      · simp [Found.located, f.toList_matched_placeholder, shape]
      · rw [← List.head?_reverse, ← isEscaped_eq_false_iff, List.reverse_append,
          List.reverse_reverse, isEscaped_append_congr f.skipped escapes]
        simpa using unescaped
      · simp [Found.located, here', here]
      · simp [Found.located, here', here, f.toList_matched_placeholder]
    · have escapes' := isEscaped_behind_matched found [] front.reverse
      have inside := @ih (front ++ (f.skipped.reverse ++ f.matched)) (by simpa using escapes')
        (by simp [here, here', Nat.add_assoc]) later
      rw [shape]
      simpa using inside

/-- Placeholders do not overlap, and they come in order. -/
theorem pairwise_placeholdersOf (passed : List Char) (start : Nat) (cs : List Char) :
    (placeholdersOf (piecesFrom passed start cs)).Pairwise fun p q => p.stop ≤ q.start := by
  fun_induction piecesFrom passed start cs with
  | case1 passed start cs _ => simp
  | case2 passed start cs f found here _ ih => simpa using ih
  | case3 passed start cs f found here _ ih =>
    rw [placeholdersOf_literal, placeholdersOf_placeholder, List.pairwise_cons]
    exact ⟨fun q later => le_start_of_mem later, ih⟩

/-- A text without braces of both kinds need not be searched. -/
theorem placeholders_eq_nil {cs : List Char} (without : hasBraces cs = false) :
    placeholders cs = [] := by
  refine List.eq_nil_iff_forall_not_mem.2 fun p mem => ?_
  obtain ⟨⟨before, after, whole, -⟩, formed⟩ := span_of_mem [] rfl rfl mem
  rw [List.nil_append] at whole
  have inside : ∀ c ∈ p.matched.toList, c ∈ cs := fun c mem => by simp [whole, mem]
  have opening := inside '{' (List.mem_of_mem_head? formed.opens)
  have closing := inside '}' (List.mem_of_getLast? formed.closes)
  simp [hasBraces, opening, closing] at without

/-! ## 3. Nothing is missed -/

/-- The search passes over braces only where no placeholder is recognised. -/
theorem recognise?_eq_none_of_passed (skipped : List Char) {cs before after : List Char}
    (split : cs = before ++ '{' :: after)
    (passed : ∀ f, nextFrom skipped cs = some f →
      before.length + skipped.length < f.skipped.length) :
    Grammar.recognise? ('{' :: after) = none := by
  induction cs generalizing skipped before with
  | nil => simp at split
  | cons c cs ih =>
    rw [nextFrom] at passed
    cases recognised : Grammar.recognise? (c :: cs) with
    | some result =>
      simp only [recognised] at passed
      have := passed _ rfl
      simp only at this
      omega
    | none =>
      simp only [recognised] at passed
      cases before with
      | nil =>
        cases split
        exact recognised
      | cons d before =>
        refine ih (c :: skipped) (List.cons.inj split).2 fun f found => ?_
        have := passed f found
        simp only [List.length_cons] at this ⊢
        omega

/-- An opening brace was passed, or is the one that was found, or stands behind that. -/
theorem brace_cases {cs before after : List Char} {f : Found} (found : next? cs = some f)
    (split : cs = before ++ '{' :: after) :
    Grammar.recognise? ('{' :: after) = none ∨ before = f.skipped.reverse ∨
      ∃ more, before = f.skipped.reverse ++ '{' :: more ∧ f.opened = more ++ '{' :: after := by
  have whole := (next?_eq_some found).1
  rw [split] at whole
  rcases List.append_eq_append_iff.1 whole with ⟨more, longer, -⟩ | ⟨more, same, behind⟩
  · cases more with
    | nil => exact .inr (.inl (by simpa using longer.symm))
    | cons d more =>
      refine .inl (recognise?_eq_none_of_passed [] split fun g again => ?_)
      cases found.symm.trans again
      have := congrArg List.length longer
      simp only [List.length_reverse, List.length_append, List.length_cons] at this
      simp only [List.length_nil]
      omega
  · cases more with
    | nil => exact .inr (.inl (by simpa using same))
    | cons d more =>
      obtain ⟨rfl, opened⟩ := List.cons.inj behind
      exact .inr (.inr ⟨more, same, opened⟩)

/-- A brace behind the opening one of a placeholder stands in it or in the rest. -/
theorem covered_or_behind {cs more after : List Char} {f : Found} (found : next? cs = some f)
    (behind : f.opened = more ++ '{' :: after) :
    byteLength ('{' :: more) < byteLength f.matched ∨
      ∃ rest, '{' :: more = f.matched ++ rest ∧ f.rest = rest ++ '{' :: after := by
  have whole := Found.matched_append_rest (next?_eq_some found).2
  rw [behind, ← List.cons_append] at whole
  rcases List.append_eq_append_iff.1 whole with ⟨rest, longer, same⟩ | ⟨inner, longer, same⟩
  · exact .inr ⟨rest, longer, same⟩
  · cases inner with
    | nil => exact .inr ⟨[], by simpa using longer.symm, by simpa using same.symm⟩
    | cons c inner =>
      have := Char.utf8Size_pos c
      rw [longer, byteLength_append, byteLength_cons c]
      exact .inl (by omega)

theorem recognise?_eq_none_of_uncovered {passed : List Char} {start : Nat}
    {cs before after : List Char} (split : cs = before ++ '{' :: after)
    (unescaped : isEscaped (before.reverse ++ passed) = false)
    (uncovered : ∀ p ∈ placeholdersOf (piecesFrom passed start cs),
      ¬ (p.start ≤ start + byteLength before ∧ start + byteLength before < p.stop)) :
    Grammar.recognise? ('{' :: after) = none := by
  fun_induction piecesFrom passed start cs generalizing before with
  | case1 passed start cs missing =>
    refine recognise?_eq_none_of_passed [] split fun f found => ?_
    cases missing.symm.trans found
  | case2 passed start cs f found here escaped =>
    rename_i ih
    rcases brace_cases found split with none | rfl | ⟨more, rfl, behind⟩
    · exact none
    · rw [List.reverse_reverse, escaped] at unescaped
      cases unescaped
    · refine ih behind ?_ fun p mem => ?_
      · rwa [isEscaped_behind_brace] at unescaped
      · have := uncovered p (by simpa using mem)
        simp only [byteLength_append, byteLength_reverse, byteLength_cons, utf8Size_brace] at this
        omega
  | case3 passed start cs f found here unescaped' =>
    rename_i ih
    have first := uncovered (f.located here) (by simp)
    simp only [Found.located] at first
    rcases brace_cases found split with none | rfl | ⟨more, rfl, behind⟩
    · exact none
    · have := byteLength_matched_pos f
      simp only [byteLength_reverse] at first
      omega
    · simp only [byteLength_append, byteLength_reverse] at first
      rcases covered_or_behind found behind with covered | ⟨rest, longer, after⟩
      · omega
      · refine ih after ?_ fun p mem => ?_
        · rwa [longer, isEscaped_behind_matched found] at unescaped
        · have := uncovered p (by simp [mem])
          simp only [byteLength_append, byteLength_reverse, longer] at this
          omega

/-- **The placeholders of a template are all that the language finds in it.** -/
theorem placeholders_cover (cs : List Char) :
    (placeholders cs).Pairwise (fun p q => p.stop ≤ q.start) ∧
      (∀ p ∈ placeholders cs, p.start < p.stop ∧ Span cs p ∧ p.WellFormed) ∧
      ∀ before after, cs = before ++ '{' :: after → before.getLast? ≠ some '\\' →
        (∀ p ∈ placeholders cs,
          ¬ (p.start ≤ byteLength before ∧ byteLength before < p.stop)) →
        ¬ ∃ text ∈ Regular.placeholder, text <+: '{' :: after := by
  refine ⟨pairwise_placeholdersOf [] 0 cs, fun p mem => ⟨start_lt_stop_of_mem mem, ?_⟩, ?_⟩
  · simpa using span_of_mem [] rfl rfl mem
  · intro before after split unescaped uncovered
    have none := @recognise?_eq_none_of_uncovered [] 0 _ _ _ split
      (isEscaped_eq_false_iff.2 (by simpa using unescaped))
      (by simpa [placeholders, pieces, placeholdersOf] using uncovered)
    rw [← Regular.isSome_recognise?_iff, none]
    exact Bool.false_ne_true

end Template

end Stencil
