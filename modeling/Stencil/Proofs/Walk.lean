/-
# Walks that keep to the template

`Template.spliceFrom` searches a text that changes under it, and whether a brace is escaped is seen
from what the walk has written.  This file says when a walk nevertheless takes exactly the
placeholders of the template, and what it comes to in that case:

* `answers`: what a callback gives for the placeholders one after another, up to its first failure;
* `weave`: the pieces of a template with those texts in place of the placeholders;
* `spliceFrom_eq_answers`: the walk is the one, woven into the other, as long as no text that ends
  with a backslash is directly followed by a placeholder and, where later copies are replaced too,
  no placeholder has a copy behind it.

What decides is the character in front of the next brace.  Behind a placeholder the template has a
closing brace there and the walk has the end of a text, so `isEscaped` is the only place where the
two can part (`Agrees`).
-/
import Mathlib
import Stencil.Template.Piece
import Stencil.Template.Splice

namespace Stencil

open Stencil.Text

/-- A text whose last character is a backslash. -/
def EndsInBackslash (text : String) : Prop := text.toList.getLast? = some '\\'

instance : DecidablePred EndsInBackslash := fun text =>
  inferInstanceAs (Decidable (text.toList.getLast? = some '\\'))

namespace Template

variable {σ ε : Type}

/-! ## 1. Escapes -/

@[simp] theorem isEscaped_nil : isEscaped [] = false := rfl

@[simp] theorem isEscaped_cons (c : Char) (passed : List Char) :
    isEscaped (c :: passed) = (c == '\\') := by
  simp [isEscaped]

/-- Only an empty text lets the text before it decide. -/
theorem isEscaped_append {skipped : List Char} (passed : List Char) (h : skipped ≠ []) :
    isEscaped (skipped ++ passed) = isEscaped skipped := by
  cases skipped with
  | nil => exact absurd rfl h
  | cons c rest => simp

theorem isEscaped_eq_false_iff {passed : List Char} :
    isEscaped passed = false ↔ passed.head? ≠ some '\\' := by
  simp [isEscaped]

/-- Behind the same characters it is as in front of them. -/
theorem isEscaped_append_congr (skipped : List Char) {passed passed' : List Char}
    (h : isEscaped passed = isEscaped passed') :
    isEscaped (skipped ++ passed) = isEscaped (skipped ++ passed') := by
  cases skipped with
  | nil => exact h
  | cons c skipped => simp

theorem isEscaped_reverse_iff (text : String) :
    isEscaped text.toList.reverse = true ↔ EndsInBackslash text := by
  simp [isEscaped, EndsInBackslash]

/-- Behind an inserted text a brace is escaped only by that text. -/
theorem isEscaped_inserted {passed : List Char} (text : String) (h : isEscaped passed = false) :
    isEscaped (text.toList.reverse ++ passed) = true ↔ EndsInBackslash text := by
  rw [← isEscaped_reverse_iff]
  by_cases empty : text.toList.reverse = []
  · simp [empty, h]
  · rw [isEscaped_append passed empty]

/-- Whether a backslash stands in front of what follows a text. -/
def escapedBehind (escaped : Bool) (text : List Char) : Bool :=
  match text.getLast? with
  | none => escaped
  | some c => c == '\\'

theorem isEscaped_reverse_append (text passed : List Char) :
    isEscaped (text.reverse ++ passed) = escapedBehind (isEscaped passed) text := by
  rcases List.eq_nil_or_concat text with rfl | ⟨init, last, rfl⟩
  · rfl
  · simp [escapedBehind]

theorem escapedBehind_append (escaped : Bool) (xs ys : List Char) :
    escapedBehind escaped (xs ++ ys) = escapedBehind (escapedBehind escaped xs) ys := by
  rcases List.eq_nil_or_concat ys with rfl | ⟨init, last, rfl⟩
  · simp [escapedBehind]
  · simp [escapedBehind]

theorem escapedBehind_cons (escaped : Bool) (c : Char) (cs : List Char) :
    escapedBehind escaped (c :: cs) = escapedBehind (c == '\\') cs :=
  escapedBehind_append escaped [c] cs

theorem escapedBehind_brace (escaped : Bool) (u₁ u₂ : List Char) :
    escapedBehind escaped (u₁ ++ '{' :: u₂) = escapedBehind false u₂ := by
  rw [List.append_cons, escapedBehind_append]
  congr 1
  simp [escapedBehind]

theorem escapedBehind_of_closing {needle : List Char} (closing : needle.getLast? = some '}')
    (escaped : Bool) : escapedBehind escaped needle = false := by
  simp [escapedBehind, closing]

/-- A text that does not end with a backslash escapes nothing. -/
theorem escapedBehind_of_not_endsInBackslash {text : String} (h : ¬ EndsInBackslash text) :
    escapedBehind false text.toList = false := by
  rw [← isEscaped_reverse_iff] at h
  have passed := isEscaped_reverse_append text.toList []
  rw [List.append_nil] at passed
  exact passed.symm.trans (Bool.eq_false_iff.2 h)

/-! ## 2. Where placeholders stand -/

theorem recognise?_of_nextFrom {skipped cs : List Char} {f : Found}
    (found : nextFrom skipped cs = some f) :
    Grammar.recognise? ('{' :: f.opened) = some (f.parts, f.rest) := by
  induction cs generalizing skipped with
  | nil => simp [nextFrom] at found
  | cons c cs ih =>
    unfold nextFrom at found
    split at found
    · rename_i parts rest recognised
      cases found
      obtain ⟨inner, eq⟩ := Grammar.recognise?_eq_some recognised
      cases eq
      exact recognised
    · exact ih found

theorem getLast?_matched {cs : List Char} {f : Found} (found : next? cs = some f) :
    f.matched.getLast? = some '}' := by
  have closed := (next?_eq_some found).2
  have whole := Found.matched_append_rest closed
  obtain ⟨inner, eq⟩ := closed
  have shape : f.matched = '{' :: inner ++ ['}'] := by
    refine List.append_cancel_right (whole.trans ?_)
    rw [← eq]
    simp
  rw [shape, List.getLast?_concat]

/-- Behind a brace that was passed it does not matter what stands before it. -/
theorem isEscaped_behind_brace (skipped before passed : List Char) :
    isEscaped ((skipped.reverse ++ '{' :: before).reverse ++ passed) =
      isEscaped (before.reverse ++ ['{']) := by
  simp only [List.reverse_append, List.reverse_cons, List.append_assoc]
  exact isEscaped_append_congr before.reverse (by simp)

/-- Behind a placeholder it does not matter what stands before it. -/
theorem isEscaped_behind_matched {cs : List Char} {f : Found} (found : next? cs = some f)
    (before passed : List Char) :
    isEscaped ((f.skipped.reverse ++ (f.matched ++ before)).reverse ++ passed) =
      isEscaped (before.reverse ++ ['}']) := by
  simp only [List.reverse_append, List.append_assoc]
  refine isEscaped_append_congr before.reverse ?_
  rw [isEscaped_reverse_append, escapedBehind_of_closing (getLast?_matched found)]
  rfl

theorem byteLength_matched_pos (f : Found) : 0 < byteLength f.matched := by
  have : 0 < ('{' : Char).utf8Size := Char.utf8Size_pos _
  simp only [Found.matched, byteLength_cons]
  omega

/-- The placeholders among pieces. -/
def placeholdersOf (ps : List Piece) : List Located := ps.filterMap Piece.placeholder?

@[simp] theorem placeholdersOf_nil : placeholdersOf [] = [] := rfl

@[simp] theorem placeholdersOf_literal (text : List Char) (ps : List Piece) :
    placeholdersOf (.literal text :: ps) = placeholdersOf ps := rfl

@[simp] theorem placeholdersOf_placeholder (p : Located) (ps : List Piece) :
    placeholdersOf (.placeholder p :: ps) = p :: placeholdersOf ps := rfl

theorem piecesFrom_none (passed : List Char) (start : Nat) {cs : List Char}
    (found : next? cs = none) : piecesFrom passed start cs = [.literal cs] := by
  rw [piecesFrom]
  split
  · rfl
  · simp_all

theorem piecesFrom_escaped {passed : List Char} {cs : List Char} {f : Found} (start : Nat)
    (found : next? cs = some f) (escaped : isEscaped (f.skipped ++ passed) = true) :
    piecesFrom passed start cs = .literal (f.skipped.reverse ++ ['{']) ::
      piecesFrom ['{'] (start + byteLength f.skipped + 1) f.opened := by
  rw [piecesFrom]
  split
  · simp_all
  · rename_i g again
    cases found.symm.trans again
    exact if_pos escaped

theorem piecesFrom_found {passed : List Char} {cs : List Char} {f : Found} (start : Nat)
    (found : next? cs = some f) (unescaped : isEscaped (f.skipped ++ passed) = false) :
    piecesFrom passed start cs = .literal f.skipped.reverse ::
      .placeholder (f.located (start + byteLength f.skipped)) ::
        piecesFrom ['}'] (start + byteLength f.skipped + byteLength f.matched) f.rest := by
  rw [piecesFrom]
  split
  · simp_all
  · rename_i g again
    cases found.symm.trans again
    exact if_neg (by simp [unescaped])

/-- No placeholder stands in front of the text it was read from. -/
theorem le_start_of_mem {passed : List Char} {start : Nat} {cs : List Char} {q : Located}
    (h : q ∈ placeholdersOf (piecesFrom passed start cs)) : start ≤ q.start := by
  fun_induction piecesFrom passed start cs with
  | case1 passed start cs _ => simp at h
  | case2 passed start cs f found here _ ih =>
    have := ih (by simpa using h)
    omega
  | case3 passed start cs f found here _ ih =>
    simp only [placeholdersOf_literal, placeholdersOf_placeholder, List.mem_cons] at h
    rcases h with rfl | h
    · simp only [Found.located]
      omega
    · have := ih h
      omega

/-- A placeholder covers something. -/
theorem start_lt_stop_of_mem {passed : List Char} {start : Nat} {cs : List Char} {q : Located}
    (h : q ∈ placeholdersOf (piecesFrom passed start cs)) : q.start < q.stop := by
  fun_induction piecesFrom passed start cs with
  | case1 passed start cs _ => simp at h
  | case2 passed start cs f found here _ ih => exact ih (by simpa using h)
  | case3 passed start cs f found here _ ih =>
    simp only [placeholdersOf_literal, placeholdersOf_placeholder, List.mem_cons] at h
    rcases h with rfl | h
    · have := byteLength_matched_pos f
      simp only [Found.located]
      omega
    · exact ih h

/-- A placeholder stands at the very start of a text only where nothing is passed over. -/
theorem skipped_eq_nil_of_mem {passed : List Char} {start : Nat} {cs : List Char} {q : Located}
    {f : Found} (found : next? cs = some f)
    (h : q ∈ placeholdersOf (piecesFrom passed start cs)) (here : q.start = start) :
    f.skipped = [] := by
  cases escaped : isEscaped (f.skipped ++ passed) with
  | true =>
    rw [piecesFrom_escaped start found escaped, placeholdersOf_literal] at h
    have := le_start_of_mem h
    omega
  | false =>
    rw [piecesFrom_found start found escaped, placeholdersOf_literal, placeholdersOf_placeholder,
      List.mem_cons] at h
    rcases h with rfl | h
    · simp only [Found.located] at here
      cases passedOver : f.skipped with
      | nil => rfl
      | cons c rest =>
        have : 0 < c.utf8Size := Char.utf8Size_pos c
        simp only [passedOver, byteLength_cons] at here
        omega
    · have := le_start_of_mem h
      have := byteLength_matched_pos f
      omega

/-! ## 3. What a callback gives for placeholders in order -/

/-- The texts for some items in order, and the failure that ended them. -/
structure Answers (ε : Type) where
  texts : List String
  failure : Option ε
  deriving Repr

/-- A callback asked for items one after another, up to its first failure. -/
def answers {α : Type} (ask : α → StateM σ (Except ε String)) : List α → StateM σ (Answers ε)
  | [] => pure ⟨[], none⟩
  | a :: rest => do
    match ← ask a with
    | .error e => pure ⟨[], some e⟩
    | .ok text => do
      let later ← answers ask rest
      pure { later with texts := text :: later.texts }

/-- The text of pieces with each placeholder replaced by a text, in order. -/
def weave : List Piece → List String → List Char
  | [], _ => []
  | .literal text :: ps, texts => text ++ weave ps texts
  | .placeholder _ :: ps, text :: texts => text.toList ++ weave ps texts
  | .placeholder _ :: _, [] => []

/-- A callback asked for the placeholders among pieces, one after another. -/
def answersTo (fill : Placeholder → StateM σ (Except ε String)) (ps : List Piece) :
    StateM σ (Answers ε) :=
  answers fill ((placeholdersOf ps).map Located.toPlaceholder)

/-- What the answers make of pieces: their text, unless there was a failure. -/
def Answers.outcome (a : Answers ε) (ps : List Piece) : Except ε (List Char) :=
  match a.failure with
  | some e => .error e
  | none => .ok (weave ps a.texts)

theorem map_map_except {α β γ : Type} (f : α → β) (g : β → γ) (x : Except ε α) :
    (x.map f).map g = x.map (g ∘ f) := by
  cases x <;> rfl

theorem Answers.outcome_literal (a : Answers ε) (text : List Char) (ps : List Piece) :
    a.outcome (.literal text :: ps) = (a.outcome ps).map (text ++ ·) := by
  unfold Answers.outcome
  cases a.failure <;> rfl

theorem Answers.outcome_placeholder (a : Answers ε) (text : String) (p : Located)
    (ps : List Piece) : { a with texts := text :: a.texts }.outcome (.placeholder p :: ps) =
      (a.outcome ps).map (text.toList ++ ·) := by
  unfold Answers.outcome
  cases a.failure <;> rfl

section
variable {α : Type} {ask : α → StateM σ (Except ε String)} {a : α} {rest : List α} {s s' : σ}

@[simp] theorem answers_nil : answers ask [] s = (⟨[], none⟩, s) := rfl

theorem answers_error {e : ε} (h : ask a s = (.error e, s')) :
    answers ask (a :: rest) s = (⟨[], some e⟩, s') := by
  simp [answers, bind, StateT.bind, h, pure, StateT.pure]

theorem answers_ok {text : String} (h : ask a s = (.ok text, s')) :
    answers ask (a :: rest) s =
      ({ (answers ask rest s').1 with texts := text :: (answers ask rest s').1.texts },
        (answers ask rest s').2) := by
  simp only [answers, bind, StateT.bind, h, pure, StateT.pure]
  rfl

theorem answersTo_literal {fill : Placeholder → StateM σ (Except ε String)} (text : List Char)
    (ps : List Piece) : answersTo fill (.literal text :: ps) = answersTo fill ps := rfl

theorem answersTo_error {fill : Placeholder → StateM σ (Except ε String)} {p : Located}
    {ps : List Piece} {e : ε} (h : fill p.toPlaceholder s = (.error e, s')) :
    answersTo fill (.placeholder p :: ps) s = (⟨[], some e⟩, s') := answers_error h

theorem answersTo_ok {fill : Placeholder → StateM σ (Except ε String)} {p : Located}
    {ps : List Piece} {text : String} (h : fill p.toPlaceholder s = (.ok text, s')) :
    answersTo fill (.placeholder p :: ps) s =
      ({ (answersTo fill ps s').1 with texts := text :: (answersTo fill ps s').1.texts },
        (answersTo fill ps s').2) := answers_ok h

end

/-! ## 4. The steps of a walk -/

section
variable {copies : Copies} {fill : Placeholder → StateM σ (Except ε String)} {steps : Nat}
  {passed cs : List Char} {f : Found} {s s' : σ}

theorem spliceFrom_none (found : next? cs = none) :
    spliceFrom copies fill (steps + 1) ⟨passed, cs⟩ s =
      (some (.ok (passed.reverse ++ cs)), s) := by
  simp [spliceFrom, found, Cursor.text, pure, StateT.pure]

theorem spliceFrom_escaped (found : next? cs = some f)
    (escaped : isEscaped (f.skipped ++ passed) = true) :
    spliceFrom copies fill (steps + 1) ⟨passed, cs⟩ s =
      spliceFrom copies fill steps ⟨'{' :: (f.skipped ++ passed), f.opened⟩ s := by
  simp [spliceFrom, found, escaped]

theorem spliceFrom_error {e : ε} (found : next? cs = some f)
    (unescaped : isEscaped (f.skipped ++ passed) = false)
    (filled : fill f.placeholder s = (.error e, s')) :
    spliceFrom copies fill (steps + 1) ⟨passed, cs⟩ s = (some (.error e), s') := by
  simp [spliceFrom, found, unescaped, bind, StateT.bind, filled, pure, StateT.pure]

theorem spliceFrom_ok {text : String} (found : next? cs = some f)
    (unescaped : isEscaped (f.skipped ++ passed) = false)
    (filled : fill f.placeholder s = (.ok text, s')) :
    spliceFrom copies fill (steps + 1) ⟨passed, cs⟩ s =
      spliceFrom copies fill steps
        ⟨text.toList.reverse ++ (f.skipped ++ passed), restAfter copies f text.toList⟩ s' := by
  simp [spliceFrom, found, unescaped, bind, StateT.bind, filled]

end

/-- Each step passes an opening brace. -/
theorem count_opened_lt {cs : List Char} {f : Found} (found : next? cs = some f) :
    f.opened.count '{' < cs.count '{' := by
  have whole := congrArg (List.count '{') (next?_eq_some found).1
  simp only [List.count_append, List.count_cons_self] at whole
  omega

theorem count_rest_lt {cs : List Char} {f : Found} (found : next? cs = some f) :
    f.rest.count '{' < cs.count '{' := by
  have inside := (next?_eq_some found).2.sublist.count_le '{'
  have := count_opened_lt found
  rw [List.count_cons_of_ne (by decide)] at inside
  omega

/-! ## 5. Copies behind a placeholder -/

/-- A text has a copy in another one that no backslash precedes.  Copies are looked for from left to
right and do not overlap; `escaped` says whether a backslash stands in front. -/
def hasCopy (needle : List Char) (escaped : Bool) : List Char → Bool
  | [] => false
  | c :: rest =>
    if needle.isPrefixOf (c :: rest) then
      !escaped || hasCopy needle false (rest.drop (needle.length - 1))
    else hasCopy needle (c == '\\') rest
termination_by cs => cs.length
decreasing_by all_goals simp only [List.length_drop, List.length_cons]; omega

/-- A text that starts with a needle is the needle and what is left behind it. -/
theorem eq_append_drop {needle : List Char} {c : Char} {rest : List Char} (nonempty : needle ≠ [])
    (h : needle.isPrefixOf (c :: rest) = true) :
    c :: rest = needle ++ rest.drop (needle.length - 1) := by
  obtain ⟨tail, eq⟩ := List.isPrefixOf_iff_prefix.1 h
  cases needle with
  | nil => exact absurd rfl nonempty
  | cons d needle =>
    obtain ⟨rfl, rfl⟩ := List.cons.inj (eq : d :: (needle ++ tail) = c :: rest)
    simp

theorem replaceCopies_of_not_hasCopy {needle : List Char} (replacement : List Char)
    (nonempty : needle ≠ []) {escaped : Bool} (passed : List Char) {cs : List Char}
    (h : hasCopy needle escaped cs = false) :
    replaceCopies needle replacement escaped passed cs = passed.reverse ++ cs := by
  fun_induction hasCopy needle escaped cs generalizing passed with
  | case1 escaped => simp [replaceCopies]
  | case2 escaped c rest starts ih =>
    simp only [Bool.or_eq_false_iff, Bool.not_eq_false'] at h
    obtain ⟨rfl, h⟩ := h
    rw [replaceCopies, if_pos starts, if_pos rfl, ih _ h, eq_append_drop nonempty starts]
    simp
  | case3 escaped c rest other ih =>
    rw [replaceCopies, if_neg (by simp [other]), ih _ h]
    simp

/-- The text of pieces as they are written. -/
def asWritten (ps : List Piece) : List Char := assemble (fun p => p.matched.toList) ps

theorem asWritten_piecesFrom (passed : List Char) (start : Nat) (cs : List Char) :
    asWritten (piecesFrom passed start cs) = cs := assemble_piecesFrom passed start cs

/-- No placeholder of the pieces has a copy of its text behind it. -/
def Unrepeated (ps : List Piece) : Prop :=
  ∀ p later, .placeholder p :: later <:+ ps →
    hasCopy p.matched.toList false (asWritten later) = false

theorem unrepeated_literal {text : List Char} {ps : List Piece} :
    Unrepeated (.literal text :: ps) ↔ Unrepeated ps := by
  constructor
  · intro h p later inside
    exact h p later (inside.trans (List.suffix_cons _ _))
  · intro h p later inside
    rcases List.suffix_cons_iff.1 inside with same | inside
    · cases same
    · exact h p later inside

theorem unrepeated_placeholder {p : Located} {ps : List Piece} :
    Unrepeated (.placeholder p :: ps) ↔
      hasCopy p.matched.toList false (asWritten ps) = false ∧ Unrepeated ps := by
  constructor
  · intro h
    exact ⟨h p ps (List.suffix_refl _), fun q later inside =>
      h q later (inside.trans (List.suffix_cons _ _))⟩
  · rintro ⟨alone, h⟩ q later inside
    rcases List.suffix_cons_iff.1 inside with same | inside
    · cases same
      exact alone
    · exact h q later inside

theorem restAfter_eq_rest {copies : Copies} {f : Found} (text : List Char)
    (alone : copies = .all → hasCopy f.matched false f.rest = false) :
    restAfter copies f text = f.rest := by
  cases copies with
  | one => rfl
  | all => exact replaceCopies_of_not_hasCopy text (List.cons_ne_nil _ _) [] (alone rfl)

/-! ## 6. A walk that takes the placeholders of the template -/

/-- Two texts in front of a text decide alike whether its first placeholder is escaped. -/
def Agrees (cs passed passed' : List Char) : Prop :=
  ∀ f, next? cs = some f → isEscaped (f.skipped ++ passed) = isEscaped (f.skipped ++ passed')

theorem Agrees.escaped {cs passed passed' : List Char} {f : Found}
    (agrees : Agrees cs passed passed') (found : next? cs = some f)
    (escaped : isEscaped (f.skipped ++ passed) = true) :
    isEscaped (f.skipped ++ passed') = true := agrees f found ▸ escaped

theorem Agrees.unescaped {cs passed passed' : List Char} {f : Found}
    (agrees : Agrees cs passed passed') (found : next? cs = some f)
    (unescaped : ¬ isEscaped (f.skipped ++ passed) = true) :
    isEscaped (f.skipped ++ passed') = false :=
  agrees f found ▸ Bool.eq_false_iff.2 unescaped

theorem agrees_of_eq {cs passed passed' : List Char} (h : isEscaped passed = isEscaped passed') :
    Agrees cs passed passed' := fun f _ => isEscaped_append_congr f.skipped h

/-- No text that ends with a backslash is directly followed by a placeholder. -/
def Clear (ps : List Located) (texts : List String) : Prop :=
  ∀ pt ∈ ps.zip texts, EndsInBackslash pt.2 → ∀ q ∈ ps, q.start ≠ pt.1.stop

theorem Clear.tail {p : Located} {ps : List Located} {text : String} {texts : List String}
    (h : Clear (p :: ps) (text :: texts)) : Clear ps texts :=
  fun pt mem ends q inside =>
    h pt (List.mem_cons_of_mem _ mem) ends q (List.mem_cons_of_mem _ inside)

/-- Behind a text the walk goes on as the template does behind the placeholder. -/
theorem agrees_behind {f : Found} {passed : List Char} {text : String} (start : Nat)
    (unescaped : isEscaped (f.skipped ++ passed) = false)
    (clear : EndsInBackslash text → ∀ q ∈ placeholdersOf (piecesFrom ['}'] start f.rest),
      q.start ≠ start) :
    Agrees f.rest ['}'] (text.toList.reverse ++ (f.skipped ++ passed)) := by
  intro g found
  by_cases passedOver : g.skipped = []
  · have unescaped' : isEscaped (g.skipped ++ ['}']) = false := by simp [passedOver]
    rw [unescaped', passedOver, List.nil_append]
    refine ((Bool.eq_false_iff).2 fun escaped => ?_).symm
    refine clear ((isEscaped_inserted text unescaped).1 escaped) (g.located start) ?_ rfl
    rw [piecesFrom_found start found unescaped']
    simp [passedOver]
  · rw [isEscaped_append _ passedOver, isEscaped_append _ passedOver]

/-- **The walk is what the callback gives for the placeholders of the template**, woven into its
pieces.  `passed` and `passed'` stand in front of the text in the template and in the walk. -/
theorem spliceFrom_eq_answers {copies : Copies} {fill : Placeholder → StateM σ (Except ε String)}
    {passed passed' : List Char} {start : Nat} {cs : List Char} {steps : Nat} {s : σ}
    (agrees : Agrees cs passed passed') (enough : cs.count '{' < steps)
    (unrepeated : copies = .all → Unrepeated (piecesFrom passed start cs))
    (clear : Clear (placeholdersOf (piecesFrom passed start cs))
      (answersTo fill (piecesFrom passed start cs) s).1.texts) :
    spliceFrom copies fill steps ⟨passed', cs⟩ s =
      (some (((answersTo fill (piecesFrom passed start cs) s).1.outcome
          (piecesFrom passed start cs)).map (passed'.reverse ++ ·)),
        (answersTo fill (piecesFrom passed start cs) s).2) := by
  fun_induction piecesFrom passed start cs generalizing passed' steps s with
  | case1 passed start cs found =>
    obtain ⟨steps, rfl⟩ := Nat.exists_eq_add_of_lt enough
    rw [spliceFrom_none found]
    simp [answersTo, Answers.outcome, weave, Except.map]
  | case2 passed start cs f found here escaped =>
    rename_i ih
    obtain ⟨steps, rfl⟩ := Nat.exists_eq_add_of_lt enough
    have escaped' := agrees.escaped found escaped
    have fewer := count_opened_lt found
    rw [spliceFrom_escaped found escaped', answersTo_literal]
    rw [answersTo_literal] at clear
    rw [ih (agrees_of_eq (by simp)) (by omega)
      (fun all => unrepeated_literal.1 (unrepeated all)) clear]
    rw [Answers.outcome_literal, map_map_except]
    congr 4
    funext later
    simp
  | case3 passed start cs f found here unescaped =>
    rename_i ih
    obtain ⟨steps, rfl⟩ := Nat.exists_eq_add_of_lt enough
    have unescaped' := agrees.unescaped found unescaped
    have fewer := count_rest_lt found
    rw [answersTo_literal] at clear ⊢
    cases filled : fill f.placeholder s with
    | mk result s' =>
      cases result with
      | error e =>
        rw [spliceFrom_error found unescaped' filled, answersTo_error filled]
        simp [Answers.outcome, Except.map]
      | ok text =>
        rw [spliceFrom_ok found unescaped' filled]
        rw [answersTo_ok filled] at clear ⊢
        simp only [placeholdersOf_literal, placeholdersOf_placeholder] at clear
        have behind := clear (f.located here, text) (List.mem_cons_self ..)
        have agrees' := agrees_behind _ unescaped' fun ends q inside =>
          behind ends q (List.mem_cons_of_mem _ inside)
        simp only [unrepeated_literal, unrepeated_placeholder, asWritten_piecesFrom,
          Found.located, f.toList_matched_placeholder] at unrepeated
        rw [restAfter_eq_rest text.toList fun all => (unrepeated all).1,
          ih agrees' (by omega) (fun all => (unrepeated all).2) clear.tail]
        rw [Answers.outcome_literal, Answers.outcome_placeholder, map_map_except, map_map_except]
        congr 4
        funext later
        simp

/-- The walk over a whole template. -/
theorem splice_eq_answers {copies : Copies} {fill : Placeholder → StateM σ (Except ε String)}
    {template : String} {steps : Nat} {s : σ} (enough : ownSteps template ≤ steps)
    (unrepeated : copies = .all → Unrepeated (pieces template.toList))
    (clear : Clear (placeholders template.toList)
      (answersTo fill (pieces template.toList) s).1.texts) :
    splice copies fill steps template s =
      (some (((answersTo fill (pieces template.toList) s).1.outcome
          (pieces template.toList)).map String.ofList),
        (answersTo fill (pieces template.toList) s).2) := by
  have agrees : Agrees template.toList [] [] := agrees_of_eq rfl
  have walk := spliceFrom_eq_answers agrees (Nat.lt_of_succ_le enough) unrepeated clear
  simp only [splice, bind, StateT.bind, walk, Option.map_some, map_map_except]
  rfl

end Template

end Stencil
