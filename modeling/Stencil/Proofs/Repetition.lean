/-
# Placeholders that stand several times

A walk that replaces copies asks for a placeholder once and writes the text to all its places, those
behind it before the walk has come to them.  So what is left to search is the template with some of
its placeholders already replaced, and this file follows such a walk through pieces:

* `Settled`: pieces in which every brace is behind a backslash or opens a placeholder that is found
  wherever it stands.  Texts without opening braces keep it so (`Settled.fillIn`).
* `replaceCopies_asWritten`: in settled pieces the copies of a placeholder are the pieces with its
  text.  A copy behind a backslash may go across pieces, and it is passed without a change.
* `spliceFrom_settled`: the walk asks once for each text among the placeholders.
* `splice_all_eq_assemble`: where all braces of a template count, that is the whole walk.
-/
import Stencil.Proofs.Positional
import Stencil.Proofs.Rescan

namespace Stencil.Template

open Stencil.Text

variable {σ ε : Type}

/-! ## 1. Settled pieces -/

/-- Each opening brace of a text is behind a backslash; `escaped` says whether a backslash stands in
front of the text. -/
def Guarded : Bool → List Char → Prop
  | _, [] => True
  | escaped, c :: cs => (c = '{' → escaped = true) ∧ Guarded (c == '\\') cs

/-- Pieces whose opening braces are all behind a backslash or open a placeholder that is found
wherever it stands. -/
def Settled : Bool → List Piece → Prop
  | _, [] => True
  | escaped, .literal text :: ps => Guarded escaped text ∧ Settled (escapedBehind escaped text) ps
  | escaped, .placeholder p :: ps => escaped = false ∧ Closed p.toPlaceholder ∧ Settled false ps

/-- Pieces with a text in the places of a placeholder and its copies. -/
def fillIn (matched : String) (text : List Char) : List Piece → List Piece
  | [] => []
  | .literal t :: ps => .literal t :: fillIn matched text ps
  | .placeholder p :: ps =>
    (if p.matched = matched then .literal text else .placeholder p) :: fillIn matched text ps

theorem guarded_of_forall {escaped : Bool} {cs : List Char}
    (behind : ∀ before after, cs = before ++ '{' :: after → escapedBehind escaped before = true) :
    Guarded escaped cs := by
  induction cs generalizing escaped with
  | nil => trivial
  | cons c cs ih =>
    refine ⟨fun brace => behind [] cs (by rw [brace]; rfl), ih fun before after split => ?_⟩
    rw [← escapedBehind_cons escaped c]
    exact behind (c :: before) after (by rw [split]; rfl)

theorem guarded_of_not_mem {escaped : Bool} {cs : List Char} (without : '{' ∉ cs) :
    Guarded escaped cs :=
  guarded_of_forall fun before after split => absurd (by simp [split]) without

@[simp] theorem length_fillIn (matched : String) (text : List Char) (ps : List Piece) :
    (fillIn matched text ps).length = ps.length := by
  fun_induction fillIn matched text ps <;> simp_all

/-- The placeholders that are left are those with another text. -/
theorem placeholdersOf_fillIn (matched : String) (text : List Char) (ps : List Piece) :
    placeholdersOf (fillIn matched text ps) =
      (placeholdersOf ps).filter fun p => p.matched ≠ matched := by
  fun_induction fillIn matched text ps with
  | case1 => rfl
  | case2 t ps ih => simpa using ih
  | case3 p ps ih =>
    split
    · rename_i same
      simpa [same] using ih
    · rename_i other
      simpa [other] using ih

/-- Filling in the text of a placeholder is nothing new to who gives that text to it anyway. -/
theorem assemble_fillIn (text : String → List Char) (matched : String) (ps : List Piece) :
    assemble (fun p => text p.matched) (fillIn matched (text matched) ps) =
      assemble (fun p => text p.matched) ps := by
  unfold assemble
  fun_induction fillIn matched (text matched) ps with
  | case1 => rfl
  | case2 t ps ih => simpa using ih
  | case3 p ps ih =>
    split
    · rename_i same
      simpa [Piece.text, same] using ih
    · simpa using ih

/-- A text without opening braces that does not end with a backslash can be filled in. -/
theorem Settled.fillIn {escaped : Bool} {ps : List Piece} (h : Settled escaped ps)
    (matched : String) {text : List Char} (without : '{' ∉ text)
    (unescaping : escapedBehind false text = false) : Settled escaped (fillIn matched text ps) := by
  fun_induction Template.fillIn matched text ps generalizing escaped with
  | case1 => trivial
  | case2 t ps ih => exact ⟨h.1, ih h.2⟩
  | case3 p ps ih =>
    obtain ⟨rfl, closed, later⟩ := h
    split
    · refine ⟨guarded_of_not_mem without, ?_⟩
      rw [unescaping]
      exact ih later
    · exact ⟨rfl, closed, ih later⟩

/-! ## 2. Copies in settled pieces -/

/-- The text of a closed placeholder: its opening brace, and no other one behind it. -/
theorem Closed.eq_cons {p : Placeholder} (closed : Closed p) :
    ∃ tail, p.matched.toList = '{' :: tail ∧ '{' ∉ tail ∧ tail.getLast? = some '}' := by
  obtain ⟨inner, shape, free⟩ := closed.shape
  refine ⟨inner ++ ['}'], shape, fun mem => ?_, by simp⟩
  rcases List.mem_append.1 mem with inside | last
  · exact absurd (free _ inside) (by decide)
  · simp at last

/-- Of two closed placeholders one starts where the other one stands only if they are copies. -/
theorem Closed.matched_eq {p q : Placeholder} (closed : Closed p) (closed' : Closed q)
    {rest : List Char} (starts : p.matched.toList <+: q.matched.toList ++ rest) :
    q.matched = p.matched := by
  obtain ⟨inner, shape, free⟩ := closed.shape
  obtain ⟨inner', shape', free'⟩ := closed'.shape
  obtain ⟨tail, whole⟩ := starts
  have stops : ∀ cs, Stops Written.isInner ('}' :: cs) := fun cs => stops_cons.2 (by decide)
  have runs := congrArg (fun cs => (cs.drop 1).takeWhile Written.isInner) whole
  simp only [shape, shape', List.cons_append, List.append_assoc, List.drop_one, List.tail_cons,
    List.nil_append, takeWhile_append_of_stops free (stops _),
    takeWhile_append_of_stops free' (stops _)] at runs
  exact String.toList_injective (by rw [shape, shape', runs])

section
variable {p : Placeholder} (closed : Closed p) {replacement : List Char}
include closed

/-- An escaped copy is passed as a whole, which is no more than passing its brace. -/
theorem replaceCopies_escaped (cs : List Char) :
    replaceCopies p.matched.toList replacement true [] ('{' :: cs) =
      '{' :: replaceCopies p.matched.toList replacement false [] cs := by
  obtain ⟨tail, cons, without, last⟩ := closed.eq_cons
  by_cases starts : p.matched.toList.isPrefixOf ('{' :: cs) = true
  · have whole := eq_append_drop (by simp [cons]) starts
    rw [replaceCopies_copy starts, if_pos rfl]
    generalize cs.drop (p.matched.toList.length - 1) = rest at whole ⊢
    rw [cons, List.cons_append, List.cons_inj_right] at whole
    rw [whole, replaceCopies_append (by simp [cons]) without, escapedBehind_of_closing last]
    simp [cons]
  · rw [replaceCopies_other starts]
    rfl

/-- In guarded text nothing is replaced. -/
theorem replaceCopies_guarded {escaped : Bool} {text : List Char} (guarded : Guarded escaped text)
    (cs : List Char) : replaceCopies p.matched.toList replacement escaped [] (text ++ cs) =
      text ++ replaceCopies p.matched.toList replacement (escapedBehind escaped text) [] cs := by
  obtain ⟨tail, cons, -⟩ := closed.eq_cons
  induction text generalizing escaped with
  | nil => rfl
  | cons c text ih =>
    obtain ⟨here, later⟩ := guarded
    rw [escapedBehind_cons, List.cons_append]
    by_cases brace : c = '{'
    · have noSlash : ('{' == '\\') = false := rfl
      rw [brace, noSlash] at later ⊢
      rw [here brace, replaceCopies_escaped closed, ih later]
      rfl
    · have other : ¬ p.matched.toList.isPrefixOf (c :: (text ++ cs)) = true := by
        simp [cons, Ne.symm brace]
      rw [replaceCopies_other other, ih later]
      rfl

/-- The copy in front is replaced. -/
theorem replaceCopies_append_copy (cs : List Char) :
    replaceCopies p.matched.toList replacement false [] (p.matched.toList ++ cs) =
      replacement ++ replaceCopies p.matched.toList replacement false [] cs := by
  obtain ⟨tail, cons, -⟩ := closed.eq_cons
  have starts : p.matched.toList.isPrefixOf ('{' :: (tail ++ cs)) = true := by simp [cons]
  have whole := eq_append_drop (by simp [cons]) starts
  rw [← List.cons_append, ← cons] at whole
  conv_lhs => rw [cons, List.cons_append, ← cons, replaceCopies_copy starts,
    ← List.append_cancel_left whole]
  rfl

/-- A closed placeholder with another text in front stays. -/
theorem replaceCopies_append_other {q : Placeholder} (closed' : Closed q)
    (other : q.matched ≠ p.matched) (cs : List Char) :
    replaceCopies p.matched.toList replacement false [] (q.matched.toList ++ cs) =
      q.matched.toList ++ replaceCopies p.matched.toList replacement false [] cs := by
  obtain ⟨tail, cons, -⟩ := closed.eq_cons
  obtain ⟨tail', cons', without, last⟩ := closed'.eq_cons
  have noStart : ¬ p.matched.toList.isPrefixOf (q.matched.toList ++ cs) = true := fun starts =>
    other (closed.matched_eq closed' (List.isPrefixOf_iff_prefix.1 starts))
  rw [cons', List.cons_append] at noStart ⊢
  rw [replaceCopies_other noStart, replaceCopies_append (by simp [cons]) without,
    escapedBehind_of_closing last]
  rfl

/-- **In settled pieces the copies of a placeholder are the pieces with its text.** -/
theorem replaceCopies_asWritten (text : List Char) {escaped : Bool} {ps : List Piece}
    (settled : Settled escaped ps) :
    replaceCopies p.matched.toList text escaped [] (asWritten ps) =
      asWritten (fillIn p.matched text ps) := by
  have literal : ∀ t qs, asWritten (.literal t :: qs) = t ++ asWritten qs := fun _ _ => rfl
  have placeholder : ∀ q qs, asWritten (.placeholder q :: qs) = q.matched.toList ++ asWritten qs :=
    fun _ _ => rfl
  fun_induction fillIn p.matched text ps generalizing escaped with
  | case1 => simp [asWritten, assemble, replaceCopies]
  | case2 t ps ih =>
    rw [literal, literal, replaceCopies_guarded closed settled.1, ih settled.2]
  | case3 q ps ih =>
    obtain ⟨rfl, closed', later⟩ := settled
    split
    · rename_i same
      rw [placeholder, literal, same, replaceCopies_append_copy closed, ih later]
    · rename_i other
      rw [placeholder, placeholder, replaceCopies_append_other closed closed' other, ih later]

end

/-! ## 3. The walk -/

theorem nextFrom_eq_map (skipped cs : List Char) : nextFrom skipped cs =
    (next? cs).map fun f => { f with skipped := f.skipped ++ skipped } := by
  unfold next?
  suffices h : ∀ front, nextFrom (front ++ skipped) cs =
      (nextFrom front cs).map fun f => { f with skipped := f.skipped ++ skipped } from h []
  intro front
  induction cs generalizing front with
  | nil => rfl
  | cons c cs ih =>
    rw [nextFrom, nextFrom]
    split
    · rfl
    · exact ih (c :: front)

section
variable {copies : Copies} {fill : Placeholder → StateM σ (Except ε String)} {steps : Nat}
  {passed cs : List Char} {s : σ}

/-- A character that opens no placeholder is passed. -/
theorem spliceFrom_cons {c : Char} (missing : Grammar.recognise? (c :: cs) = none) :
    spliceFrom copies fill steps ⟨passed, c :: cs⟩ s =
      spliceFrom copies fill steps ⟨c :: passed, cs⟩ s := by
  cases steps with
  | zero => rfl
  | succ steps =>
    have next : next? (c :: cs) =
        (next? cs).map fun f => { f with skipped := f.skipped ++ [c] } := by
      rw [← nextFrom_eq_map]
      unfold next?
      rw [nextFrom, missing]
    simp only [spliceFrom, next]
    cases next? cs with
    | none => simp [Cursor.text]
    | some f => simp only [Option.map_some, List.append_assoc, List.singleton_append]; rfl

/-- Guarded text is passed without a question. -/
theorem spliceFrom_guarded {text : List Char} (guarded : Guarded (isEscaped passed) text)
    (enough : (text ++ cs).count '{' < steps) :
    ∃ steps', cs.count '{' < steps' ∧ spliceFrom copies fill steps ⟨passed, text ++ cs⟩ s =
      spliceFrom copies fill steps' ⟨text.reverse ++ passed, cs⟩ s := by
  induction text generalizing passed steps with
  | nil => exact ⟨steps, enough, rfl⟩
  | cons c text ih =>
    obtain ⟨here, later⟩ := guarded
    rw [← isEscaped_cons c passed] at later
    rw [List.cons_append, List.count_cons] at enough
    cases recognised : Grammar.recognise? (c :: (text ++ cs)) with
    | none =>
      obtain ⟨steps', left, walk⟩ := @ih steps (c :: passed) later (by omega)
      exact ⟨steps', left, by rw [List.cons_append, spliceFrom_cons recognised, walk]; simp⟩
    | some found =>
      obtain ⟨inner, split⟩ := Grammar.recognise?_eq_some recognised
      obtain ⟨rfl, -⟩ := List.cons.inj split
      have next : next? ('{' :: (text ++ cs)) = some ⟨[], found.1, text ++ cs, found.2⟩ := by
        unfold next? nextFrom
        rw [recognised]
      cases steps with
      | zero => omega
      | succ steps =>
        rw [if_pos (by decide)] at enough
        obtain ⟨steps', left, walk⟩ := @ih steps ('{' :: passed) later (by omega)
        refine ⟨steps', left, ?_⟩
        rw [List.cons_append, spliceFrom_escaped next (here rfl), List.nil_append, walk]
        simp

end

/-- What a callback makes of the state when it is asked for placeholders in order. -/
def tell (fill : Placeholder → StateM σ (Except ε String)) (ps : List Placeholder) (s : σ) : σ :=
  ps.foldl (fun s p => (fill p s).2) s

/-- The placeholders of pieces, of those with the same text the first one. -/
def firsts (ps : List Piece) : List Placeholder :=
  ((placeholdersOf ps).map Located.toPlaceholder).eraseDupsBy fun p q => p.matched == q.matched

theorem firsts_literal (text : List Char) (ps : List Piece) :
    firsts (.literal text :: ps) = firsts ps := rfl

/-- Behind a placeholder its copies do not matter any more. -/
theorem firsts_placeholder (p : Located) (text : List Char) (ps : List Piece) :
    firsts (.placeholder p :: ps) = p.toPlaceholder :: firsts (fillIn p.matched text ps) := by
  have same : ((fun q : Placeholder => decide ((q.matched == p.matched) = false)) ∘
      Located.toPlaceholder) = fun q : Located => decide (q.matched ≠ p.matched) := by
    funext q
    simp
  unfold firsts
  rw [placeholdersOf_placeholder, List.map_cons, List.eraseDupsBy_cons, placeholdersOf_fillIn,
    List.filter_map, same]

section
variable {fill : Placeholder → StateM σ (Except ε String)} {text : String → String}
  (answers : ∀ p s, (fill p s).1 = .ok (text p.matched))
  (plain : ∀ matched, '{' ∉ (text matched).toList ∧ ¬ EndsInBackslash (text matched))
include answers plain

/-- **A walk over settled pieces asks once for each text among the placeholders**, in the order in
which they come first, and puts the answers in all their places. -/
theorem spliceFrom_settled {ps : List Piece} {passed : List Char} {steps : Nat} {s : σ}
    (settled : Settled (isEscaped passed) ps) (enough : (asWritten ps).count '{' < steps) :
    spliceFrom .all fill steps ⟨passed, asWritten ps⟩ s =
      (some (.ok (passed.reverse ++ assemble (fun p => (text p.matched).toList) ps)),
        tell fill (firsts ps) s) := by
  -- a step may fill in later pieces, but it does not change their number
  induction size : ps.length generalizing ps passed steps s with
  | zero =>
    obtain rfl := List.length_eq_zero_iff.1 size
    obtain ⟨steps, rfl⟩ := Nat.exists_eq_add_of_lt enough
    rw [spliceFrom_none (show next? (asWritten []) = none from rfl)]
    rfl
  | succ n ih =>
    cases ps with
    | nil => cases size
    | cons piece ps =>
      have fewer : ps.length = n := Nat.succ.inj size
      cases piece with
      | literal t =>
        have shape : asWritten (.literal t :: ps) = t ++ asWritten ps := rfl
        rw [shape] at enough ⊢
        obtain ⟨steps', left, walk⟩ :=
          @spliceFrom_guarded σ ε .all fill steps passed (asWritten ps) s t settled.1 enough
        have later : Settled (isEscaped (t.reverse ++ passed)) ps := by
          rw [isEscaped_reverse_append]
          exact settled.2
        rw [walk, ih later left fewer, firsts_literal]
        simp [assemble, Piece.text]
      | placeholder p =>
        obtain ⟨unescaped, closed, later⟩ := settled
        obtain ⟨f, found, skipped, rest, same⟩ := closed.found (asWritten ps)
        obtain ⟨without, unescaping⟩ := plain p.matched
        have behind := escapedBehind_of_not_endsInBackslash unescaping
        have filled : fill f.placeholder s =
            (.ok (text p.matched), (fill p.toPlaceholder s).2) := by
          rw [same]
          exact Prod.ext (answers p.toPlaceholder s) rfl
        have left : restAfter .all f (text p.matched).toList =
            asWritten (fillIn p.matched (text p.matched).toList ps) := by
          have needle : f.matched = p.matched.toList := by
            rw [← f.toList_matched_placeholder, same]
          rw [restAfter, needle, rest, replaceCopies_asWritten closed _ later]
        have shape : asWritten (.placeholder p :: ps) = p.matched.toList ++ asWritten ps := rfl
        have opening : '{' ∈ p.matched.toList := by
          obtain ⟨tail, cons, -⟩ := closed.eq_cons
          simp [cons]
        have bounded := @count_replaceCopies_le p.matched.toList (text p.matched).toList false
          (asWritten ps) opening (by simp [List.count_eq_zero.2 without])
        have one : 1 ≤ p.matched.toList.count '{' := List.count_pos_iff.2 opening
        have settled' := later.fillIn p.matched without behind
        rw [replaceCopies_asWritten closed _ later] at bounded
        rw [shape] at enough ⊢
        rw [List.count_append] at enough
        obtain ⟨steps, rfl⟩ := Nat.exists_eq_add_of_lt enough
        rw [spliceFrom_ok found (by rwa [skipped]) filled, left, skipped, List.nil_append,
          ih (by rwa [isEscaped_reverse_append, unescaped, behind]) (by omega) (by simpa),
          assemble_fillIn (fun m => (text m).toList), firsts_placeholder p (text p.matched).toList]
        simp [assemble, Piece.text, tell]

end

/-! ## 4. Templates in which all braces count -/

/-- Each opening brace of a template is behind a backslash or opens a placeholder. -/
def Covered (cs : List Char) : Prop :=
  ∀ before after, cs = before ++ '{' :: after →
    before.getLast? = some '\\' ∨ ∃ p ∈ placeholders cs, p.start = byteLength before

theorem covered_iff (cs : List Char) : Covered cs ↔ ∀ i < cs.length, cs[i]? = some '{' →
    (cs.take i).getLast? = some '\\' ∨
      ∃ p ∈ placeholders cs, p.start = byteLength (cs.take i) := by
  constructor
  · intro covered i inside brace
    refine covered (cs.take i) (cs.drop (i + 1)) ?_
    obtain ⟨_, here⟩ := List.getElem?_eq_some_iff.1 brace
    rw [← here, ← List.drop_eq_getElem_cons, List.take_append_drop]
  · intro check before after split
    have inside : before.length < cs.length := by simp [split]
    have here := check before.length inside (by simp [split])
    rwa [show cs.take before.length = before by simp [split]] at here

instance : DecidablePred Covered := fun cs => decidable_of_iff _ (covered_iff cs).symm

/-- Literal text in front of the next piece is guarded if no placeholder starts in it. -/
theorem guarded_of_covered {passed : List Char} {start : Nat} {cs text after : List Char}
    {ps : List Located}
    (covered : ∀ before after, cs = before ++ '{' :: after →
      isEscaped (before.reverse ++ passed) = true ∨ ∃ p ∈ ps, p.start = start + byteLength before)
    (split : cs = text ++ after) (later : ∀ p ∈ ps, start + byteLength text ≤ p.start) :
    Guarded (isEscaped passed) text := by
  refine guarded_of_forall fun before inside eq => ?_
  rw [← isEscaped_reverse_append]
  refine (covered before (inside ++ after) (by simp [split, eq])).resolve_right ?_
  rintro ⟨p, mem, here⟩
  have behind := later p mem
  have positive : 0 < ('{' : Char).utf8Size := Char.utf8Size_pos _
  rw [eq, byteLength_append, byteLength_cons] at behind
  omega

/-- The pieces of such a text are settled. -/
theorem settled_piecesFrom {passed : List Char} {start : Nat} {cs : List Char}
    (bare : ∀ p ∈ placeholdersOf (piecesFrom passed start cs), '(' ∉ p.matched.toList)
    (covered : ∀ before after, cs = before ++ '{' :: after →
      isEscaped (before.reverse ++ passed) = true ∨
        ∃ p ∈ placeholdersOf (piecesFrom passed start cs), p.start = start + byteLength before) :
    Settled (isEscaped passed) (piecesFrom passed start cs) := by
  fun_induction piecesFrom passed start cs with
  | case1 passed start cs missing =>
    exact ⟨guarded_of_covered covered (List.append_nil cs).symm (by simp), trivial⟩
  | case2 passed start cs f found here escaped ih =>
    have whole := (next?_eq_some found).1
    have front : cs = (f.skipped.reverse ++ ['{']) ++ f.opened := by simpa using whole
    refine ⟨guarded_of_covered covered front fun p mem => ?_, ?_⟩
    · have := le_start_of_mem (placeholdersOf_literal _ _ ▸ mem)
      simp only [byteLength_append, byteLength_reverse, byteLength_cons, byteLength_nil,
        utf8Size_brace]
      omega
    · rw [escapedBehind_brace]
      refine ih (by simpa using bare) fun before after split => ?_
      rcases covered (f.skipped.reverse ++ '{' :: before) after (by simp [whole, split])
        with escapes | ⟨p, mem, place⟩
      · exact .inl ((isEscaped_behind_brace ..).symm.trans escapes)
      · refine .inr ⟨p, by simpa using mem, ?_⟩
        simp only [byteLength_append, byteLength_reverse, byteLength_cons, utf8Size_brace] at place
        omega
  | case3 passed start cs f found here unescaped ih =>
    have whole := (next?_eq_some found).1
    have joined := Found.matched_append_rest (next?_eq_some found).2
    simp only [placeholdersOf_literal, placeholdersOf_placeholder] at bare covered
    refine ⟨guarded_of_covered covered whole fun p mem => ?_, ?_, ?_, ?_⟩
    · rw [byteLength_reverse]
      rcases List.mem_cons.1 mem with rfl | later
      · exact Nat.le_refl _
      · have := le_start_of_mem later
        omega
    · rw [← isEscaped_reverse_append, List.reverse_reverse]
      exact Bool.eq_false_iff.2 unescaped
    · refine closed_of_next? found ?_
      have := bare (f.located here) (List.mem_cons_self ..)
      rwa [← f.toList_matched_placeholder]
    · refine ih (fun p mem => bare p (List.mem_cons_of_mem _ mem)) fun before after split => ?_
      rcases covered (f.skipped.reverse ++ (f.matched ++ before)) after
        (by rw [whole, ← joined, split]; simp) with escapes | ⟨p, mem, place⟩
      · exact .inl ((isEscaped_behind_matched found before passed).symm.trans escapes)
      · have := byteLength_matched_pos f
        simp only [byteLength_append, byteLength_reverse] at place
        rcases List.mem_cons.1 mem with rfl | later
        · simp only [Found.located] at place
          omega
        · exact .inr ⟨p, later, by omega⟩

/-! ## 5. Walks over whole templates -/

/-- A walk that notes what it asks for notes the placeholders that it is told. -/
theorem tell_noting (fill : Placeholder → StateM σ (Except ε String)) (ps : List Placeholder)
    (seen : List Placeholder) (s : σ) :
    tell (noting fill) ps (seen, s) = (seen ++ ps, tell fill ps s) := by
  induction ps generalizing seen s with
  | nil => simp [tell]
  | cons p ps ih =>
    have told : tell (noting fill) (p :: ps) (seen, s) =
        tell (noting fill) ps (seen ++ [p], (fill p s).2) := rfl
    rw [told, ih, List.append_assoc]
    rfl

/-- **Placeholders that stand several times are asked for once.**  Where each brace of a template is
behind a backslash or opens a placeholder, and no placeholder has parentheses, a walk that replaces
copies asks for each text once, in the order in which the texts come first, and writes each answer
to all the places of its placeholder and to no others.  The callback may do what it likes with its
state, but what it answers depends on the text alone. -/
theorem splice_all_eq_assemble {fill : Placeholder → StateM σ (Except ε String)}
    {text : String → String} (answers : ∀ p s, (fill p s).1 = .ok (text p.matched))
    (plain : ∀ matched, '{' ∉ (text matched).toList ∧ ¬ EndsInBackslash (text matched))
    {template : String} (covered : Covered template.toList)
    (bare : ∀ p ∈ placeholders template.toList, '(' ∉ p.matched.toList) {steps : Nat}
    (enough : ownSteps template ≤ steps) (s : σ) :
    (splice .all fill steps template s).1 = some (.ok (String.ofList
        (assemble (fun p => (text p.matched).toList) (pieces template.toList)))) ∧
      asked .all fill steps template s =
        ((placeholders template.toList).map Located.toPlaceholder).eraseDupsBy
          fun p q => p.matched == q.matched := by
  have settled : Settled (isEscaped []) (pieces template.toList) := by
    refine settled_piecesFrom bare fun before after split => ?_
    rw [List.append_nil, Nat.zero_add]
    exact (covered before after split).imp_left fun last => by simp [isEscaped, last]
  have left : (asWritten (pieces template.toList)).count '{' < steps := by
    rw [pieces, asWritten_piecesFrom]
    exact Nat.lt_of_succ_le enough
  have walk := spliceFrom_settled answers plain settled left (s := s)
  have noted := @spliceFrom_settled _ _ (noting fill) text (fun p s => answers p s.2) plain _ _ _
    ([], s) settled left
  rw [pieces, asWritten_piecesFrom] at walk noted
  constructor
  · simp only [splice, bind, StateT.bind, walk]
    rfl
  · simp only [asked, splice, bind, StateT.bind, noted, tell_noting]
    rfl

/-- A callback that numbers what it is asked for, beside its answers. -/
def numbering (text : String → String) (p : Placeholder) : StateM Nat (Except Empty String) :=
  fun n => (.ok (text p.matched), n + 1)

/-- Two placeholders that stand several times, an escaped copy, and an escaped brace with which a
text that was filled in makes another one. -/
theorem splice_all_eq_assemble_copies :
    let template := "{a}\\{a}{b|f}{a}\\\x7b{a}\x7d{b|f}"
    let text : String → String := fun matched => if matched = "{a}" then "a" else ""
    Covered template.toList ∧ ownSteps template = 8 ∧
      (splice .all (numbering text) 8 template 0).1 = some (.ok "a\\{a}a\\{a}") ∧
      (asked .all (numbering text) 8 template 0).map (·.matched) = ["{a}", "{b|f}"] := by
  intro template text
  have plain : ∀ matched, '{' ∉ (text matched).toList ∧ ¬ EndsInBackslash (text matched) := by
    intro matched
    simp only [text]
    split <;> decide
  have covered : Covered template.toList := by decide +kernel
  have bare : ∀ p ∈ placeholders template.toList, '(' ∉ p.matched.toList := by decide +kernel
  have own : ownSteps template = 8 := by decide +kernel
  have answers : ∀ p n, (numbering text p n).1 = .ok (text p.matched) := fun _ _ => rfl
  obtain ⟨walk, texts⟩ := splice_all_eq_assemble answers plain covered bare (Nat.le_of_eq own) 0
  refine ⟨covered, own, walk.trans ?_, (congrArg (List.map (·.matched)) texts).trans ?_⟩
  · decide +kernel
  · decide +kernel

end Stencil.Template
