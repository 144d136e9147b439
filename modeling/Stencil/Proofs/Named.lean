/-
# Values by name

With values by name a walk also replaces the later copies of a placeholder.  That is meant to spare
looking up the same value again, and a template that is filled should be the template with each
placeholder replaced by its own text (`NamedExact`).  It is not always: a copy may stand in the
arguments of another placeholder or complete one, and a text that is put in its place is read as
part of the template (`not_namedExact_repeated`).

`namedExact_iff_selfContained` says which templates keep to it whatever the values are: those in
which no placeholder has a copy behind it and no two placeholders touch.  For each other template
there is an engine without filters of its own and without effects that fills it wrongly:

* with a copy behind it, a placeholder brings in a probe, and the walk reads that;
* of two placeholders that touch, a backslash for the first one hides the second.
-/
import Stencil.Engine.Fill
import Stencil.Proofs.Order
import Stencil.Proofs.Rescan

namespace Stencil

open Stencil.Text Template

/-! ## 1. What filling by name should come to -/

/-- The text of a placeholder with values by name: the one given for it is that under its own
name. -/
def Engine.namedText {σ : Type} (e : Engine σ) (template : String) (entries : Keyed (Entry σ))
    (p : Placeholder) : StateM σ (Except Error String) :=
  e.textFor template (.name p.name) p (entries.find? p.name)

theorem Engine.fillNamed_eq_namedText {σ : Type} (e : Engine σ) (template : String)
    (entries : Keyed (Entry σ)) : e.fillNamed template entries = e.namedText template entries :=
  funext fun p => e.fillWith_eq_textFor template p (entries.find? p.name) (.name p.name)

/-- **Filling by name is exact** for a template: with every engine and all values, what a walk that
ends gives is the template with each placeholder replaced by its own text, which is what its chain
makes of its own value or of what stands in for a missing one, or the placeholder itself. -/
def NamedExact (template : String) : Prop :=
  ∀ (σ : Type) (e : Engine σ) (entries : Keyed (Entry σ)) (extra : Nat) (s : σ) (out : String),
    (e.replaceWithin extra template (.map entries) s).1 = some (.ok out) →
      (answersTo (e.namedText template entries) (pieces template.toList) s).1.outcome
        (pieces template.toList) = .ok out.toList

/-- No two placeholders touch. -/
def Untouching (ps : List Located) : Prop := ∀ p ∈ ps, ∀ q ∈ ps, q.start ≠ p.stop

/-- No placeholder has a copy behind it, and no two touch. -/
def SelfContained (template : String) : Prop :=
  Unrepeated (pieces template.toList) ∧ Untouching (placeholders template.toList)

theorem replaceWithin_map {σ : Type} (e : Engine σ) (extra : Nat) (template : String)
    (entries : Keyed (Entry σ)) (s : σ) :
    e.replaceWithin extra template (.map entries) s =
      splice .all (e.namedText template entries) (ownSteps template + extra) template s := by
  rw [← e.fillNamed_eq_namedText]
  rfl

theorem namedExact_of_selfContained {template : String} (h : SelfContained template) :
    NamedExact template := by
  intro σ e entries extra s out filled
  have clear : Clear (placeholders template.toList)
      (answersTo (e.namedText template entries) (pieces template.toList) s).1.texts :=
    fun pt mem _ q inside => h.2 pt.1 (List.of_mem_zip mem).1 q inside
  have enough : ownSteps template ≤ ownSteps template + extra := Nat.le_add_right ..
  have unrepeated : Copies.all = .all → Unrepeated (pieces template.toList) := fun _ => h.1
  rw [replaceWithin_map, splice_eq_answers enough unrepeated clear] at filled
  simp only [Option.some.injEq] at filled
  generalize (answersTo (e.namedText template entries) (pieces template.toList) s).1.outcome
    (pieces template.toList) = outcome at filled ⊢
  cases outcome with
  | error err => cases filled
  | ok text =>
    cases filled
    simp

/-! ## 2. Texts that are known beforehand -/

section
variable {σ ε : Type} {text : Placeholder → String}

theorem answersTo_answering (ps : List Piece) (s : σ) :
    answersTo (answering (ε := ε) text) ps s =
      (⟨(placeholdersOf ps).map fun p => text p.toPlaceholder, none⟩, s) := by
  unfold answersTo
  induction placeholdersOf ps with
  | nil => rfl
  | cons p later ih =>
    have first : answering (ε := ε) text p.toPlaceholder s =
      (.ok (text p.toPlaceholder), s) := rfl
    rw [List.map_cons, answers_ok first, ih]
    rfl

theorem weave_map (ps : List Piece) :
    weave ps ((placeholdersOf ps).map fun p => text p.toPlaceholder) =
      assemble (fun p => (text p).toList) ps := by
  induction ps with
  | nil => rfl
  | cons piece later ih =>
    cases piece with
    | literal plain => exact congrArg (plain ++ ·) ih
    | placeholder p => exact congrArg ((text p.toPlaceholder).toList ++ ·) ih

end

/-- An exact template keeps to the texts of an engine that gives them without effects. -/
theorem NamedExact.assemble_eq {template : String} (exact' : NamedExact template)
    {e : Engine Unit} {text : Placeholder → String}
    (filled : e.namedText template [] = answering text) {out : List Char}
    (walk : spliceFrom .all (answering (ε := Error) text) (ownSteps template)
      ⟨[], template.toList⟩ () = (some (.ok out), ())) :
    out = assemble (fun p => (text p).toList) (pieces template.toList) := by
  have ended : (e.replaceWithin 0 template (.map []) ()).1 = some (.ok (String.ofList out)) := by
    simp only [replaceWithin_map, filled, splice, bind, StateT.bind, Nat.add_zero, walk]
    rfl
  have woven := exact' Unit e [] 0 () _ ended
  rw [filled, answersTo_answering] at woven
  simp only [Answers.outcome, weave_map, String.toList_ofList, Except.ok.injEq] at woven
  exact woven.symm

/-! ## 3. A placeholder with a copy behind it -/

theorem not_endsInBackslash {text : String} (h : escapedBehind false text.toList = false) :
    ¬ EndsInBackslash text := by
  intro ends
  unfold EndsInBackslash at ends
  simp [escapedBehind, ends] at h

/-- **A placeholder with a copy behind it brings in a probe.**  Up to the first such placeholder the
walk keeps to the template. -/
theorem mark_le_of_repeated {σ ε : Type} {name : Written.Word} {text : Placeholder → String}
    {mark : String}
    (probed : ∀ cs f, next? cs = some f → (probe name).print <:+: f.matched →
      text f.placeholder = mark)
    (plain : ∀ p escaped, escapedBehind escaped (text p).toList = false)
    {passed passed' : List Char} {start : Nat} {cs out : List Char} {steps : Nat} {s s' : σ}
    (own : ∀ p ∈ placeholdersOf (piecesFrom passed start cs),
      (text p.toPlaceholder).toList = (probe name).print)
    (agrees : Agrees cs passed passed')
    (repeated : ¬ Unrepeated (piecesFrom passed start cs))
    (h : spliceFrom .all (answering (ε := ε) text) steps ⟨passed', cs⟩ s = (some (.ok out), s')) :
    mark.toList.length ≤ out.length := by
  fun_induction piecesFrom passed start cs generalizing passed' steps s with
  | case1 passed start cs found =>
    refine absurd (unrepeated_literal.2 fun p later inside => ?_) repeated
    cases List.suffix_nil.1 inside
  | case2 passed start cs f found here escaped =>
    rename_i ih
    have escaped' := agrees.escaped found escaped
    cases steps with
    | zero => cases h
    | succ steps =>
      rw [spliceFrom_escaped found escaped'] at h
      rw [unrepeated_literal] at repeated
      exact ih own (agrees_of_eq (by simp)) repeated h
  | case3 passed start cs f found here unescaped =>
    rename_i ih
    have unescaped' := agrees.unescaped found unescaped
    have ownText : (text f.placeholder).toList = (probe name).print :=
      own (f.located here) (List.mem_cons_self ..)
    cases steps with
    | zero => cases h
    | succ steps =>
      rw [spliceFrom_ok found unescaped' rfl] at h
      rw [unrepeated_literal, unrepeated_placeholder, asWritten_piecesFrom, Found.located,
        f.toList_matched_placeholder] at repeated
      cases copies : hasCopy f.matched false f.rest with
      | true =>
        refine mark_le_length probed plain h ?_
        rw [isEscaped_reverse_append, plain, ownText]
        exact holds_of_hasCopy (getLast?_matched found) _ copies
      | false =>
        rw [restAfter_eq_rest _ fun _ => copies] at h
        have agrees' := agrees_behind (here + byteLength f.matched) unescaped'
          fun ends => absurd ends (not_endsInBackslash (plain f.placeholder false))
        exact ih (fun p mem => own p (List.mem_cons_of_mem _ mem)) agrees'
          (fun later => repeated ⟨copies, later⟩) h

/-! ## 4. Two placeholders that touch -/

/-- Only the placeholder right behind another one can touch it. -/
theorem Untouching.cons {p : Located} {ps : List Located} (apart : Untouching ps)
    (proper : p.start < p.stop) (later : ∀ q ∈ ps, p.stop ≤ q.start ∧ q.start < q.stop)
    (next : ∀ q ∈ ps, q.start ≠ p.stop) : Untouching (p :: ps) := by
  intro q mem r inside
  rcases List.mem_cons.1 mem with rfl | behind
  · rcases List.mem_cons.1 inside with rfl | further
    · exact Nat.ne_of_lt proper
    · exact next r further
  · rcases List.mem_cons.1 inside with rfl | further
    · have := later q behind
      omega
    · exact apart q behind r further

theorem assemble_literal (fill : Placeholder → List Char) (plain : List Char) (ps : List Piece) :
    assemble fill (.literal plain :: ps) = plain ++ assemble fill ps := rfl

theorem assemble_placeholder (fill : Placeholder → List Char) (p : Located) (ps : List Piece) :
    assemble fill (.placeholder p :: ps) = fill p.toPlaceholder ++ assemble fill ps := rfl

/-- A backslash for a placeholder hides the one that touches it, and its brace is written. -/
theorem ne_of_hidden {σ ε : Type} {passed cs out : List Char} {start steps : Nat} {s s' : σ}
    {q : Located} (inside : q ∈ placeholdersOf (piecesFrom ['}'] start cs))
    (here : q.start = start)
    (h : spliceFrom .all (answering (ε := ε) fun _ => "\\") steps ⟨'\\' :: passed, cs⟩ s =
      (some (.ok out), s')) :
    out ≠ passed.reverse ++ '\\' :: assemble (fun _ => ['\\']) (piecesFrom ['}'] start cs) := by
  cases steps with
  | zero => cases h
  | succ steps =>
    cases found : next? cs with
    | none =>
      rw [piecesFrom_none _ _ found] at inside
      cases inside
    | some g =>
      have passedOver := skipped_eq_nil_of_mem found inside here
      have escaped : isEscaped (g.skipped ++ '\\' :: passed) = true := by simp [passedOver]
      have unescaped : isEscaped (g.skipped ++ ['}']) = false := by simp [passedOver]
      rw [spliceFrom_escaped found escaped] at h
      obtain ⟨later, written⟩ := prefix_of_spliceFrom h
      rw [← written, piecesFrom_found start found unescaped, assemble_literal,
        assemble_placeholder]
      simp [passedOver]

/-- **Two placeholders that touch are not both filled** where their texts are backslashes. -/
theorem ne_of_touching {σ ε : Type} {passed passed' : List Char} {start : Nat}
    {cs out : List Char} {steps : Nat} {s s' : σ} (agrees : Agrees cs passed passed')
    (unrepeated : Unrepeated (piecesFrom passed start cs))
    (touching : ¬ Untouching (placeholdersOf (piecesFrom passed start cs)))
    (h : spliceFrom .all (answering (ε := ε) fun _ => "\\") steps ⟨passed', cs⟩ s =
      (some (.ok out), s')) :
    out ≠ passed'.reverse ++ assemble (fun _ => ['\\']) (piecesFrom passed start cs) := by
  fun_induction piecesFrom passed start cs generalizing passed' steps s with
  | case1 passed start cs found => exact absurd (fun p mem => absurd mem List.not_mem_nil) touching
  | case2 passed start cs f found here escaped =>
    rename_i ih
    have escaped' := agrees.escaped found escaped
    cases steps with
    | zero => cases h
    | succ steps =>
      rw [spliceFrom_escaped found escaped'] at h
      have later := ih (agrees_of_eq (by simp)) (unrepeated_literal.1 unrepeated) touching h
      rw [assemble_literal]
      simpa using later
  | case3 passed start cs f found here unescaped =>
    rename_i ih
    have unescaped' := agrees.unescaped found unescaped
    cases steps with
    | zero => cases h
    | succ steps =>
      rw [unrepeated_literal, unrepeated_placeholder, asWritten_piecesFrom, Found.located,
        f.toList_matched_placeholder] at unrepeated
      rw [spliceFrom_ok found unescaped' rfl, restAfter_eq_rest _ fun _ => unrepeated.1] at h
      have walk : spliceFrom .all (answering (ε := ε) fun _ => "\\") steps
          ⟨'\\' :: (f.skipped ++ passed'), f.rest⟩ s = (some (.ok out), s') := by simpa using h
      rw [assemble_literal, assemble_placeholder]
      by_cases hidden : ∃ q ∈
          placeholdersOf (piecesFrom ['}'] (here + byteLength f.matched) f.rest),
          q.start = here + byteLength f.matched
      · obtain ⟨q, inside, at'⟩ := hidden
        simpa using ne_of_hidden inside at' walk
      · have agrees' := agrees_behind (here + byteLength f.matched) unescaped'
          fun (_ : EndsInBackslash "\\") q inside at' => hidden ⟨q, inside, at'⟩
        have touching' : ¬ Untouching
            (placeholdersOf (piecesFrom ['}'] (here + byteLength f.matched) f.rest)) := by
          refine fun apart => touching (apart.cons ?_ ?_ fun q mem at' => hidden ⟨q, mem, at'⟩)
          · have := byteLength_matched_pos f
            simp only [Found.located]
            omega
          · exact fun q mem => ⟨le_start_of_mem mem, start_lt_stop_of_mem mem⟩
        simpa using ih agrees' unrepeated.2 touching' walk

/-! ## 5. Engines with texts for all placeholders -/

/-- What a placeholder gets: the text of its name, unless it has filters and a text of its own. -/
def riggedText (named : String → String) (filtered : String → Option String) (p : Placeholder) :
    String :=
  if p.chain.isEmpty then named p.name else (filtered p.matched).getD (named p.name)

/-- Puts the text of the placeholder, if there is one, in the place of the value. -/
def overwrite (filtered : String → Option String) : Transform Unit := fun value _ ctx =>
  pure (.ok ((filtered ctx.matched).elim value .string), ctx)

/-- An engine without registered filters that takes each name for the same filter. -/
def rigged (named : String → String) (filtered : String → Option String) : Engine Unit where
  options := {
    missing := .ask fun
      | .name name => pure (.string (named name))
      | .index _ => pure .null
    isEmpty := some fun _ => true
    source := some fun name =>
      pure (some (.definition { name, transform := overwrite filtered, control := true })) }

section
variable {named : String → String} {filtered : String → Option String}

/-- A stage of a rigged engine. -/
def IsOverwrite (filtered : String → Option String) (stage : Stage Unit) : Prop :=
  ∃ name, stage.definition = { name, transform := overwrite filtered, control := true }

theorem resolve_rigged (name : String) : (rigged named filtered).resolve name () =
    (some { name, transform := overwrite filtered, control := true }, ()) := by
  simp [Engine.resolve, Engine.filter?, rigged, Supplied.toDefinition, bind, StateT.bind, pure,
    StateT.pure]

theorem runStage_rigged {stage : Stage Unit} (h : IsOverwrite filtered stage)
    (ctx : Context Unit) (value : Value) :
    ∃ ctx', ctx'.matched = ctx.matched ∧ (rigged named filtered).runStage stage ctx value () =
      ((.proceed ((filtered ctx.matched).elim value .string), ctx'), ()) := by
  obtain ⟨name, same⟩ := h
  refine ⟨{ ctx with args := stage.slots, config := none }, rfl, ?_⟩
  simp [Engine.runStage, same, overwrite, Defaults.evaluate, bind, StateT.bind, pure, StateT.pure]

theorem resolveAll_rigged (chain : List Call) :
    ∃ stages, (rigged named filtered).resolveAll chain () = (stages, ()) ∧
      stages.length = chain.length ∧ ∀ stage ∈ stages, IsOverwrite filtered stage := by
  induction chain with
  | nil => exact ⟨[], rfl, rfl, by simp⟩
  | cons call later ih =>
    obtain ⟨stages, resolved, same, all⟩ := ih
    refine ⟨⟨{ name := call.name, transform := overwrite filtered, control := true }, call.args⟩ ::
      stages, ?_, by simp [same], List.forall_mem_cons.2 ⟨⟨call.name, rfl⟩, all⟩⟩
    simp [Engine.resolveAll, resolve_rigged, resolved, bind, StateT.bind, pure, StateT.pure]

theorem runStages_rigged {stages : List (Stage Unit)}
    (all : ∀ stage ∈ stages, IsOverwrite filtered stage) (ctx : Context Unit) (value : Value) :
    (rigged named filtered).runStages ctx value stages () =
      (.ok (if stages.isEmpty then value else (filtered ctx.matched).elim value .string), ()) := by
  induction stages generalizing ctx value with
  | nil => rfl
  | cons stage later ih =>
    obtain ⟨here, behind⟩ := List.forall_mem_cons.1 all
    obtain ⟨ctx', same, ran⟩ := @runStage_rigged named filtered stage here ctx value
    have rest := ih behind ctx' ((filtered ctx.matched).elim value .string)
    simp only [Engine.runStages, bind, StateT.bind, ran, rest, same]
    cases filtered ctx.matched <;> cases later <;> rfl

theorem namedText_rigged (template : String) :
    (rigged named filtered).namedText template [] = answering (riggedText named filtered) := by
  funext p ⟨⟩
  obtain ⟨stages, resolved, same, all⟩ := @resolveAll_rigged named filtered p.chain
  have ordered : ∀ stage ∈ Stage.ordered stages, IsOverwrite filtered stage :=
    fun stage mem => all stage ((Stage.ordered_perm stages).mem_iff.1 mem)
  have ran := @runStages_rigged named filtered _ ordered
    (Engine.startContext template p (.string (named p.name))) (.string (named p.name))
  have answered : (rigged named filtered).namedText template [] p () =
    (rigged named filtered).run template p (.string (named p.name)) () := rfl
  have length : (Stage.ordered stages).length = p.chain.length :=
    (Stage.ordered_perm stages).length_eq.trans same
  have empty : (Stage.ordered stages).isEmpty = p.chain.isEmpty := by
    rw [Bool.eq_iff_iff, List.isEmpty_iff, List.isEmpty_iff, ← List.length_eq_zero_iff,
      ← List.length_eq_zero_iff, length]
  simp only [answered, Engine.run, bind, StateT.bind, resolved, ran, empty, answering, riggedText]
  cases p.chain.isEmpty
  · have matched : (Engine.startContext (σ := Unit) template p
      (.string (named p.name))).matched = p.matched := rfl
    rw [matched]
    cases filtered p.matched <;> rfl
  · rfl

end

/-! ## 6. The templates that are filled exactly -/

/-- A name that is longer than the names and the texts of all placeholders of a template. -/
def freshName (template : String) : Written.Word where
  text := List.replicate (((placeholders template.toList).flatMap fun p =>
    p.name.toList ++ p.matched.toList).length + 1) 'z'
  nonempty := by simp
  word := by
    intro c mem
    rw [List.eq_of_mem_replicate mem]
    decide

theorem length_lt_freshName {template : String} {p : Located}
    (inside : p ∈ placeholders template.toList) :
    p.name.toList.length + p.matched.toList.length < (freshName template).text.length := by
  have part := List.sublist_flatten_of_mem
    (List.mem_map_of_mem (f := fun p : Located => p.name.toList ++ p.matched.toList) inside)
  have := part.length_le
  simp only [List.length_append] at this
  simp only [freshName, List.length_replicate, List.flatMap]
  omega

/-- A probe for short names and texts, a mark for the others. -/
def probing (name : Written.Word) (mark : String) (key : String) : String :=
  if key.toList.length < name.text.length then String.ofList (probe name).print else mark

/-- What probing answers a placeholder. -/
def probeText (name : Written.Word) (mark : String) : Placeholder → String :=
  riggedText (probing name mark) fun matched => some (probing name mark matched)

section
variable {name : Written.Word} {mark : String}

theorem probeText_cases (p : Placeholder) :
    probeText name mark p = String.ofList (probe name).print ∨ probeText name mark p = mark := by
  unfold probeText riggedText probing
  simp only [Option.getD_some]
  split <;> split <;> simp

/-- A placeholder with the probe in it gets the mark. -/
theorem probeText_of_infix {cs : List Char} {f : Found} (found : next? cs = some f)
    (inside : (probe name).print <:+: f.matched) : probeText name mark f.placeholder = mark := by
  have long : name.text.length ≤ f.placeholder.matched.toList.length := by
    have := inside.length_le
    simp only [print_probe, List.length_cons, List.length_append] at this
    rw [f.toList_matched_placeholder]
    omega
  unfold probeText riggedText
  split
  · rename_i bare
    -- without filters the probe can only stand at the very start, so it is the placeholder
    have alone := count_matched found (List.isEmpty_iff.1 bare)
    obtain ⟨u, v, shape⟩ := inside
    have first : u = [] := by
      cases u with
      | nil => rfl
      | cons d u =>
        have brace : d = '{' := (List.cons.inj shape).1
        rw [← shape, print_probe, brace] at alone
        simp only [List.count_append, List.count_cons_self] at alone
        omega
    have whole := Found.matched_append_rest (next?_eq_some found).2
    rw [← shape, first, List.nil_append, List.append_assoc] at whole
    have parts := recognise?_of_nextFrom found
    rw [← whole, Written.recognise?_print] at parts
    have named : f.parts.name = name.text := (congrArg (·.1.name) (Option.some.inj parts)).symm
    simp [probing, Found.placeholder, named]
  · simp [probing, Nat.not_lt.2 long]

/-- The placeholders of a template itself get the probe. -/
theorem probeText_of_own {template : String} {p : Located}
    (inside : p ∈ placeholders template.toList) :
    probeText (freshName template) mark p.toPlaceholder =
      String.ofList (probe (freshName template)).print := by
  have short := length_lt_freshName inside
  unfold probeText riggedText
  split
  · exact if_pos (by omega)
  · exact if_pos (by omega)

end

/-- A text longer than a given length. -/
def marker (length : Nat) : String := String.ofList (List.replicate (length + 1) 'y')

theorem toList_marker (length : Nat) :
    (marker length).toList = List.replicate (length + 1) 'y' := String.toList_ofList

theorem count_probeText_le (name : Written.Word) (length : Nat) (p : Placeholder) :
    (probeText name (marker length) p).toList.count '{' ≤ 1 := by
  rcases probeText_cases p with probed | marked
  · have word : '{' ∉ name.text := fun mem => absurd (name.word _ mem) (by decide)
    rw [probed, String.toList_ofList, print_probe, List.count_cons_self, List.count_append,
      List.count_eq_zero.2 word]
    decide
  · simp [marked, toList_marker, List.count_replicate]

theorem escapedBehind_probeText (name : Written.Word) (length : Nat) (p : Placeholder)
    (escaped : Bool) :
    escapedBehind escaped (probeText name (marker length) p).toList = false := by
  rcases probeText_cases p with probed | marked
  · have closing : (probe name).print.getLast? = some '}' := by
      rw [print_probe, ← List.cons_append, List.getLast?_concat]
    rw [probed, String.toList_ofList]
    exact escapedBehind_of_closing closing escaped
  · rw [marked, toList_marker, List.replicate_succ']
    simp [escapedBehind]

theorem assemble_congr {fill fill' : Placeholder → List Char} {ps : List Piece}
    (same : ∀ p ∈ placeholdersOf ps, fill p.toPlaceholder = fill' p.toPlaceholder) :
    assemble fill ps = assemble fill' ps := by
  induction ps with
  | nil => rfl
  | cons piece later ih =>
    cases piece with
    | literal plain => exact congrArg (plain ++ ·) (ih same)
    | placeholder p =>
      obtain ⟨here, behind⟩ := List.forall_mem_cons.1 same
      rw [assemble_placeholder, assemble_placeholder, here, ih behind]

theorem unrepeated_of_namedExact {template : String} (h : NamedExact template) :
    Unrepeated (pieces template.toList) := by
  by_contra repeated
  -- the mark is longer than the exact result, in which it has no part
  generalize expected : assemble (fun _ => (probe (freshName template)).print)
    (pieces template.toList) = result
  have own : ∀ p ∈ placeholders template.toList,
      (probeText (freshName template) (marker result.length) p.toPlaceholder).toList =
        (probe (freshName template)).print := by
    intro p inside
    rw [probeText_of_own inside, String.toList_ofList]
  have enough : template.toList.count '{' < ownSteps template := Nat.lt_succ_self _
  obtain ⟨out, walk⟩ := @spliceFrom_ends Unit Error .all (ownSteps template) []
    template.toList () _ (count_probeText_le (freshName template) result.length) enough
  have short : out = result := by
    rw [h.assemble_eq (namedText_rigged template) walk]
    refine Eq.trans ?_ expected
    exact assemble_congr own
  have long := mark_le_of_repeated (fun _ _ => probeText_of_infix)
    (escapedBehind_probeText (freshName template) result.length) own (agrees_of_eq rfl)
    repeated walk
  rw [short, toList_marker, List.length_replicate] at long
  omega

theorem untouching_of_namedExact {template : String} (h : NamedExact template) :
    Untouching (placeholders template.toList) := by
  by_contra touching
  have text : riggedText (fun _ => "\\") (fun _ => none) = fun _ => "\\" := by
    funext p
    unfold riggedText
    split <;> rfl
  have filled : (rigged (fun _ => "\\") fun _ => none).namedText template [] =
      answering fun _ => "\\" := (namedText_rigged template).trans (by rw [text])
  have enough : template.toList.count '{' < ownSteps template := Nat.lt_succ_self _
  obtain ⟨out, walk⟩ := @spliceFrom_ends Unit Error .all (ownSteps template) []
    template.toList () (fun _ => "\\") (by simp) enough
  have exact' := h.assemble_eq filled walk
  have agrees : Agrees template.toList [] [] := agrees_of_eq rfl
  refine ne_of_touching agrees (unrepeated_of_namedExact h) touching walk ?_
  simpa [pieces] using exact'

/-- **Filling by name is exact just for the templates that are self-contained**: no placeholder has
a copy of its text behind it, in the place of a placeholder or elsewhere, and no two placeholders
touch. -/
theorem namedExact_iff_selfContained (template : String) :
    NamedExact template ↔ SelfContained template :=
  ⟨fun h => ⟨unrepeated_of_namedExact h, untouching_of_namedExact h⟩, namedExact_of_selfContained⟩

/-- A text that was put in the place of a copy is read as a placeholder: with `{y}` for `x`, the
second placeholder gets the value of `y`. -/
theorem not_namedExact_repeated : ¬ NamedExact "{x} {x}" := by
  intro exact'
  let entries : Keyed (Entry Unit) :=
    [("x", .given (.string "{y}")), ("y", .given (.string "1"))]
  have filled : ((Engine.new.replaceWithin 0 "{x} {x}" (.map entries) ()).1.bind
      Except.toOption) = some "{y} 1" := by decide +kernel
  have woven : ((answersTo (Engine.new.namedText "{x} {x}" entries) (pieces "{x} {x}".toList)
      ()).1.outcome (pieces "{x} {x}".toList)).toOption = some "{y} {y}".toList := by
    decide +kernel
  cases ended : (Engine.new.replaceWithin 0 "{x} {x}" (.map entries) ()).1 with
  | none => simp [ended] at filled
  | some result =>
    cases result with
    | error e => simp [ended, Except.toOption] at filled
    | ok out =>
      rw [ended] at filled
      rw [exact' Unit Engine.new entries 0 () out ended] at woven
      cases filled
      exact absurd (Option.some.inj woven) (by decide)

end Stencil
