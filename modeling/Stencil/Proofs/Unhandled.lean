/-
# Stages without a handler

Where no handler is in force, a fault is passed over and an empty value ends the chain.

* `run_without_failures`: a filter that fails is as good as absent.  The calls whose stages have
  failed can be left out of the chain, as those can that stand for no filter, and the placeholder
  becomes the same.  Calls are told apart by their places (`without`, `ran`), for a chain may have
  one of them twice, and they are in the order in which they are written, not in that in which they
  run (`plan`).
* `run_unhandled_empty`: an empty value ends the chain, and what is left of the placeholder is the
  empty text, if the test for emptiness counts that as empty, else the two literals.
-/
import Stencil.Proofs.Failure
import Stencil.Proofs.Order

namespace Stencil

variable {σ α : Type}

/-! ## 1. Faults without a handler -/

namespace Executed

/-- The transform has failed. -/
def failed (x : Executed σ) : Bool := !x.result.isOk

theorem exists_fault {x : Executed σ} (failed : x.failed) : ∃ fault, x.result = .error fault := by
  cases result : x.result with
  | error fault => exact ⟨fault, rfl⟩
  | ok output => simp [Executed.failed, result, Except.isOk, Except.toBool] at failed

/-- A chain goes on with the value that a stage was given, if this fails and no handler is in
force. -/
theorem Settled.flow_of_failed {e : Engine σ} {x : Executed σ} (h : x.Settled e)
    (unguarded : e.errorHandler? x.after x.stage.definition = none) (failed : x.failed) :
    x.flow = .proceed x.input := by
  obtain ⟨fault, result⟩ := exists_fault failed
  have event := event_of_error (e := e) result
  have silent : x.Silent e := by
    simp [Silent, question?, event, unguarded]
  rw [(h.of_silent silent).1, event]
  rfl

end Executed

/-- Contexts that are the same but for the slots and the section of the filter that ran last. -/
def Context.Like (ctx ctx' : Context σ) : Prop :=
  ∀ slots section?, { ctx with args := slots, config := section? } =
    { ctx' with args := slots, config := section? }

namespace Engine

variable {e : Engine σ} {ctx ctx' : Context σ}

/-- A stage has the slots and the section of its own filter only. -/
theorem runStage_like (like : ctx.Like ctx') (stage : Stage σ) (value : Value) :
    e.runStage stage ctx value = e.runStage stage ctx' value := by
  simp only [runStage, like stage.slots]

theorem observe_like (like : ctx.Like ctx') (stage : Stage σ) (value : Value) (s : σ) :
    e.observe stage ctx value s = e.observe stage ctx' value s := by
  simp only [observe, runStage_like like, like stage.slots]

theorem trace_like (like : ctx.Like ctx') (value : Value) (stages : List (Stage σ)) (s : σ) :
    e.trace ctx value stages s = e.trace ctx' value stages s := by
  cases stages with
  | nil => rfl
  | cons stage rest => simp only [trace, observe_like like]

section
variable {stage : Stage σ} {rest : List (Stage σ)} {value : Value} {s : σ}
  (unguarded : e.errorHandler? (e.observe stage ctx value s).after stage.definition = none)
  (failed : (e.observe stage ctx value s).failed)
  (untouched : (e.observe stage ctx value s).after = (e.observe stage ctx value s).before)
include unguarded failed untouched

/-- The stages behind one that fails and leaves the context alone are executed as if it were not
there, if no handler is in force for it. -/
theorem trace_failed :
    e.trace ctx value (stage :: rest) s = e.observe stage ctx value s ::
      e.trace ctx value rest (e.observe stage ctx value s).left := by
  have settled : (e.observe stage ctx value s).Settled e := e.observe_handled stage ctx value s
  have like : Context.Like (e.observe stage ctx value s).before ctx := fun _ _ => rfl
  rw [trace_proceed (settled.flow_of_failed unguarded failed), untouched, trace_like like]
  rfl

theorem runStages_failed :
    e.runStages ctx value (stage :: rest) s =
      e.runStages ctx value rest (e.observe stage ctx value s).left := by
  have settled : (e.observe stage ctx value s).Settled e := e.observe_handled stage ctx value s
  rw [runStages_eq_outcome, runStages_eq_outcome, trace_failed unguarded failed untouched,
    Executed.outcome_cons value s _ (settled.flow_of_failed unguarded failed)]
  rfl

end

end Engine

/-- A transform that does not read the context leaves it alone. -/
theorem Engine.after_of_pure {e : Engine σ} {ctx : Context σ} {value : Value}
    {stages : List (Stage σ)} {s : σ} {x : Executed σ} (mem : x ∈ e.trace ctx value stages s)
    {f : Value → Arguments → Except Fault Value}
    (pure' : x.stage.definition.transform = .pure f) : x.after = x.before := by
  obtain ⟨done, later, ran⟩ := List.append_of_mem mem
  obtain ⟨ctx', value', s', -, observed⟩ := trace_cases ran
  rw [observed]
  simp only [observe, pure']
  rfl

/-! ## 2. Calls and their places -/

/-- A list without the entries at some places. -/
def without (gone : List Nat) (xs : List α) : List α :=
  (xs.zipIdx.filter fun c => c.2 ∉ gone).map Prod.fst

namespace Stage

/-- Stages with the places of their calls, in the order in which they run. -/
def inTurn (entries : List (Stage σ × Nat)) : List (Stage σ × Nat) :=
  Priority.inOrder.flatMap fun priority =>
    entries.filter fun c => c.1.definition.priority = priority

theorem map_fst_inTurn (entries : List (Stage σ × Nat)) :
    (inTurn entries).map Prod.fst = ordered (entries.map Prod.fst) := by
  rw [ordered_eq, inTurn, List.map_flatMap]
  refine List.flatMap_congr fun priority _ => ?_
  rw [ofPriority, List.filter_map]
  rfl

theorem filter_inTurn (keep : Stage σ × Nat → Bool) (entries : List (Stage σ × Nat)) :
    (inTurn entries).filter keep = inTurn (entries.filter keep) := by
  rw [inTurn, inTurn, List.filter_flatMap]
  exact List.flatMap_congr fun priority _ => List.filter_comm ..

theorem inTurn_perm (entries : List (Stage σ × Nat)) : (inTurn entries).Perm entries := by
  simpa [inTurn] using
    Priority.perm_inOrder (fun c : Stage σ × Nat => some c.1.definition.priority) entries

end Stage

namespace Engine

variable (e : Engine σ)

/-- The stages of calls, each with the place of its call. -/
def placed (s : σ) (calls : List (Call × Nat)) : List (Stage σ × Nat) :=
  calls.filterMap fun c => (e.stage? s c.1).map fun stage => (stage, c.2)

/-- The stages of a chain with the places of their calls, in the order in which they run. -/
def plan (s : σ) (chain : List Call) : List (Stage σ × Nat) :=
  Stage.inTurn (e.placed s chain.zipIdx)

/-- The stages that a placeholder executes, with the places of their calls. -/
def ran (template : String) (p : Placeholder) (value : Value) (s : σ) : List (Nat × Executed σ) :=
  ((e.plan s p.chain).map Prod.snd).zip (e.executed template p value s)

/-- The places of the calls whose stages have failed. -/
def failures (template : String) (p : Placeholder) (value : Value) (s : σ) : List Nat :=
  ((e.ran template p value s).filter fun entry => entry.2.failed).map Prod.fst

variable {e}

theorem map_fst_placed (s : σ) (calls : List (Call × Nat)) :
    (e.placed s calls).map Prod.fst = (calls.map Prod.fst).filterMap (e.stage? s) := by
  rw [placed, List.map_filterMap, List.filterMap_map]
  refine List.filterMap_congr fun c _ => ?_
  cases found : e.stage? s c.1 <;> simp [found]

theorem filter_placed (keep : Nat → Bool) (s : σ) (calls : List (Call × Nat)) :
    (e.placed s calls).filter (fun c => keep c.2) =
      e.placed s (calls.filter fun c => keep c.2) := by
  induction calls with
  | nil => rfl
  | cons c rest ih =>
    unfold placed at ih ⊢
    cases kept : keep c.2 <;> cases found : e.stage? s c.1 <;> simp [kept, found, ih]

/-- The stages of a plan are those of the chain. -/
theorem map_fst_plan (s : σ) (chain : List Call) :
    (e.plan s chain).map Prod.fst = Stage.ordered (chain.filterMap (e.stage? s)) := by
  rw [plan, Stage.map_fst_inTurn, map_fst_placed, List.zipIdx_map_fst]

/-- The stages of a chain without some calls are those that stand at other places. -/
theorem ordered_without (gone : List Nat) (s : σ) (chain : List Call) :
    Stage.ordered ((without gone chain).filterMap (e.stage? s)) =
      ((e.plan s chain).filter fun c => c.2 ∉ gone).map Prod.fst := by
  rw [plan, Stage.filter_inTurn, Stage.map_fst_inTurn, filter_placed (fun i => i ∉ gone),
    map_fst_placed]
  rfl

theorem mem_plan {s : σ} {chain : List Call} {stage : Stage σ} {i : Nat}
    (mem : (stage, i) ∈ e.plan s chain) :
    ∃ call, chain[i]? = some call ∧ e.stage? s call = some stage := by
  obtain ⟨⟨call, j⟩, written, found⟩ :=
    List.mem_filterMap.1 ((Stage.inTurn_perm _).mem_iff.1 mem)
  obtain ⟨stage', resolved, same⟩ := Option.map_eq_some_iff.1 found
  cases same
  exact ⟨call, List.mk_mem_zipIdx_iff_getElem?.1 written, resolved⟩

/-- No two stages of a plan have the same place. -/
theorem nodup_plan (s : σ) (chain : List Call) : ((e.plan s chain).map Prod.snd).Nodup := by
  have places : (chain.zipIdx.map Prod.snd).Nodup := by
    rw [List.zipIdx_map_snd]
    exact List.nodup_range'
  have apart : (e.placed s chain.zipIdx).Pairwise fun c c' => c.2 ≠ c'.2 := by
    refine List.pairwise_filterMap.2 ((List.pairwise_map.1 places).imp ?_)
    intro c c' ne entry found entry' found'
    obtain ⟨stage, -, rfl⟩ := Option.map_eq_some_iff.1 found
    obtain ⟨stage', -, rfl⟩ := Option.map_eq_some_iff.1 found'
    exact ne
  exact ((Stage.inTurn_perm _).map Prod.snd).nodup_iff.2 (List.pairwise_map.2 apart)

/-! ## 3. Runs with fewer stages -/

/-- **Stages that fail can be left out**, wherever they stand.  Of the stages that are left out only
those that are executed have to fail. -/
theorem runStages_without (pure' : e.Functional) {entries : List (Stage σ × Nat)}
    (own : ∀ stage ∈ entries.map Prod.fst, stage.definition.Functional) {ctx : Context σ}
    (given : ctx.Functional) {value : Value} {s : σ}
    (unguarded : ∀ x ∈ e.trace ctx value (entries.map Prod.fst) s,
      e.errorHandler? x.after x.stage.definition = none)
    (untouched : ∀ x ∈ e.trace ctx value (entries.map Prod.fst) s, x.failed → x.after = x.before)
    {gone : List Nat}
    (useless : ∀ entry ∈ (entries.map Prod.snd).zip (e.trace ctx value (entries.map Prod.fst) s),
      entry.1 ∈ gone → entry.2.failed) (s' : σ) :
    (e.runStages ctx value ((entries.filter fun c => c.2 ∉ gone).map Prod.fst) s').1 =
      (e.runStages ctx value (entries.map Prod.fst) s).1 := by
  induction entries generalizing ctx value s s' with
  | nil => rfl
  | cons entry rest ih =>
    obtain ⟨stage, place⟩ := entry
    obtain ⟨here, behind⟩ := List.forall_mem_cons.1 own
    let x := e.observe stage ctx value s
    have first : x ∈ e.trace ctx value (stage :: rest.map Prod.fst) s := by
      rw [trace]
      exact List.mem_cons_self
    by_cases deleted : place ∈ gone
    · have failed : x.failed := useless (place, x) List.mem_cons_self deleted
      have passed : e.trace ctx value (stage :: rest.map Prod.fst) s =
          x :: e.trace ctx value (rest.map Prod.fst) x.left :=
        trace_failed (unguarded x first) failed (untouched x first failed)
      simp only [List.map_cons, passed] at unguarded untouched useless
      rw [List.map_cons, runStages_failed (unguarded x List.mem_cons_self) failed
        (untouched x List.mem_cons_self failed), List.filter_cons_of_neg (by simpa using deleted)]
      exact ih behind given (List.forall_mem_cons.1 unguarded).2
        (List.forall_mem_cons.1 untouched).2 (List.forall_mem_cons.1 useless).2 s'
    · have same := pure'.runStage here given value s' s
      have after := functional_after (e := e) here given value s
      simp only [runStage_eq_observe, Prod.mk.injEq] at same after
      rw [List.filter_cons_of_pos (by simpa using deleted)]
      simp only [List.map_cons, runStages, bind, StateT.bind, runStage_eq_observe, same.1, same.2]
      cases flow : (e.observe stage ctx value s).flow with
      | proceed next =>
        simp only [List.map_cons, trace_proceed flow] at unguarded untouched useless
        exact ih behind after (List.forall_mem_cons.1 unguarded).2
          (List.forall_mem_cons.1 untouched).2 (List.forall_mem_cons.1 useless).2 _
      | stop last => rfl
      | raise error => rfl

/-! ## 4. Chains with fewer calls -/

/-- The executed stages are the first ones of the plan. -/
theorem executed_stages (pure' : e.Functional) (template : String) (p : Placeholder)
    (value : Value) (s : σ) :
    (e.executed template p value s).map Executed.stage <+: (e.plan s p.chain).map Prod.fst := by
  rw [map_fst_plan, ← pure'.resolveAll s s p.chain]
  exact trace_stages

section
variable {template : String} {p : Placeholder} {value : Value} {s : σ}

/-- An executed stage is that of the call at its place. -/
theorem call_of_mem_ran (pure' : e.Functional) {i : Nat} {x : Executed σ}
    (mem : (i, x) ∈ e.ran template p value s) :
    ∃ call, p.chain[i]? = some call ∧ e.stage? s call = some x.stage := by
  obtain ⟨k, bound, here⟩ := List.mem_iff_getElem.1 mem
  obtain ⟨planned, reached⟩ : k < (e.plan s p.chain).length ∧
      k < (e.executed template p value s).length := by
    simpa [ran] using bound
  simp only [ran, List.getElem_zip, Prod.mk.injEq, List.getElem_map] at here
  obtain ⟨rfl, rfl⟩ := here
  have stage := (executed_stages pure' template p value s).getElem (by rwa [List.length_map])
  simp only [List.getElem_map] at stage
  rw [stage]
  exact mem_plan (List.getElem_mem planned)

/-- No two executed stages have the same place. -/
theorem eq_of_mem_ran {i : Nat} {x y : Executed σ} (mem : (i, x) ∈ e.ran template p value s)
    (mem' : (i, y) ∈ e.ran template p value s) : x = y := by
  obtain ⟨k, bound, here⟩ := List.mem_iff_getElem.1 mem
  obtain ⟨k', bound', here'⟩ := List.mem_iff_getElem.1 mem'
  simp only [ran, List.getElem_zip, Prod.mk.injEq] at here here'
  have same : k = k' :=
    (nodup_plan s p.chain).getElem_inj_iff.1 (here.1.trans here'.1.symm)
  subst same
  exact here.2.symm.trans here'.2

/-- **A filter that fails is as good as absent where no handler for faults is in force.**  For an
engine whose callbacks are functions, with no handler of its own, of its filters, or installed on
the way, and with filters that leave the context alone when they fail: any calls can be left out of
a chain whose stages have failed, and so can any that stand for no filter, and the placeholder
becomes the same. -/
theorem run_without_failures (pure' : e.Functional) (common : e.options.onError = none)
    (local' : ∀ stage ∈ (e.resolveAll p.chain s).1, stage.definition.onError = none)
    (installed : ∀ x ∈ e.executed template p value s, x.after.onError = none)
    (untouched : ∀ x ∈ e.executed template p value s, x.failed → x.after = x.before)
    {gone : List Nat}
    (useless : ∀ i ∈ gone, i ∈ e.failures template p value s ∨
      ∀ call, p.chain[i]? = some call → e.stage? s call = none) (s' : σ) :
    (e.run template { p with chain := without gone p.chain } value s').1 =
      (e.run template p value s).1 := by
  have unguarded : ∀ x ∈ e.executed template p value s,
      e.errorHandler? x.after x.stage.definition = none := by
    intro x mem
    have own : x.stage.definition.onError = none :=
      local' x.stage ((Stage.ordered_perm _).mem_iff.1 (stage_mem_of_mem_trace mem))
    simp [errorHandler?, installed x mem, own, common]
  have failed : ∀ entry ∈ e.ran template p value s, entry.1 ∈ gone → entry.2.failed := by
    rintro ⟨i, x⟩ mem deleted
    rcases useless i deleted with failure | unknown
    · obtain ⟨⟨j, y⟩, there, rfl⟩ := List.mem_map.1 failure
      obtain ⟨mem', failed⟩ := List.mem_filter.1 there
      rw [eq_of_mem_ran mem mem']
      exact failed
    · obtain ⟨call, written, resolved⟩ := call_of_mem_ran pure' mem
      cases (unknown call written).symm.trans resolved
  have stages : Stage.ordered (e.resolveAll p.chain s).1 = (e.plan s p.chain).map Prod.fst := by
    rw [map_fst_plan, pure'.resolveAll s s]
  have fewer : Stage.ordered (e.resolveAll (without gone p.chain) s').1 =
      ((e.plan s p.chain).filter fun c => c.2 ∉ gone).map Prod.fst := by
    rw [pure'.resolveAll s s', ordered_without]
  have own := pure'.stages p.chain s
  simp only [ran, executed, stages] at own unguarded untouched failed
  rw [run_eq_runStages, run_eq_runStages, stages, fewer]
  exact congrArg (Except.map (e.wrap p))
    (runStages_without pure' own (functional_startContext template p value) unguarded untouched
      failed _)

end

/-- A call that fails twice, one that stands for no filter, and one that runs last. -/
def stumbling : Placeholder where
  name := ""
  leading := ""
  trailing := ""
  matched := "{}"
  chain := [⟨"exclaim", []⟩, ⟨"repeat", [some (.ofInt (-1))]⟩, ⟨"nothing", []⟩,
    ⟨"repeat", [some (.ofInt 2)]⟩, ⟨"repeat", [some (.ofInt (-1))]⟩]

/-- Of the chain two calls are left. -/
theorem run_without_failures_stumbling :
    let executed := framing.executed "{}" stumbling (.string "a") ()
    framing.Functional ∧ framing.options.onError.isNone ∧
      (∀ stage ∈ (framing.resolveAll stumbling.chain ()).1, stage.definition.onError = none) ∧
      (∀ x ∈ executed, x.after.onError = none) ∧ (∀ x ∈ executed, x.failed → x.after = x.before) ∧
      framing.failures "{}" stumbling (.string "a") () = [1, 4] ∧
      (without [4, 2, 1] stumbling.chain).map Call.name = ["exclaim", "repeat"] ∧
      (framing.run "{}" stumbling (.string "a") ()).1.toOption = some "aa!" ∧
      (framing.run "{}" { stumbling with chain := without [4, 2, 1] stumbling.chain }
        (.string "a") ()).1 = (framing.run "{}" stumbling (.string "a") ()).1 := by
  intro executed
  have own : ∀ stage ∈ (framing.resolveAll stumbling.chain ()).1,
      stage.definition.onError = none := by
    have all : (framing.resolveAll stumbling.chain ()).1.all
        (fun stage => stage.definition.onError.isNone) = true := by
      decide +kernel
    intro stage mem
    exact Option.isNone_iff_eq_none.1 (List.all_eq_true.1 all stage mem)
  have installed : ∀ x ∈ executed, x.after.onError = none := by
    have all : executed.all (fun x => x.after.onError.isNone) = true := by decide +kernel
    intro x mem
    exact Option.isNone_iff_eq_none.1 (List.all_eq_true.1 all x mem)
  have untouched : ∀ x ∈ executed, x.failed → x.after = x.before := by
    have transforms : executed.map (fun x => x.stage.definition.transform) =
        [.pure (Operation.apply "repeat"), .pure (Operation.apply "repeat"),
          .pure (Operation.apply "repeat"), exclaim.transform] := rfl
    intro x mem _
    have one : x.stage.definition.transform ∈
        executed.map (fun x => x.stage.definition.transform) := List.mem_map_of_mem mem
    simp only [transforms, List.mem_cons, List.not_mem_nil, or_false, or_self_left] at one
    rcases one with same | same <;> exact after_of_pure mem same
  have failures : framing.failures "{}" stumbling (.string "a") () = [1, 4] := by decide +kernel
  have useless : ∀ i ∈ [4, 2, 1], i ∈ framing.failures "{}" stumbling (.string "a") () ∨
      ∀ call, stumbling.chain[i]? = some call → framing.stage? () call = none := by
    have unknown : framing.stage? () ⟨"nothing", []⟩ = none := rfl
    rw [failures]
    intro i mem
    simp only [List.mem_cons, List.not_mem_nil, or_false] at mem
    rcases mem with rfl | rfl | rfl
    · exact .inl (by decide)
    · refine .inr fun call written => ?_
      cases written
      exact unknown
    · exact .inl (by decide)
  have same := run_without_failures functional_framing rfl own installed untouched useless ()
  exact ⟨functional_framing, rfl, own, installed, untouched, failures, by decide +kernel,
    by decide +kernel, same⟩

/-! ## 5. Empty values without a handler -/

end Engine

/-- The chain stops with the empty text behind an empty value, if no handler is in force. -/
theorem Executed.Settled.flow_of_empty {e : Engine σ} {x : Executed σ} (h : x.Settled e)
    {output : Value} (gave : x.result = .ok output) (tested : x.stage.definition.control = false)
    (isEmpty : e.options.tests output = true)
    (unhandled : e.emptyHandler? x.after x.stage.definition = none) :
    x.flow = .stop (.string "") ∧ x.left = x.asked := by
  have event := event_of_empty gave tested isEmpty
  have silent : x.Silent e := by
    simp [Silent, question?, event, unhandled]
  obtain ⟨flow, left⟩ := h.of_silent silent
  rw [event] at flow
  exact ⟨flow, left⟩

namespace Engine

section
variable {e : Engine σ} {template : String} {p : Placeholder} {value output : Value} {s : σ}
  {x : Executed σ}

/-- By default the empty text counts as empty. -/
theorem tests_empty (default : e.options.isEmpty = none) : e.options.tests (.string "") = true := by
  rw [Options.tests, default]
  decide +kernel

/-- The empty text is written without the literals if it counts as empty. -/
theorem wrap_empty (e : Engine σ) (p : Placeholder) :
    e.wrap p (.string "") =
      if e.options.tests (.string "") then "" else p.leading ++ p.trailing := by
  simp [wrap, Value.render]

/-- **An empty value without a handler leaves no more than the literals.**  The stage that has given
it is the last one, and nothing is called behind its transform.  The placeholder becomes the empty
text if that counts as empty, which by default it does, and else the two literals with nothing
between them. -/
theorem run_unhandled_empty (mem : x ∈ e.executed template p value s) (gave : x.result = .ok output)
    (tested : x.stage.definition.control = false) (isEmpty : e.options.tests output = true)
    (unhandled : e.emptyHandler? x.after x.stage.definition = none) :
    (∃ done, e.executed template p value s = done ++ [x]) ∧
      e.run template p value s =
        (.ok (if e.options.tests (.string "") then "" else p.leading ++ p.trailing), x.asked) ∧
      (e.options.isEmpty = none → (e.run template p value s).1 = .ok "") := by
  have settled : x.Settled e := settled_of_mem_executed mem
  obtain ⟨flow, left⟩ := settled.flow_of_empty gave tested isEmpty unhandled
  obtain ⟨done, later, ran⟩ := List.append_of_mem mem
  obtain rfl : later = [] := trace_last ran (by simp [flow])
  have ended : e.run template p value s = (.ok (e.wrap p (.string "")), x.asked) := by
    rw [run_eq_outcome, ran, Executed.outcome_concat, flow, left]
    rfl
  rw [ended, wrap_empty]
  refine ⟨⟨done, ran⟩, rfl, fun default => ?_⟩
  rw [if_pos (tests_empty default)]

end

/-- An engine for which the empty list counts as empty, and nothing else. -/
def choosy : Engine Unit :=
  withOptions { isEmpty := some fun value =>
    match value with
    | .array [] => true
    | _ => false }

/-- A list between parentheses. -/
def parenthesised : Placeholder where
  name := ""
  leading := "("
  trailing := ")"
  matched := "{( | reverse | join )}"
  chain := [⟨"reverse", []⟩, ⟨"join", []⟩]

/-- The empty list is reversed, and nothing is done behind that. -/
theorem executed_parenthesised : ∃ x,
    choosy.executed parenthesised.matched parenthesised (.array []) () = [x] ∧
      x.result = .ok (.array []) ∧ x.stage.definition.control = false ∧
      choosy.options.tests (.array []) = true ∧
      choosy.emptyHandler? x.after x.stage.definition = none :=
  ⟨_, rfl, rfl, rfl, rfl, rfl⟩

/-- The literals stay, as the empty text does not count as empty. -/
theorem run_unhandled_empty_parenthesised :
    let template := parenthesised.matched
    ∃ x ∈ choosy.executed template parenthesised (.array []) (),
      x.result = .ok (.array []) ∧ x.stage.definition.control = false ∧
      choosy.options.tests (.array []) = true ∧
      choosy.emptyHandler? x.after x.stage.definition = none ∧
      choosy.options.tests (.string "") = false ∧
      (choosy.run template parenthesised (.array []) ()).1 = .ok "()" := by
  intro template
  obtain ⟨x, ran, gave, tested, isEmpty, unhandled⟩ := executed_parenthesised
  have mem : x ∈ choosy.executed template parenthesised (.array []) () := by simp [template, ran]
  obtain ⟨-, text, -⟩ := run_unhandled_empty mem gave tested isEmpty unhandled
  have counts : choosy.options.tests (.string "") = false := rfl
  have literals : parenthesised.leading ++ parenthesised.trailing = "()" := by decide +kernel
  rw [counts, literals] at text
  exact ⟨x, mem, gave, tested, isEmpty, unhandled, counts, congrArg Prod.fst text⟩

/-- So an empty value without a handler does not always leave the empty text. -/
theorem exists_unhandled_empty_written :
    ¬ ∀ (e : Engine Unit) (template : String) (p : Placeholder) (value : Value) (s : Unit),
      ∀ x ∈ e.executed template p value s, ∀ output, x.result = .ok output →
        x.stage.definition.control = false → e.options.tests output = true →
        e.emptyHandler? x.after x.stage.definition = none →
        (e.run template p value s).1 = .ok "" := by
  intro always
  obtain ⟨x, ran, gave, tested, isEmpty, unhandled⟩ := executed_parenthesised
  have nothing := always choosy parenthesised.matched parenthesised (.array []) () x (by simp [ran])
    _ gave tested isEmpty unhandled
  have written : (choosy.run parenthesised.matched parenthesised (.array []) ()).1.toOption =
      some "()" := by
    decide +kernel
  rw [nothing] at written
  exact absurd written (by decide)

end Engine

end Stencil
