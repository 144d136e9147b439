/-
# Which handler is asked

Three handlers may be there for a fault: one that a filter of the chain has installed, the one of
the filter's own definition, and the one of the options; and as many for an empty value.

* `executed_handled`: of these the first that is there is asked, once, and no other; and the
  installed one is what the last stage that installed any has left, among those that were executed
  so far, the failing one included.
* With the control filter `error(..)`, whose stage runs before all stages of normal priority, this
  means: the last of its calls, as the chain is written, decides about every fault of a stage that
  runs normally or after that, wherever the call stands.

What a stage installs is seen from the context it leaves (`lastInstalled`); to install the handler
that is installed already changes nothing.
-/
import Stencil.Proofs.Order

namespace Stencil

variable {σ α : Type}

/-! ## 1. What was installed last -/

open Classical in
/-- What the last of some stages to change an override has left there.  The override is found in the
context, `slot` says where. -/
noncomputable def lastInstalled (slot : Context σ → Option α) (xs : List (Executed σ)) : Option α :=
  (xs.filter fun x => slot x.after ≠ slot x.before).getLast?.bind fun x => slot x.after

theorem lastInstalled_append_kept {slot : Context σ → Option α} {x : Executed σ}
    (kept : slot x.after = slot x.before) (done : List (Executed σ)) :
    lastInstalled slot (done ++ [x]) = lastInstalled slot done := by
  simp [lastInstalled, kept]

theorem lastInstalled_append_changed {slot : Context σ → Option α} {x : Executed σ}
    (changed : slot x.after ≠ slot x.before) (done : List (Executed σ)) :
    lastInstalled slot (done ++ [x]) = slot x.after := by
  simp [lastInstalled, changed]

namespace Engine

variable {e : Engine σ} {ctx : Context σ} {value : Value} {stages : List (Stage σ)} {s : σ}
  {x : Executed σ} {done later : List (Executed σ)}

/-- The override that a stage leaves is the one that was installed last. -/
theorem slot_after_eq {slot : Context σ → Option α}
    (framed : ∀ ctx slots section?,
      slot { ctx with args := slots, config := section? } = slot ctx)
    (nothing : slot ctx = none) (h : e.trace ctx value stages s = done ++ x :: later) :
    slot x.after = lastInstalled slot (done ++ [x]) := by
  induction done using List.reverseRecOn generalizing x later with
  | nil =>
    obtain ⟨ctx', value', s', starts, observed⟩ := trace_cases h
    obtain ⟨rfl, -, -⟩ := starts.first rfl
    have before : slot x.before = none := by
      rw [observed]
      exact (framed _ _ _).trans nothing
    by_cases changed : slot x.after = slot x.before
    · rw [lastInstalled_append_kept changed, changed, before]
      rfl
    · rw [lastInstalled_append_changed changed]
  | append_singleton done y ih =>
    obtain ⟨ctx', value', s', starts, observed⟩ := trace_cases h
    obtain ⟨rfl, -, -⟩ := starts.next y List.getLast?_concat
    have before : slot x.before = slot y.after := by
      rw [observed]
      exact framed _ _ _
    by_cases changed : slot x.after = slot x.before
    · rw [lastInstalled_append_kept changed, changed, before]
      rw [List.append_assoc] at h
      exact ih h
    · rw [lastInstalled_append_changed changed]

/-- **The handler in force** is asked about each stage that is executed, once. -/
theorem trace_handled (noError : ctx.onError = none) (noEmpty : ctx.onEmpty = none)
    (h : e.trace ctx value stages s = done ++ x :: later) :
    x.Handled e
      (lastInstalled Context.onError (done ++ [x]) <|> x.stage.definition.onError <|>
        e.options.onError)
      (lastInstalled Context.onEmpty (done ++ [x]) <|> x.stage.definition.onEmpty <|>
        e.options.onEmpty) := by
  have onError := slot_after_eq (fun _ _ _ => rfl) noError h
  have onEmpty := slot_after_eq (fun _ _ _ => rfl) noEmpty h
  obtain ⟨ctx', value', s', -, observed⟩ := trace_cases h
  have handled := e.observe_handled x.stage ctx' value' s'
  rw [← observed] at handled
  rw [← onError, ← onEmpty]
  exact handled

/-! ## 2. The control filter for faults -/

end Engine

/-- What a call of the control filter for faults makes of the faults behind it. -/
def Control.errorPolicy (slots : List Slot) : Behavior :=
  let args := Arguments.layered [("operate", .string "ignore")] none
    (some ["operate", "message"]) slots
  (Keyword.read .ignore (args.text? "operate")).behavior (Control.payload args "message")

/-- A handler that answers the same to every fault. -/
def ErrorHandler.always (answer : Behavior) : ErrorHandler σ := fun _ _ _ _ => pure (.ok answer)

namespace Engine

variable {e : Engine σ} {ctx : Context σ} {value : Value} {stages : List (Stage σ)} {s : σ}
  {x : Executed σ} {done later : List (Executed σ)}

theorem observe_error (slots : List Slot) :
    (e.observe ⟨Control.error, slots⟩ ctx value s).after.onError =
      some (ErrorHandler.always (Control.errorPolicy slots)) := rfl

/-- Stages behind the last call of the control filter find its handler. -/
theorem onError_behind {front behind : List (Stage σ)} {slots : List Slot}
    (last : ∀ stage ∈ behind, stage.definition ≠ Control.error)
    (others : ∀ x ∈ e.trace ctx value (front ++ ⟨Control.error, slots⟩ :: behind) s,
      x.stage.definition ≠ Control.error → x.after.onError = x.before.onError) :
    ∀ x ∈ e.trace ctx value (front ++ ⟨Control.error, slots⟩ :: behind) s,
      x.stage ∈ front ∨ x.stage = ⟨Control.error, slots⟩ ∨
        x.after.onError = some (ErrorHandler.always (Control.errorPolicy slots)) := by
  induction front generalizing ctx value s with
  | nil =>
    obtain ⟨-, nothing | ⟨next, -, tail⟩⟩ := trace_cons_eq (Eq.refl (e.trace ctx value _ s))
    · rw [List.nil_append, trace, nothing]
      exact List.forall_mem_singleton.2 (Or.inr (Or.inl rfl))
    · rw [List.nil_append, trace, tail] at others ⊢
      refine List.forall_mem_cons.2 ⟨Or.inr (Or.inl rfl), fun x mem => Or.inr (Or.inr ?_)⟩
      obtain ⟨-, others⟩ := List.forall_mem_cons.1 others
      let installed (ctx : Context σ) : Prop :=
        ctx.onError = some (ErrorHandler.always (Control.errorPolicy slots))
      refine (@forall_trace _ _ _ _ _ _ installed (fun _ _ _ same => same) ?_
        (observe_error slots) x mem).2
      intro y inside before
      have other := last y.stage (stage_mem_of_mem_trace inside)
      exact (others y inside other).trans before
  | cons stage front ih =>
    obtain ⟨-, nothing | ⟨next, -, tail⟩⟩ := trace_cons_eq (Eq.refl (e.trace ctx value _ s))
    · rw [List.cons_append, trace, nothing]
      exact List.forall_mem_singleton.2 (Or.inl List.mem_cons_self)
    · rw [List.cons_append, trace, tail] at others ⊢
      refine List.forall_mem_cons.2 ⟨Or.inl List.mem_cons_self, fun x mem => ?_⟩
      rcases ih (List.forall_mem_cons.1 others).2 x mem with inFront | here
      · exact Or.inl (List.mem_cons_of_mem _ inFront)
      · exact Or.inr here

/-- The stages of two chains one behind the other. -/
theorem resolveAll_append (front behind : List Call) (s : σ) :
    e.resolveAll (front ++ behind) s =
      ((e.resolveAll front s).1 ++ (e.resolveAll behind (e.resolveAll front s).2).1,
        (e.resolveAll behind (e.resolveAll front s).2).2) := by
  induction front generalizing s with
  | nil => rfl
  | cons call front ih =>
    obtain ⟨d?, s', resolved⟩ : ∃ d? s', e.resolve call.name s = (d?, s') := ⟨_, _, rfl⟩
    simp only [List.cons_append, Engine.resolveAll, bind, StateT.bind, resolved, ih]
    cases d? <;> rfl

/-- The last call of the control filter stands in front of all stages that do not run before the
normal ones, and of those that do but are written behind it. -/
theorem ordered_error (front behind : List (Stage σ)) (slots : List Slot) :
    Stage.ordered (front ++ ⟨Control.error, slots⟩ :: behind) =
      Stage.ofPriority .before front ++ ⟨Control.error, slots⟩ ::
        (Stage.ofPriority .before behind ++
          (Stage.ofPriority .normal (front ++ behind) ++
            Stage.ofPriority .after (front ++ behind))) := by
  rw [Stage.ordered_eq]
  simp [Priority.inOrder, Stage.ofPriority, Control.error]

theorem ne_error_of_priority {d : Definition σ} (other : d.priority ≠ .before) :
    d ≠ Control.error := by
  rintro rfl
  exact other rfl

/-- A fault with an answer that is known beforehand. -/
theorem flow_of_always {answer : Behavior} {fault : Fault} (failed : x.result = .error fault)
    (inForce : x.after.onError = some (ErrorHandler.always answer))
    (handled : x.Handled e (e.errorHandler? x.after x.stage.definition)
      (e.emptyHandler? x.after x.stage.definition)) :
    x.flow = .afterFault x.name fault x.input (some (.ok answer)) ∧ x.left = x.asked := by
  have event : x.event e = .fault fault := by simp [Executed.event, failed]
  have override : e.errorHandler? x.after x.stage.definition =
      some (ErrorHandler.always answer) := by simp [errorHandler?, inForce]
  simp only [Executed.Handled, Executed.question?, event, override, Option.map_some] at handled
  exact handled

/-- The stages of a chain with a call of the registered control filter. -/
theorem stages_of_error (registered : e.filter? "error" = some Control.error) (front : List Call)
    (slots : List Slot) (behind : List Call) (s : σ) :
    (e.resolveAll (front ++ ⟨"error", slots⟩ :: behind) s).1 =
      (e.resolveAll front s).1 ++ ⟨Control.error, slots⟩ ::
        (e.resolveAll behind (e.resolveAll front s).2).1 := by
  rw [resolveAll_append]
  simp only [Engine.resolveAll, Engine.resolve, registered]
  rfl

/-- The last call of the control filter decides about the stages that do not run before the normal
ones. -/
theorem flow_of_error {front behind : List (Stage σ)} {slots : List Slot}
    (last : ∀ stage ∈ behind, stage.definition ≠ Control.error)
    (others : ∀ x ∈ e.trace ctx value (Stage.ordered (front ++ ⟨Control.error, slots⟩ :: behind)) s,
      x.stage.definition ≠ Control.error → x.after.onError = x.before.onError)
    (mem : x ∈ e.trace ctx value (Stage.ordered (front ++ ⟨Control.error, slots⟩ :: behind)) s)
    (priority : x.stage.definition.priority ≠ .before) {fault : Fault}
    (failed : x.result = .error fault) :
    x.flow = .afterFault x.name fault x.input (some (.ok (Control.errorPolicy slots))) ∧
      x.left = x.asked := by
  rw [ordered_error] at others mem
  have later : ∀ stage ∈ Stage.ofPriority .before behind ++
      (Stage.ofPriority .normal (front ++ behind) ++ Stage.ofPriority .after (front ++ behind)),
      stage.definition ≠ Control.error := by
    intro stage inside
    rcases List.mem_append.1 inside with first | inside
    · exact last stage (List.mem_filter.1 first).1
    · refine ne_error_of_priority ?_
      rcases List.mem_append.1 inside with inside | inside
      · simp [of_decide_eq_true (List.mem_filter.1 inside).2]
      · simp [of_decide_eq_true (List.mem_filter.1 inside).2]
  obtain ⟨done, behind', h⟩ := List.append_of_mem mem
  obtain ⟨ctx', value', s', -, observed⟩ := trace_cases h
  have handled := e.observe_handled x.stage ctx' value' s'
  rw [← observed] at handled
  rcases onError_behind later others x mem with first | same | inForce
  · exact absurd (of_decide_eq_true (List.mem_filter.1 first).2) priority
  · exact absurd (congrArg (fun stage => stage.definition.priority) same) priority
  · exact flow_of_always failed inForce handled

/-- **At most one handler is asked about a stage, and once.**  A run is its entries one behind the
other.  Each asks, about a fault or an empty value, the handler that was installed last by the
stages executed so far, its own included; if none was, that of its definition; if there is none,
that of the options.

With the control filter for faults registered, its last call in the chain decides alone about the
faults of all stages that do not run before the normal ones, wherever it is written, if no other
stage installs a handler for faults.  No other handler is called for these faults. -/
theorem executed_handled (e : Engine σ) (template : String) (p : Placeholder) (value : Value)
    (s : σ) :
    let ran := e.executed template p value s
    let start := (e.resolveAll p.chain s).2
    let ended := Executed.outcome value start ran
    e.run template p value s = (ended.1.map (e.wrap p), ended.2) ∧
    (∀ done x later, ran = done ++ x :: later →
      (∃ ctx' value' s', Starts (startContext template p value) value start done ctx' value' s' ∧
        x = e.observe x.stage ctx' value' s') ∧
      x.Handled e
        (lastInstalled Context.onError (done ++ [x]) <|> x.stage.definition.onError <|>
          e.options.onError)
        (lastInstalled Context.onEmpty (done ++ [x]) <|> x.stage.definition.onEmpty <|>
          e.options.onEmpty)) ∧
    (e.filter? "error" = some Control.error → ∀ front slots behind,
      p.chain = front ++ ⟨"error", slots⟩ :: behind →
      (∀ stage ∈ (e.resolveAll behind (e.resolveAll front s).2).1,
        stage.definition ≠ Control.error) →
      (∀ x ∈ ran, x.stage.definition ≠ Control.error → x.after.onError = x.before.onError) →
      ∀ x ∈ ran, x.stage.definition.priority ≠ .before → ∀ fault, x.result = .error fault →
        x.flow = .afterFault x.name fault x.input (some (.ok (Control.errorPolicy slots))) ∧
          x.left = x.asked) := by
  intro ran start ended
  refine ⟨e.run_eq_outcome template p value s, ?_, ?_⟩
  · intro done x later h
    exact ⟨trace_cases h, trace_handled rfl rfl h⟩
  · intro registered front slots behind chain last others x mem priority fault failed
    have stages := stages_of_error registered front slots behind s
    rw [← chain] at stages
    have ran_eq : ran = e.trace (startContext template p value) value _ _ := rfl
    rw [stages] at ran_eq
    rw [ran_eq] at others mem
    exact flow_of_error last others mem priority failed

/-- A filter that always fails, with a handler of its own. -/
def explode : Definition (List String) where
  name := "explode"
  transform := fun _ _ ctx log => ((.error (.custom "boom"), ctx), log)
  onError := some fun _ _ _ _ log => (.ok (.throw none), log ++ ["its own"])

/-- An engine with this filter and with a handler for all faults.  Handlers note that they were
asked. -/
def alarmed : Engine (List String) where
  options := { onError := some fun _ _ _ _ log => (.ok (.throw none), log ++ ["the common one"]) }
  filters := [("error", Control.error), ("explode", explode)]

/-- A filter that fails, with a control filter written behind it. -/
def guarded : Placeholder where
  name := ""
  leading := ""
  trailing := ""
  matched := "{}"
  chain := [⟨"explode", []⟩, ⟨"error", [some (.string "abort"), some (.string "N/A")]⟩]

/-- The control filter decides, though it is written last, and no handler notes anything. -/
theorem executed_handled_guarded :
    alarmed.filter? "error" = some Control.error ∧
      (alarmed.run "{}" guarded (.string "7") []).1.toOption = some "N/A" ∧
      (alarmed.run "{}" guarded (.string "7") []).2 = [] ∧
      ∃ x ∈ alarmed.executed "{}" guarded (.string "7") [],
        x.result = .error (.custom "boom") ∧ x.flow = .stop (.string "N/A") ∧ x.left = [] := by
  obtain ⟨y, x, ran, control, kept, failing, failed, silent⟩ : ∃ y x,
      alarmed.executed "{}" guarded (.string "7") [] = [y, x] ∧
        y.stage.definition = Control.error ∧ x.after.onError = x.before.onError ∧
        x.stage = ⟨explode, []⟩ ∧ x.result = .error (.custom "boom") ∧ x.asked = [] :=
    ⟨_, _, rfl, rfl, rfl, rfl, rfl, rfl⟩
  have inside : x ∈ alarmed.executed "{}" guarded (.string "7") [] := by simp [ran]
  have normal : x.stage.definition.priority ≠ .before := by
    rw [failing]
    exact fun no => nomatch no
  have others : ∀ z ∈ alarmed.executed "{}" guarded (.string "7") [],
      z.stage.definition ≠ Control.error → z.after.onError = z.before.onError := by
    intro z mem other
    simp only [ran, List.mem_cons, List.not_mem_nil, or_false] at mem
    rcases mem with rfl | rfl
    · exact absurd control other
    · exact kept
  have policy : Control.errorPolicy [some (.string "abort"), some (.string "N/A")] =
    .abort (some (.string "N/A")) := rfl
  obtain ⟨flow, left⟩ := (executed_handled alarmed "{}" guarded (.string "7") []).2.2 rfl
    [⟨"explode", []⟩] _ [] rfl (fun stage no => absurd no List.not_mem_nil) others x inside normal _
    failed
  rw [policy] at flow
  exact ⟨rfl, by decide +kernel, by decide +kernel, x, inside, failed, flow, left.trans silent⟩

end Engine

end Stencil
