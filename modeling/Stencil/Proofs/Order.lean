/-
# The order of stages

A chain runs its filters by priority, and within a priority as they are written.  So of a chain only
the calls of each priority count, in their order, and not how those of different priorities are
mixed.

* `ordered_eq`: the stages in the order in which they run are those that run before, the normal ones
  and those that run after, each as they are written;
* `run_eq_of_callsOf_eq`: for an engine whose callbacks are functions, two chains with the same
  calls of each priority make the same of every value.

A callback is a function of its input when its result does not depend on the state (`Functional`).
What a transform installs in the context are callbacks too, so this is asked of the handlers that it
gives back, provided that those it was given are functions (`Definition.Functional`).
-/
import Stencil.Proofs.Trace

namespace Stencil

variable {σ α β : Type}

/-! ## 1. Stages in the order of their priorities -/

/-- The priorities in the order in which they run. -/
def Priority.inOrder : List Priority := [.before, .normal, .after]

/-- Entries that have priorities, those of each priority in turn: none is lost or doubled. -/
theorem Priority.perm_inOrder (priority? : α → Option Priority) (xs : List α) :
    (inOrder.flatMap fun priority => xs.filter fun a => priority? a = some priority).Perm
      (xs.filter fun a => (priority? a).isSome) := by
  simp only [inOrder, List.flatMap_cons, List.flatMap_nil, List.append_nil]
  induction xs with
  | nil => exact List.Perm.refl _
  | cons a rest ih =>
    simp only [List.filter_cons]
    cases priority? a with
    | none => simpa using ih
    | some priority =>
      cases priority with
      | before => simpa using ih
      | normal =>
        have moved := List.perm_middle.trans (ih.cons a)
        simpa using moved
      | after =>
        rw [← List.append_assoc] at ih
        have moved := List.perm_middle.trans (ih.cons a)
        simpa using moved

namespace Stage

/-- The stages of one priority, as they are written. -/
def ofPriority (priority : Priority) (stages : List (Stage σ)) : List (Stage σ) :=
  stages.filter fun stage => stage.definition.priority = priority

/-- A stage goes behind those of a lower rank and in front of the others. -/
theorem place_between {s : Stage σ} {front behind : List (Stage σ)}
    (lower : ∀ t ∈ front, t.rank < s.rank) (others : ∀ t ∈ behind, s.rank ≤ t.rank) :
    s.place (front ++ behind) = front ++ s :: behind := by
  induction front with
  | nil =>
    cases behind with
    | nil => rfl
    | cons t behind => exact if_pos (others t List.mem_cons_self)
  | cons t front ih =>
    obtain ⟨here, later⟩ := List.forall_mem_cons.1 lower
    rw [List.cons_append, place, if_neg (Nat.not_le.2 here), ih later]
    rfl

theorem rank_of_mem {priority : Priority} {stages : List (Stage σ)} {t : Stage σ}
    (h : t ∈ ofPriority priority stages) : t.rank = priority.rank := by
  have same : t.definition.priority = priority := by simpa using (List.mem_filter.1 h).2
  rw [rank, same]

theorem ofPriority_cons (s : Stage σ) (rest : List (Stage σ)) (priority : Priority) :
    ofPriority priority (s :: rest) =
      if s.definition.priority = priority then s :: ofPriority priority rest
      else ofPriority priority rest := by
  simp [ofPriority, List.filter_cons]

/-- **Stages run by priority**, and within a priority as they are written. -/
theorem ordered_eq (stages : List (Stage σ)) :
    ordered stages = Priority.inOrder.flatMap fun priority => ofPriority priority stages := by
  simp only [Priority.inOrder, List.flatMap_cons, List.flatMap_nil, List.append_nil]
  induction stages with
  | nil => rfl
  | cons s rest ih =>
    have rank : s.rank = s.definition.priority.rank := rfl
    have ranks : ∀ priority, ∀ t ∈ ofPriority priority rest, t.rank = priority.rank :=
      fun _ _ mem => rank_of_mem mem
    have first : ordered (s :: rest) = s.place (ordered rest) := rfl
    simp only [first, ih, ofPriority_cons]
    cases priority : s.definition.priority with
    | before =>
      have others : ∀ t ∈ ofPriority .before rest ++
          (ofPriority .normal rest ++ ofPriority .after rest), s.rank ≤ t.rank := by
        intro t _
        rw [rank, priority]
        exact Nat.zero_le _
      exact @place_between _ s [] _ (fun t no => absurd no List.not_mem_nil) others
    | normal =>
      have lower : ∀ t ∈ ofPriority .before rest, t.rank < s.rank := by
        intro t mem
        rw [ranks _ t mem, rank, priority]
        decide
      have others : ∀ t ∈ ofPriority .normal rest ++ ofPriority .after rest,
          s.rank ≤ t.rank := by
        intro t mem
        rw [rank, priority]
        rcases List.mem_append.1 mem with mem | mem
        · exact (ranks _ t mem).ge
        · rw [ranks _ t mem]
          decide
      exact place_between lower others
    | after =>
      have lower : ∀ t ∈ ofPriority .before rest ++ ofPriority .normal rest,
          t.rank < s.rank := by
        intro t mem
        rw [rank, priority]
        rcases List.mem_append.1 mem with mem | mem <;> rw [ranks _ t mem] <;> decide
      have others : ∀ t ∈ ofPriority .after rest, s.rank ≤ t.rank := by
        intro t mem
        rw [ranks _ t mem, rank, priority]
      have between := place_between lower others
      rwa [List.append_assoc, List.append_assoc] at between

/-- No stage is lost or doubled. -/
theorem ordered_perm (stages : List (Stage σ)) : (ordered stages).Perm stages := by
  rw [ordered_eq]
  simpa [ofPriority] using
    Priority.perm_inOrder (fun stage : Stage σ => some stage.definition.priority) stages

end Stage

/-! ## 2. Callbacks that are functions -/

/-- The result does not depend on the state. -/
def Functional (m : StateM σ α) : Prop := ∀ s s', (m s).1 = (m s').1

theorem functional_pure (a : α) : Functional (pure a : StateM σ α) := fun _ _ => rfl

theorem Functional.bind {m : StateM σ α} {f : α → StateM σ β} (first : Functional m)
    (then' : ∀ s, Functional (f (m s).1)) : Functional (m >>= f) := by
  intro s s'
  show (f (m s).1 (m s).2).1 = (f (m s').1 (m s').2).1
  rw [first s s']
  exact then' s' _ _

/-- A handler for faults that is a function. -/
def ErrorHandler.Functional (h : ErrorHandler σ) : Prop :=
  ∀ fault input args occasion, Stencil.Functional (h fault input args occasion)

/-- A handler for empty values that is a function. -/
def EmptyHandler.Functional (h : EmptyHandler σ) : Prop :=
  ∀ empty args occasion, Stencil.Functional (h empty args occasion)

/-- The handlers that filters have installed are functions. -/
structure Context.Functional (ctx : Context σ) : Prop where
  onError : ∀ h ∈ ctx.onError, ErrorHandler.Functional h
  onEmpty : ∀ h ∈ ctx.onEmpty, EmptyHandler.Functional h

/-- The callbacks of a definition are functions, and so are the handlers that its transform
installs. -/
structure Definition.Functional (d : Definition σ) : Prop where
  defaults : Stencil.Functional d.defaults.evaluate
  transform : ∀ value args ctx, ctx.Functional → Stencil.Functional (d.transform value args ctx)
  installed : ∀ value args ctx, ctx.Functional → ∀ s, (d.transform value args ctx s).1.2.Functional
  onError : ∀ h ∈ d.onError, ErrorHandler.Functional h
  onEmpty : ∀ h ∈ d.onEmpty, EmptyHandler.Functional h

/-- All callbacks of an engine are functions: those of its filters, of the filters that its source
hands back, and those of its options. -/
structure Engine.Functional (e : Engine σ) : Prop where
  filters : ∀ name, ∀ d ∈ e.filter? name, d.Functional
  source : ∀ source ∈ e.options.source, ∀ name, Stencil.Functional (source name)
  supplied : ∀ source ∈ e.options.source, ∀ name s, ∀ supplied ∈ (source name s).1,
    (supplied.toDefinition name).Functional
  onError : ∀ h ∈ e.options.onError, ErrorHandler.Functional h
  onEmpty : ∀ h ∈ e.options.onEmpty, EmptyHandler.Functional h

/-! ## 3. A run with callbacks that are functions -/

theorem Context.Functional.withArgs {ctx : Context σ} (h : ctx.Functional) (slots : List Slot)
    (section? : Option Value) :
    Context.Functional { ctx with args := slots, config := section? } :=
  ⟨h.onError, h.onEmpty⟩

namespace Engine

variable {e : Engine σ}

/-- No handler is installed where a chain starts. -/
theorem functional_startContext (template : String) (p : Placeholder) (value : Value) :
    (startContext template p value : Context σ).Functional := by
  constructor <;> simp [startContext]

/-- The built-in operations are functions. -/
theorem functional_operation (name : String) :
    ∀ d ∈ (Operation.definition? name : Option (Definition σ)), d.Functional := by
  intro d found
  unfold Operation.definition? at found
  split at found
  · cases found
    constructor
    · exact functional_pure []
    · intro value args ctx _
      exact functional_pure (Operation.apply name value args, ctx)
    · intro value args ctx given _
      exact given
    · exact fun h no => nomatch no
    · exact fun h no => nomatch no
  · cases found

theorem Functional.resolve (pure' : e.Functional) (name : String) :
    Stencil.Functional (e.resolve name) := by
  unfold Engine.resolve
  split
  · exact functional_pure _
  · split
    · exact functional_pure _
    · rename_i source supplies
      refine (pure'.source source supplies name).bind fun s => ?_
      split <;> exact functional_pure _

/-- Names stand for filters whose callbacks are functions. -/
theorem Functional.definition (pure' : e.Functional) (name : String) (s : σ) :
    ∀ d ∈ (e.resolve name s).1, d.Functional := by
  unfold Engine.resolve
  cases registered : e.filter? name with
  | some d =>
    intro d' found
    cases found
    exact pure'.filters name d registered
  | none =>
    cases supplies : e.options.source with
    | none => exact functional_operation name
    | some source =>
      have handed := pure'.supplied source supplies name s
      simp only [bind, StateT.bind]
      cases found : source name s with
      | mk supplied s' =>
        rw [found] at handed
        cases supplied with
        | none => exact functional_operation name
        | some supplied =>
          intro d same
          cases same
          exact handed supplied rfl

section
variable {ctx : Context σ} {d : Definition σ}

theorem Functional.errorHandler (pure' : e.Functional) (given : ctx.Functional)
    (own : d.Functional) : ∀ h ∈ e.errorHandler? ctx d, ErrorHandler.Functional h := by
  intro h inForce
  simp only [errorHandler?, Option.mem_def, Option.orElse_eq_orElse, Option.orElse_eq_or,
    Option.or_eq_some_iff] at inForce
  rcases inForce with override | ⟨-, local' | ⟨-, global⟩⟩
  · exact given.onError h override
  · exact own.onError h local'
  · exact pure'.onError h global

theorem Functional.emptyHandler (pure' : e.Functional) (given : ctx.Functional)
    (own : d.Functional) : ∀ h ∈ e.emptyHandler? ctx d, EmptyHandler.Functional h := by
  intro h inForce
  simp only [emptyHandler?, Option.mem_def, Option.orElse_eq_orElse, Option.orElse_eq_or,
    Option.or_eq_some_iff] at inForce
  rcases inForce with override | ⟨-, local' | ⟨-, global⟩⟩
  · exact given.onEmpty h override
  · exact own.onEmpty h local'
  · exact pure'.onEmpty h global

theorem Functional.handleFault (pure' : e.Functional) (given : ctx.Functional)
    (own : d.Functional) (args : Arguments) (fault : Fault) (input : Value) :
    Stencil.Functional (e.handleFault ctx d args fault input) := by
  unfold Engine.handleFault
  split
  · exact functional_pure _
  · rename_i h inForce
    have asked := pure'.errorHandler given own h inForce fault input args ctx.toOccasion
    exact asked.bind fun _ => functional_pure _

theorem Functional.handleEmpty (pure' : e.Functional) (given : ctx.Functional)
    (own : d.Functional) (args : Arguments) (input empty : Value) :
    Stencil.Functional (e.handleEmpty ctx d args input empty) := by
  unfold Engine.handleEmpty
  split
  · exact functional_pure _
  · rename_i h inForce
    have asked := pure'.emptyHandler given own h inForce empty args ctx.toOccasion
    exact asked.bind fun _ => functional_pure _

theorem Functional.settle (pure' : e.Functional) (given : ctx.Functional) (own : d.Functional)
    (args : Arguments) (input : Value) (result : Except Fault Value) :
    Stencil.Functional (e.settle d args input ctx result) := by
  cases result with
  | error fault =>
    exact (pure'.handleFault given own args fault input).bind fun _ => functional_pure _
  | ok output =>
    simp only [Engine.settle]
    split
    · exact functional_pure _
    · exact (pure'.handleEmpty given own args input output).bind fun _ => functional_pure _

end

/-- What one stage does is a function of its value and its context. -/
theorem Functional.runStage (pure' : e.Functional) {stage : Stage σ}
    (own : stage.definition.Functional) {ctx : Context σ} (given : ctx.Functional)
    (input : Value) : Stencil.Functional (e.runStage stage ctx input) := by
  refine own.defaults.bind fun s => ?_
  refine (own.transform _ _ _ (given.withArgs _ _)).bind fun s' => ?_
  exact pure'.settle (own.installed _ _ _ (given.withArgs _ _) s') own _ input _

/-- A stage hands on a context whose handlers are functions. -/
theorem functional_after {stage : Stage σ} (own : stage.definition.Functional) {ctx : Context σ}
    (given : ctx.Functional) (input : Value) (s : σ) :
    (e.runStage stage ctx input s).1.2.Functional := by
  rw [runStage_eq_observe]
  exact own.installed _ _ _ (given.withArgs _ _) _

/-- What a chain does is a function of its value and its context. -/
theorem Functional.runStages (pure' : e.Functional) {stages : List (Stage σ)}
    (own : ∀ stage ∈ stages, stage.definition.Functional) {ctx : Context σ}
    (given : ctx.Functional) (value : Value) :
    Stencil.Functional (e.runStages ctx value stages) := by
  induction stages generalizing ctx value with
  | nil => exact functional_pure _
  | cons stage rest ih =>
    obtain ⟨here, behind⟩ := List.forall_mem_cons.1 own
    refine (pure'.runStage here given value).bind fun s => ?_
    have after := functional_after (e := e) here given value s
    generalize (e.runStage stage ctx value s).1 = ended at after ⊢
    obtain ⟨flow, ctx'⟩ := ended
    cases flow with
    | proceed next => exact ih behind after next
    | stop last => exact functional_pure _
    | raise error => exact functional_pure _

/-! ## 4. Calls by priority -/

variable (e)

/-- The stage of a call, if its name stands for a filter. -/
def stage? (s : σ) (call : Call) : Option (Stage σ) :=
  (e.resolve call.name s).1.map fun d => ⟨d, call.args⟩

/-- The calls of a chain that stand for filters of a priority, as they are written. -/
def callsOf (s : σ) (priority : Priority) (chain : List Call) : List Call :=
  chain.filter fun call => (e.resolve call.name s).1.any fun d => d.priority = priority

variable {e}

theorem Functional.resolveAll (pure' : e.Functional) (s s' : σ) (chain : List Call) :
    (e.resolveAll chain s').1 = chain.filterMap (e.stage? s) := by
  induction chain generalizing s' with
  | nil => rfl
  | cons call rest ih =>
    have same : (e.resolve call.name s').1 = (e.resolve call.name s).1 :=
      pure'.resolve call.name s' s
    obtain ⟨d?, s'', resolved⟩ : ∃ d? s'', e.resolve call.name s' = (d?, s'') := ⟨_, _, rfl⟩
    rw [resolved] at same
    simp only [Engine.resolveAll, bind, StateT.bind, resolved, List.filterMap_cons, stage?, ← same,
      ← ih s'']
    cases d? <;> rfl

/-- The stages of a priority are those of the calls of that priority. -/
theorem ofPriority_stages (s : σ) (priority : Priority) (chain : List Call) :
    Stage.ofPriority priority (chain.filterMap (e.stage? s)) =
      (e.callsOf s priority chain).filterMap (e.stage? s) := by
  induction chain with
  | nil => rfl
  | cons call rest ih =>
    unfold callsOf at ih ⊢
    cases found : (e.resolve call.name s).1 with
    | none => simp [stage?, found, ih]
    | some d =>
      by_cases same : d.priority = priority <;>
        simp [stage?, found, Stage.ofPriority_cons, same, ih]

/-- The stages of a chain in the order in which they run. -/
theorem ordered_stages (s : σ) (chain : List Call) :
    Stage.ordered (chain.filterMap (e.stage? s)) =
      (Priority.inOrder.flatMap fun priority => e.callsOf s priority chain).filterMap
        (e.stage? s) := by
  rw [Stage.ordered_eq, List.filterMap_flatMap]
  exact List.flatMap_congr fun priority _ => ofPriority_stages s priority chain

/-- No call that stands for a filter is lost or doubled. -/
theorem callsOf_perm (s : σ) (chain : List Call) :
    (Priority.inOrder.flatMap fun priority => e.callsOf s priority chain).Perm
      (chain.filter fun call => (e.resolve call.name s).1.isSome) := by
  have same : ∀ (call : Call) priority,
      (e.resolve call.name s).1.any (fun d => d.priority = priority) =
        decide ((e.resolve call.name s).1.map Definition.priority = some priority) := by
    intro call priority
    cases (e.resolve call.name s).1 <;> simp
  simpa [callsOf, same] using Priority.perm_inOrder
    (fun call : Call => (e.resolve call.name s).1.map Definition.priority) chain

/-- The filters of a chain are functions. -/
theorem Functional.stages (pure' : e.Functional) (chain : List Call) (s : σ) :
    ∀ stage ∈ Stage.ordered (e.resolveAll chain s).1, stage.definition.Functional := by
  intro stage mem
  rw [pure'.resolveAll s s, ordered_stages] at mem
  obtain ⟨call, -, found⟩ := List.mem_filterMap.1 mem
  obtain ⟨d, resolved, rfl⟩ := Option.map_eq_some_iff.1 found
  exact pure'.definition call.name s d resolved

theorem run_eq_runStages (template : String) (p : Placeholder) (value : Value) (s : σ) :
    let resolved := e.resolveAll p.chain s
    (e.run template p value s).1 = (e.runStages (startContext template p value) value
      (Stage.ordered resolved.1) resolved.2).1.map (e.wrap p) := by
  intro resolved
  rw [run_eq_outcome, runStages_eq_outcome]
  rfl

/-- **Only the order within a priority matters.**  An engine whose callbacks are functions runs of a
chain the calls that stand for filters, those of each priority as they are written, until one of
them ends the chain.  So a placeholder makes the same of a value with any chain that has the same
calls of each priority. -/
theorem run_eq_of_callsOf_eq (pure' : e.Functional) (s : σ) (template : String) (p : Placeholder)
    (value : Value) (s₁ s₂ : σ) :
    let calls := Priority.inOrder.flatMap fun priority => e.callsOf s priority p.chain
    let ran := e.executed template p value s₁
    calls.Perm (p.chain.filter fun call => (e.resolve call.name s).1.isSome) ∧
      ran.map Executed.stage <+: calls.filterMap (e.stage? s) ∧
      ((∀ x ∈ ran, ∃ next, x.flow = .proceed next) →
        ran.map Executed.stage = calls.filterMap (e.stage? s)) ∧
      ∀ chain, (∀ priority, e.callsOf s priority p.chain = e.callsOf s priority chain) →
        (e.run template p value s₁).1 = (e.run template { p with chain } value s₂).1 := by
  intro calls ran
  have stages : ∀ chain s', Stage.ordered (e.resolveAll chain s').1 =
      (Priority.inOrder.flatMap fun priority => e.callsOf s priority chain).filterMap
        (e.stage? s) := by
    intro chain s'
    rw [pure'.resolveAll s s', ordered_stages]
  refine ⟨callsOf_perm s p.chain, ?_, ?_, ?_⟩
  · rw [← stages p.chain s₁]
    exact trace_stages
  · rw [← stages p.chain s₁]
    exact trace_complete
  · intro chain same
    have sameStages : Stage.ordered (e.resolveAll p.chain s₁).1 =
        Stage.ordered (e.resolveAll chain s₂).1 := by
      rw [stages, stages]
      simp only [same]
    rw [run_eq_runStages, run_eq_runStages, sameStages]
    exact congrArg (Except.map (e.wrap p))
      (pure'.runStages (pure'.stages chain s₂) (functional_startContext template p value) value _ _)

/-! ## 5. A new engine -/

theorem functional_error : (Control.error : Definition σ).Functional := by
  constructor
  · exact functional_pure _
  · exact fun value args ctx _ s s' => rfl
  · intro value args ctx given s
    refine ⟨fun h installed => ?_, given.onEmpty⟩
    cases installed
    exact fun _ _ _ _ => functional_pure _
  · exact fun h no => (nomatch no)
  · exact fun h no => (nomatch no)

theorem functional_empty : (Control.empty : Definition σ).Functional := by
  constructor
  · exact functional_pure _
  · exact fun value args ctx _ s s' => rfl
  · intro value args ctx given s
    refine ⟨given.onError, fun h installed => ?_⟩
    cases installed
    exact fun _ _ _ => functional_pure _
  · exact fun h no => (nomatch no)
  · exact fun h no => (nomatch no)

/-- With options at their defaults the filters alone matter. -/
theorem functional_of_filters {filters : Keyed (Definition σ)}
    (own : ∀ entry ∈ filters, entry.2.Functional) :
    Engine.Functional { filters := filters } := by
  constructor
  · exact fun name d registered => own _ (Keyed.mem_of_find? registered)
  · exact fun source no => (nomatch no)
  · exact fun source no => (nomatch no)
  · exact fun h no => (nomatch no)
  · exact fun h no => (nomatch no)

/-- The filters that every engine starts with are functions. -/
theorem functional_new : (new : Engine σ).Functional := by
  refine functional_of_filters fun entry mem => ?_
  rw [preregistered_eq] at mem
  simp only [List.mem_cons, List.not_mem_nil, or_false] at mem
  rcases mem with rfl | rfl
  · exact functional_empty
  · exact functional_error

/-- A filter that runs after all others and adds an exclamation mark. -/
def exclaim : Definition Unit where
  name := "exclaim"
  priority := .after
  transform := .pure fun value _ => .ok (.string (value.render ++ "!"))

/-- An engine with a filter that runs first and one that runs last. -/
def framing : Engine Unit where
  filters := [("error", Control.error), ("exclaim", exclaim)]

theorem functional_framing : framing.Functional := by
  refine functional_of_filters (List.forall_mem_cons.2 ⟨functional_error, ?_⟩)
  refine List.forall_mem_singleton.2 ?_
  constructor
  · exact functional_pure _
  · exact fun value args ctx _ s s' => rfl
  · exact fun value args ctx given s => given
  · exact fun h no => (nomatch no)
  · exact fun h no => (nomatch no)

/-- Calls of all priorities in disorder, with a name among them that stands for no filter. -/
def disorder : Placeholder where
  name := ""
  leading := ""
  trailing := ""
  matched := "{}"
  chain := [⟨"exclaim", []⟩, ⟨"trim", []⟩, ⟨"nothing", []⟩, ⟨"error", [some (.string "abort")]⟩]

/-- Calls in disorder do what they do in order. -/
theorem run_disorder :
    let inOrder : List Call := [⟨"error", [some (.string "abort")]⟩, ⟨"trim", []⟩, ⟨"exclaim", []⟩]
    framing.Functional ∧
      (∀ priority,
        framing.callsOf () priority disorder.chain = framing.callsOf () priority inOrder) ∧
      (framing.run "{}" disorder (.string " a ") ()).1.toOption = some "a!" ∧
      (framing.run "{}" disorder (.string " a ") ()).1 =
        (framing.run "{}" { disorder with chain := inOrder } (.string " a ") ()).1 := by
  intro inOrder
  have same : ∀ priority,
      framing.callsOf () priority disorder.chain = framing.callsOf () priority inOrder := by
    intro priority
    cases priority <;> rfl
  have ordered := run_eq_of_callsOf_eq functional_framing () "{}" disorder (.string " a ") () ()
  exact ⟨functional_framing, same, by decide +kernel, ordered.2.2.2 inOrder same⟩

end Engine

end Stencil
