/-
# When filling a template fails

Filling a template fails because a handler has thrown, and for no other reason.

* `Executed.Throws`: the error that comes of a handler's answer.  After a fault it names the filter
  and carries the fault thrown, or else the one the handler was asked about; after an empty value it
  carries the fault thrown, or else says that the filter gave none;
* `raise_iff_throws`, `run_error_iff`: a stage, and a placeholder, fails exactly by such an answer;
* `replaceWithin_failsByThrowing`: so does a template, and nothing is executed behind a stage that
  throws, be it in the same placeholder or in a later one.

What a walk asks for is recorded in a second component of its state (`recording`).  No callback sees
the record, and without it the walk is the same (`spliceFrom_recording`).
-/
import Stencil.Engine.Fill
import Stencil.Proofs.Trace
import Stencil.Proofs.Walk

namespace Stencil

variable {σ ε α : Type}

/-! ## 1. Stages that throw -/

namespace Executed

variable (e : Engine σ) (x : Executed σ)

/-- What the handler in force answered, if there was one and it was asked. -/
def answer? : Option (Except Fault Behavior) :=
  (consult (x.question? e (e.errorHandler? x.after x.stage.definition)
    (e.emptyHandler? x.after x.stage.definition)) x.asked).1

/-- The fault of the handler that was asked, if it failed itself. -/
def broken? : Option Fault :=
  match x.answer? e with
  | some (.error fault) => some fault
  | _ => none

/-- A handler has thrown, and this is the error that comes of it. -/
inductive Throws : Error → Prop
  /-- After a fault: the fault that is thrown in its place, or the fault itself. -/
  | fault {f : Fault} {replacement? : Option Fault} (failed : x.result = .error f)
      (answer : x.answer? e = some (.ok (.throw replacement?))) :
      Throws (.filter x.name (replacement?.getD f))
  /-- After an empty value, when no fault is thrown with it. -/
  | empty {output : Value} (gave : x.result = .ok output)
      (tested : x.stage.definition.control = false) (isEmpty : e.options.tests output = true)
      (answer : x.answer? e = some (.ok (.throw none))) : Throws (.emptyValue x.name)
  /-- After an empty value, when a fault is thrown with it. -/
  | replaced {output : Value} {f : Fault} (gave : x.result = .ok output)
      (tested : x.stage.definition.control = false) (isEmpty : e.options.tests output = true)
      (answer : x.answer? e = some (.ok (.throw (some f)))) : Throws (.filter x.name f)

/-- The flow and the state of the stage are those that its handler decides. -/
def Settled : Prop :=
  x.Handled e (e.errorHandler? x.after x.stage.definition)
    (e.emptyHandler? x.after x.stage.definition)

/-- No handler is asked about the stage. -/
def Silent : Prop :=
  x.question? e (e.errorHandler? x.after x.stage.definition)
    (e.emptyHandler? x.after x.stage.definition) = none

variable {e x}

/-- Where no handler is asked, the event alone decides, and the state is that of the transform. -/
theorem Settled.of_silent (h : x.Settled e) (silent : x.Silent e) :
    x.flow = (x.event e).flow x.name x.input none ∧ x.left = x.asked := by
  unfold Silent at silent
  unfold Settled Handled at h
  rw [silent] at h
  exact h

theorem Settled.flow (h : x.Settled e) :
    x.flow = (x.event e).flow x.name x.input (x.answer? e) := h.1

theorem event_of_error {f : Fault} (failed : x.result = .error f) : x.event e = .fault f := by
  simp [event, failed]

theorem event_of_empty {output : Value} (gave : x.result = .ok output)
    (tested : x.stage.definition.control = false) (isEmpty : e.options.tests output = true) :
    x.event e = .empty output := by
  simp [event, gave, tested, isEmpty]

/-- What an event says about the stage. -/
theorem event_cases (e : Engine σ) (x : Executed σ) :
    (∃ output, x.event e = .fine output) ∨
      (∃ f, x.result = .error f ∧ x.event e = .fault f) ∨
      (∃ output, x.result = .ok output ∧ x.stage.definition.control = false ∧
        e.options.tests output = true ∧ x.event e = .empty output) := by
  cases result : x.result with
  | error f => exact Or.inr (Or.inl ⟨f, rfl, event_of_error result⟩)
  | ok output =>
    cases tested : x.stage.definition.control with
    | true => exact Or.inl ⟨output, by simp [event, result, tested]⟩
    | false =>
      cases isEmpty : e.options.tests output with
      | false => exact Or.inl ⟨output, by simp [event, result, tested, isEmpty]⟩
      | true =>
        refine Or.inr (Or.inr ⟨output, rfl, rfl, isEmpty, ?_⟩)
        exact event_of_empty result tested isEmpty

end Executed

/-- After a fault an error can only come of an answer that throws. -/
theorem Flow.throw_of_afterFault {name : String} {f : Fault} {input : Value}
    {outcome : Option (Except Fault Behavior)} {err : Error}
    (raised : Flow.afterFault name f input outcome = .raise err) :
    ∃ replacement?, outcome = some (.ok (.throw replacement?)) ∧
      err = .filter name (replacement?.getD f) := by
  cases outcome with
  | none => cases raised
  | some answered =>
    cases answered with
    | error broken => cases raised
    | ok behavior =>
      cases behavior with
      | ignore replacement? => cases raised
      | abort replacement? => cases raised
      | throw replacement? =>
        cases raised
        exact ⟨replacement?, rfl, rfl⟩

/-- After an empty value too. -/
theorem Flow.throw_of_afterEmpty {name : String} {input output : Value}
    {outcome : Option (Except Fault Behavior)} {err : Error}
    (raised : Flow.afterEmpty name input output outcome = .raise err) :
    (outcome = some (.ok (.throw none)) ∧ err = .emptyValue name) ∨
      ∃ f, outcome = some (.ok (.throw (some f))) ∧ err = .filter name f := by
  cases outcome with
  | none => cases raised
  | some answered =>
    cases answered with
    | error broken => cases raised
    | ok behavior =>
      cases behavior with
      | ignore replacement? => cases raised
      | abort replacement? => cases raised
      | throw replacement? =>
        cases replacement? with
        | none =>
          cases raised
          exact Or.inl ⟨rfl, rfl⟩
        | some f =>
          cases raised
          exact Or.inr ⟨f, rfl, rfl⟩

namespace Executed

variable {e : Engine σ} {x : Executed σ}

/-- **A stage raises an error exactly when a handler throws it.** -/
theorem raise_iff_throws (h : x.Settled e) {err : Error} :
    x.flow = .raise err ↔ x.Throws e err := by
  rw [h.flow]
  constructor
  · intro raised
    rcases event_cases e x with ⟨output, event⟩ | ⟨f, failed, event⟩ |
      ⟨output, gave, tested, isEmpty, event⟩
    · rw [event] at raised
      cases raised
    · rw [event] at raised
      obtain ⟨replacement?, answer, rfl⟩ := Flow.throw_of_afterFault raised
      exact .fault failed answer
    · rw [event] at raised
      rcases Flow.throw_of_afterEmpty raised with ⟨answer, rfl⟩ | ⟨f, answer, rfl⟩
      · exact .empty gave tested isEmpty answer
      · exact .replaced gave tested isEmpty answer
  · intro thrown
    cases thrown with
    | fault failed answer => rw [event_of_error failed, answer]; rfl
    | empty gave tested isEmpty answer => rw [event_of_empty gave tested isEmpty, answer]; rfl
    | replaced gave tested isEmpty answer => rw [event_of_empty gave tested isEmpty, answer]; rfl

theorem answer?_of_broken {fault : Fault} (broken : x.broken? e = some fault) :
    x.answer? e = some (.error fault) := by
  unfold broken? at broken
  split at broken
  · cases broken
    assumption
  · cases broken

/-- A handler that fails itself has the chain go on with the value that the stage was given. -/
theorem flow_of_broken (h : x.Settled e) {fault : Fault} (broken : x.broken? e = some fault) :
    x.flow = .proceed x.input := by
  have answer := answer?_of_broken broken
  rw [h.flow, answer]
  rcases event_cases e x with ⟨output, event⟩ | ⟨f, -, event⟩ | ⟨output, -, -, -, event⟩
  · have silent : x.answer? e = none := by
      unfold answer? question?
      rw [event]
      rfl
    rw [silent] at answer
    cases answer
  · rw [event]
    rfl
  · rw [event]
    rfl

/-- An error that is thrown is never about a definition. -/
theorem Throws.ne_invalidFilter {err : Error} (thrown : x.Throws e err) (flaw : Flaw) :
    err ≠ .invalidFilter flaw := by
  cases thrown <;> exact fun no => nomatch no

end Executed

/-! ## 2. Placeholders that fail -/

namespace Engine

variable {e : Engine σ} {template : String} {p : Placeholder} {value : Value} {s : σ}
  {x : Executed σ} {err : Error}

/-- What a stage of a placeholder does is what its handler decides. -/
theorem settled_of_mem_executed (mem : x ∈ e.executed template p value s) : x.Settled e := by
  obtain ⟨done, later, h⟩ := List.append_of_mem mem
  obtain ⟨ctx', value', s', -, observed⟩ := trace_cases h
  have handled := e.observe_handled x.stage ctx' value' s'
  rw [← observed] at handled
  exact handled

/-- A stage that throws is the last one of its placeholder. -/
theorem executed_throws_last {done later : List (Executed σ)}
    (h : e.executed template p value s = done ++ x :: later) (thrown : x.Throws e err) :
    later = [] := by
  have mem : x ∈ e.executed template p value s := h ▸ List.mem_append_cons_self
  have raised := (Executed.raise_iff_throws (settled_of_mem_executed mem)).2 thrown
  exact trace_last h (by simp [raised])

/-- **A placeholder fails exactly when its last stage throws.** -/
theorem run_error_iff : (e.run template p value s).1 = .error err ↔
    ∃ done x, e.executed template p value s = done ++ [x] ∧ x.Throws e err := by
  rw [run_eq_outcome]
  rcases List.eq_nil_or_concat' (e.executed template p value s) with none | ⟨done, x, ran⟩
  · simp [none, Executed.outcome, Except.map]
  · have settled : x.Settled e := settled_of_mem_executed (ran ▸ List.mem_append_cons_self)
    rw [ran, Executed.outcome_concat]
    constructor
    · intro failed
      refine ⟨done, x, rfl, (Executed.raise_iff_throws settled).1 ?_⟩
      cases flow : x.flow with
      | proceed next => simp [flow, Flow.outcome, Except.map] at failed
      | stop last => simp [flow, Flow.outcome, Except.map] at failed
      | raise error => simpa [flow, Flow.outcome, Except.map] using failed
    · rintro ⟨before, y, same, thrown⟩
      obtain ⟨rfl, rfl⟩ := List.append_inj' same rfl |>.imp_right List.singleton_inj.1
      rw [(Executed.raise_iff_throws settled).2 thrown]
      rfl

/-- The stages that are executed for a placeholder with the value it takes, or without one. -/
def executedWith (e : Engine σ) (template : String) (p : Placeholder)
    (supplied? : Option (Entry σ)) (key : MissingKey) (s : σ) : List (Executed σ) :=
  match supplied? with
  | some entry => e.executed template p (entry.resolve s).1 (entry.resolve s).2
  | none =>
    match e.options.missing.value? key s with
    | (some value, s') => e.executed template p value s'
    | (none, _) => []

/-- A placeholder is run on a value, or it is left as it is written and nothing is executed. -/
theorem fillWith_cases (e : Engine σ) (template : String) (p : Placeholder)
    (supplied? : Option (Entry σ)) (key : MissingKey) (s : σ) :
    (∃ value s', e.fillWith template p supplied? key s = e.run template p value s' ∧
      e.executedWith template p supplied? key s = e.executed template p value s') ∨
    (e.fillWith template p supplied? key s).1 = .ok p.matched ∧
      e.executedWith template p supplied? key s = [] := by
  cases supplied? with
  | some entry => exact Or.inl ⟨_, _, rfl, rfl⟩
  | none =>
    simp only [fillWith, executedWith, bind, StateT.bind]
    rcases e.options.missing.value? key s with ⟨_ | value, s'⟩
    · exact Or.inr ⟨rfl, rfl⟩
    · exact Or.inl ⟨value, s', rfl, rfl⟩

section
variable {supplied? : Option (Entry σ)} {key : MissingKey}

theorem settled_of_mem_executedWith (mem : x ∈ e.executedWith template p supplied? key s) :
    x.Settled e := by
  rcases e.fillWith_cases template p supplied? key s with ⟨value, s', -, ran⟩ | ⟨-, none⟩
  · rw [ran] at mem
    exact settled_of_mem_executed mem
  · rw [none] at mem
    exact absurd mem List.not_mem_nil

theorem executedWith_throws_last {done later : List (Executed σ)}
    (h : e.executedWith template p supplied? key s = done ++ x :: later)
    (thrown : x.Throws e err) : later = [] := by
  rcases e.fillWith_cases template p supplied? key s with ⟨value, s', -, ran⟩ | ⟨-, none⟩
  · exact executed_throws_last (ran.symm.trans h) thrown
  · simp [none] at h

theorem fillWith_error_iff : (e.fillWith template p supplied? key s).1 = .error err ↔
    ∃ done x, e.executedWith template p supplied? key s = done ++ [x] ∧ x.Throws e err := by
  rcases e.fillWith_cases template p supplied? key s with ⟨value, s', same, ran⟩ | ⟨same, none⟩
  · rw [same, ran]
    exact run_error_iff
  · simp [same, none]

end

end Engine

/-! ## 3. What a walk asks for -/

namespace Template

/-- A callback that records, beside its state, what it was asked for and in which state. -/
def recording (fill : Placeholder → StateM σ (Except ε String)) (p : Placeholder) :
    StateM (List (Placeholder × σ) × σ) (Except ε String) :=
  fun (asked, s) => ((fill p s).1, (asked ++ [(p, s)], (fill p s).2))

/-- A walk that asked for these placeholders fails with the last of them, and only then. -/
structure EndsAtFailure (fill : Placeholder → StateM σ (Except ε String))
    (asked : List (Placeholder × σ)) (result : Option (Except ε α)) : Prop where
  last : ∀ err, result = some (.error err) →
    ∃ before p s, asked = before ++ [(p, s)] ∧ (fill p s).1 = .error err
  stops : ∀ before p s behind err, asked = before ++ (p, s) :: behind →
    (fill p s).1 = .error err → behind = [] ∧ result = some (.error err)

section
variable {fill : Placeholder → StateM σ (Except ε String)} {asked : List (Placeholder × σ)}
  {result : Option (Except ε α)}

theorem EndsAtFailure.nil (fine : ∀ err, result ≠ some (.error err)) :
    EndsAtFailure fill [] result where
  last err failed := absurd failed (fine err)
  stops before p s behind err no := by simp at no

theorem EndsAtFailure.singleton {p : Placeholder} {s : σ} {err : ε}
    (failed : (fill p s).1 = .error err) :
    EndsAtFailure fill [(p, s)] (some (.error err) : Option (Except ε α)) where
  last err' same := by
    cases same
    exact ⟨[], p, s, rfl, failed⟩
  stops before q s' behind err' split failed' := by
    cases before with
    | nil =>
      cases split
      cases failed.symm.trans failed'
      exact ⟨rfl, rfl⟩
    | cons first before => simp at split

theorem EndsAtFailure.cons {p : Placeholder} {s : σ} {text : String}
    (filled : (fill p s).1 = .ok text) (h : EndsAtFailure fill asked result) :
    EndsAtFailure fill ((p, s) :: asked) result where
  last err failed := by
    obtain ⟨before, q, s', rfl, failed⟩ := h.last err failed
    exact ⟨(p, s) :: before, q, s', rfl, failed⟩
  stops before q s' behind err split failed := by
    cases before with
    | nil =>
      cases split
      cases filled.symm.trans failed
    | cons first before =>
      obtain ⟨-, split⟩ := List.cons.inj split
      exact h.stops before q s' behind err split failed

theorem EndsAtFailure.map {β : Type} (f : α → β) (h : EndsAtFailure fill asked result) :
    EndsAtFailure fill asked (result.map fun outcome => outcome.map f) where
  last err failed := by
    refine h.last err ?_
    rcases result with _ | _ | _ <;> simp_all [Except.map]
  stops before p s behind err split failed := by
    obtain ⟨nothing, rfl⟩ := h.stops before p s behind err split failed
    exact ⟨nothing, rfl⟩

end

/-- **Recording changes nothing**, and a walk fails with the last placeholder it asked for. -/
theorem spliceFrom_recording (copies : Copies) (fill : Placeholder → StateM σ (Except ε String))
    (steps : Nat) (cursor : Cursor) (before : List (Placeholder × σ)) (s : σ) :
    ∃ asked, spliceFrom copies (recording fill) steps cursor (before, s) =
        ((spliceFrom copies fill steps cursor s).1,
          (before ++ asked, (spliceFrom copies fill steps cursor s).2)) ∧
      EndsAtFailure fill asked (spliceFrom copies fill steps cursor s).1 := by
  induction steps generalizing cursor before s with
  | zero => exact ⟨[], by simp [spliceFrom, pure, StateT.pure], .nil fun err no => nomatch no⟩
  | succ steps ih =>
    obtain ⟨passed, cs⟩ := cursor
    cases found : next? cs with
    | none =>
      rw [spliceFrom_none found, spliceFrom_none found]
      refine ⟨[], by simp, .nil fun err no => ?_⟩
      simp at no
    | some f =>
      cases escaped : isEscaped (f.skipped ++ passed) with
      | true =>
        rw [spliceFrom_escaped found escaped, spliceFrom_escaped found escaped]
        exact ih _ before s
      | false =>
        obtain ⟨answer, s', filled⟩ : ∃ answer s', fill f.placeholder s = (answer, s') :=
          ⟨_, _, rfl⟩
        have noted : recording fill f.placeholder (before, s) =
            (answer, (before ++ [(f.placeholder, s)], s')) := by
          simp [recording, filled]
        cases answer with
        | error err =>
          rw [spliceFrom_error found escaped filled, spliceFrom_error found escaped noted]
          exact ⟨_, rfl, .singleton (by rw [filled])⟩
        | ok text =>
          rw [spliceFrom_ok found escaped filled, spliceFrom_ok found escaped noted]
          obtain ⟨asked, same, ends⟩ := ih _ (before ++ [(f.placeholder, s)]) s'
          refine ⟨(f.placeholder, s) :: asked, ?_, .cons (by rw [filled]) ends⟩
          rw [same, List.append_assoc, List.singleton_append]

/-- What a walk asks for, in order, and the states in which it does. -/
def recorded (copies : Copies) (fill : Placeholder → StateM σ (Except ε String)) (steps : Nat)
    (template : String) (s : σ) : List (Placeholder × σ) :=
  (spliceFrom copies (recording fill) steps ⟨[], template.toList⟩ ([], s)).2.1

theorem splice_endsAtFailure (copies : Copies)
    (fill : Placeholder → StateM σ (Except ε String)) (steps : Nat) (template : String) (s : σ) :
    EndsAtFailure fill (recorded copies fill steps template s)
      (splice copies fill steps template s).1 := by
  obtain ⟨noted, same, ends⟩ := spliceFrom_recording copies fill steps ⟨[], template.toList⟩ [] s
  have noted_eq : recorded copies fill steps template s = noted := by
    simp [recorded, same]
  rw [noted_eq]
  exact ends.map String.ofList

end Template

/-! ## 4. Templates that fail -/

/-- A placeholder that a template was filled at, and the stages that were executed for it. -/
structure Filling (σ : Type) where
  placeholder : Placeholder
  executed : List (Executed σ)

namespace Engine

/-- The placeholders that a template is filled at, in order, each with the stages executed for it.
They are the ones that the walk asks for. -/
def fillings (e : Engine σ) (extra : Nat) (template : String) (values : Values σ) (s : σ) :
    List (Filling σ) :=
  match values.force s with
  | (.named entries, s) =>
    let steps := Template.ownSteps template + extra
    (Template.recorded .all (e.fillNamed template entries) steps template s).map fun (p, s) =>
      ⟨p, e.executedWith template p (entries.find? p.name) (.name p.name) s⟩
  | (.positional entries, s) =>
    let steps := Template.ownSteps template
    (Template.recorded .one (e.fillPositional template entries) steps template (0, s)).map
      fun (p, index, s) => ⟨p, e.executedWith template p entries[index]? (.index index) s⟩

/-- What was executed and what has come of it fit: there is an error exactly where a handler has
thrown. -/
structure FailsByThrowing (e : Engine σ) (ran : List (Filling σ))
    (result : Option (Except Error α)) : Prop where
  /-- An error is what the last stage of the last placeholder has thrown. -/
  error_iff : ∀ err, result = some (.error err) ↔
    ∃ earlier f done x, ran = earlier ++ [f] ∧ f.executed = done ++ [x] ∧ x.Throws e err
  /-- Nothing is executed behind a stage that throws, and what it throws is the result. -/
  ends : ∀ earlier f later done x behind err, ran = earlier ++ f :: later →
    f.executed = done ++ x :: behind → x.Throws e err →
      later = [] ∧ behind = [] ∧ result = some (.error err)
  /-- A handler that fails itself has the chain go on. -/
  broken : ∀ f ∈ ran, ∀ x ∈ f.executed, ∀ fault, x.broken? e = some fault →
    x.flow = .proceed x.input
  /-- No error is about a definition. -/
  valid : ∀ flaw, result ≠ some (.error (.invalidFilter flaw))

/-- A walk fails by throwing if its callback does. -/
theorem failsByThrowing_of_walk {τ : Type} {fill : Placeholder → StateM τ (Except Error String)}
    {stages : Placeholder × τ → List (Executed σ)} {asked : List (Placeholder × τ)}
    {result : Option (Except Error α)} (ends : Template.EndsAtFailure fill asked result)
    (settled : ∀ q, ∀ x ∈ stages q, x.Settled e)
    (failed : ∀ p t err, (fill p t).1 = .error err ↔
      ∃ done x, stages (p, t) = done ++ [x] ∧ x.Throws e err)
    (last : ∀ q done x behind err, stages q = done ++ x :: behind → x.Throws e err →
      behind = []) :
    FailsByThrowing e (asked.map fun q => ⟨q.1, stages q⟩) result := by
  have thrown_of_error : ∀ err, result = some (.error err) → ∃ earlier f done x,
      (asked.map fun q => (⟨q.1, stages q⟩ : Filling σ)) = earlier ++ [f] ∧
        f.executed = done ++ [x] ∧ x.Throws e err := by
    intro err same
    obtain ⟨before, p, t, rfl, failure⟩ := ends.last err same
    obtain ⟨done, x, ran, thrown⟩ := (failed p t err).1 failure
    exact ⟨_, _, done, x, List.map_append, ran, thrown⟩
  have last_of_throws : ∀ earlier f later done x behind err,
      (asked.map fun q => (⟨q.1, stages q⟩ : Filling σ)) = earlier ++ f :: later →
        f.executed = done ++ x :: behind → x.Throws e err →
          later = [] ∧ behind = [] ∧ result = some (.error err) := by
    intro earlier f later done x behind err split ran thrown
    obtain ⟨before, rest, rfl, -, tail⟩ := List.map_eq_append_iff.1 split
    obtain ⟨⟨p, t⟩, after, rfl, rfl, rfl⟩ := List.map_eq_cons_iff.1 tail
    obtain rfl : behind = [] := last (p, t) done x behind err ran thrown
    have failure := (failed p t err).2 ⟨done, x, ran, thrown⟩
    obtain ⟨rfl, same⟩ := ends.stops before p t after err rfl failure
    exact ⟨rfl, rfl, same⟩
  refine ⟨fun err => ⟨thrown_of_error err, ?_⟩, last_of_throws, ?_, ?_⟩
  · rintro ⟨earlier, f, done, x, split, ran, thrown⟩
    exact (last_of_throws earlier f [] done x [] err split ran thrown).2.2
  · intro f mem x inside fault broken
    obtain ⟨q, -, rfl⟩ := List.mem_map.1 mem
    exact Executed.flow_of_broken (settled q x inside) broken
  · intro flaw same
    obtain ⟨-, -, -, x, -, -, thrown⟩ := thrown_of_error _ same
    exact thrown.ne_invalidFilter flaw rfl

/-- **Filling a template fails exactly when a handler throws.**  The result is an error exactly when
the last stage of the last placeholder has thrown it, and nothing is executed behind a stage that
throws.  A handler that fails itself only has the chain go on, and no error is about a
definition. -/
theorem replaceWithin_failsByThrowing (e : Engine σ) (extra : Nat) (template : String)
    (values : Values σ) (s : σ) :
    FailsByThrowing e (e.fillings extra template values s)
      (e.replaceWithin extra template values s).1 := by
  obtain ⟨entries, s', forced⟩ : ∃ entries s', values.force s = (entries, s') := ⟨_, _, rfl⟩
  simp only [fillings, replaceWithin, bind, StateT.bind, forced]
  cases entries with
  | named entries =>
    refine failsByThrowing_of_walk (Template.splice_endsAtFailure _ _ _ _ _) ?_ ?_ ?_
    · exact fun q x mem => settled_of_mem_executedWith mem
    · exact fun p t err => fillWith_error_iff
    · exact fun q done x behind err => executedWith_throws_last
  | positional entries =>
    refine failsByThrowing_of_walk (Template.splice_endsAtFailure _ _ _ _ _) ?_ ?_ ?_
    · exact fun q x mem => settled_of_mem_executedWith mem
    · rintro p ⟨index, s⟩ err
      have same : (e.fillPositional template entries p (index, s)).1 =
        (e.fillWith template p entries[index]? (.index index) s).1 := rfl
      rw [same]
      exact fillWith_error_iff
    · exact fun q done x behind err => executedWith_throws_last

/-- A filter that fails, with a handler that fails too. -/
def stumble : Definition Unit where
  name := "stumble"
  transform := fun _ _ ctx => pure (.error (.custom "lost"), ctx)
  onError := some fun _ _ _ _ => pure (.error (.custom "lost as well"))

/-- A filter that gives nothing, with a handler that does not put up with it. -/
def vanish : Definition Unit where
  name := "vanish"
  transform := fun _ _ ctx => pure (.ok (.string ""), ctx)
  onEmpty := some fun _ _ _ => pure (.ok (.throw none))

/-- An engine with these filters. -/
def strict : Engine Unit where
  filters := [("stumble", stumble), ("vanish", vanish)]

/-- The chain goes on behind the handler that fails and ends where the other one throws. -/
theorem replaceWithin_failsByThrowing_strict :
    let template := "{ | stumble | vanish | upper}{}"
    let values := Values.list [.given (.string "a"), .given (.string "b")]
    (strict.replaceWithin 0 template values ()).1 = some (.error (.emptyValue "vanish")) ∧
      ∃ f x y, strict.fillings 0 template values () = [f] ∧ f.executed = [x, y] ∧
        x.flow = .proceed x.input ∧ y.Throws strict (.emptyValue "vanish") := by
  intro template values
  have fails := replaceWithin_failsByThrowing strict 0 template values ()
  have error : (strict.replaceWithin 0 template values ()).1 =
      some (.error (.emptyValue "vanish")) := by decide +kernel
  have shape : (strict.fillings 0 template values ()).map (fun f =>
      f.executed.map (Executed.broken? strict)) = [[some (.custom "lost as well"), none]] := by
    decide +kernel
  obtain ⟨f, ran, handlers⟩ := List.map_eq_singleton_iff.1 shape
  obtain ⟨x, rest, stages, broken, silent⟩ := List.map_eq_cons_iff.1 handlers
  obtain ⟨y, rfl, -⟩ := List.map_eq_singleton_iff.1 silent
  have inside : f ∈ strict.fillings 0 template values () := by simp [ran]
  have goes := fails.broken f inside x (by simp [stages]) _ broken
  obtain ⟨earlier, g, done, z, ran', stages', thrown⟩ := (fails.error_iff _).1 error
  obtain rfl : f = g := by simpa [ran] using congrArg List.getLast? ran'
  obtain rfl : y = z := by simpa [stages] using congrArg List.getLast? stages'
  exact ⟨error, f, x, y, ran, stages, goes, thrown⟩

end Engine

end Stencil
