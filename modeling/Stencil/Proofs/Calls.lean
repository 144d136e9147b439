/-
# Chains that are written and read

A chain on its own, as it is handed to the reader of chains.  It is written more freely than the
filters of a placeholder: a name is any text without blanks at its ends, parentheses may stand
within parentheses, and any bars and blanks may stand in front of the calls and behind them, if only
there is a bar between two calls.

* `readChain_eq`: what is kept of a chain are its segments without the blanks around them, those
  that are blank left out; the trimming and the first bar make no difference to that;
* `kept_print`: these segments are the calls as they were written;
* `readChain_printChain`: so the chain is read back as the calls that were written.

Parentheses and quotes close within the arguments of a call, so behind each call the walk along the
chain is where it was in front of it (`segmentsFrom_print`).
-/
import Stencil.Proofs.Clauses

namespace Stencil

open Stencil.Text

/-! ## 1. What is kept of a chain -/

namespace Call

/-- The segments that are not blank, without the blanks around them. -/
def kept (segments : List (List Char)) : List (List Char) :=
  (segments.map trim).filter (!·.isEmpty)

theorem kept_cons (segment : List Char) (segments : List (List Char)) :
    kept (segment :: segments) = kept [segment] ++ kept segments := by
  simp only [kept, List.map_cons, List.map_nil, List.filter_cons, List.filter_nil]
  split
  · rfl
  · rfl

theorem kept_blank {segment : List Char} (blank : ∀ c ∈ segment, isBlank c = true) :
    kept [segment] = [] := by
  simp [kept, trim_of_blank blank]

theorem kept_append_blank {gap : List Char} (blank : ∀ c ∈ gap, isBlank c = true)
    (segment : List Char) : kept [segment ++ gap] = kept [segment] := by
  simp only [kept, List.map_cons, trim_append blank]

/-- Blanks that a segment starts with do not change what trimming leaves. -/
theorem map_trim_segmentsFrom {gap : List Char} (blank : ∀ c ∈ gap, isBlank c = true)
    (n : Nesting) (segment cs : List Char) :
    (segmentsFrom n (segment ++ gap) cs).map trim = (segmentsFrom n segment cs).map trim := by
  have first : ∀ text : List Char, trim (text ++ gap).reverse = trim text.reverse := by
    intro text
    unfold trim
    rw [List.reverse_append, trimStart_append (by simpa using blank)]
  induction cs generalizing n segment with
  | nil => exact congrArg (fun text => [text]) (first segment)
  | cons c cs ih =>
    rw [segmentsFrom, segmentsFrom]
    split
    · rw [List.map_cons, List.map_cons, first]
    · exact ih _ (c :: segment)

theorem kept_trim (cs : List Char) : kept (segments (trim cs)) = kept (segments cs) := by
  obtain ⟨behind, blank', whole'⟩ := exists_trimEnd_append (trimStart cs)
  have blank : ∀ c ∈ (cs.takeWhile isBlank).reverse, isBlank c = true := by
    intro c mem
    exact List.mem_takeWhile_imp (List.mem_reverse.1 mem)
  have neutral : ∀ c ∈ cs.takeWhile isBlank, Written.isNeutral c = true := by
    intro c mem
    exact Written.isNeutral_of_isBlank (List.mem_takeWhile_imp mem)
  have start : segments cs = segmentsFrom {} (cs.takeWhile isBlank).reverse (trimStart cs) := by
    have passed := @Written.segmentsFrom_neutral {} rfl _ neutral [] (trimStart cs)
    unfold trimStart at passed
    rw [List.takeWhile_append_dropWhile, List.append_nil] at passed
    exact passed
  have front := map_trim_segmentsFrom blank {} [] (trimStart cs)
  have last := Written.segmentsFrom_append_blank blank' {} [] (trimEnd (trimStart cs))
  rw [← whole'] at last
  unfold kept
  rw [start, ← List.nil_append (List.reverse _), front, last]
  rfl

/-- **A chain is read from its segments**, and the bar that it may start with only adds an empty
one. -/
theorem readChain_eq (cs : List Char) : readChain cs = (kept (segments cs)).map ofSegment := by
  have same : kept (segments (if (trim cs).head? == some '|' then (trim cs).drop 1 else trim cs)) =
      kept (segments (trim cs)) := by
    split
    · rename_i bar
      obtain ⟨rest, whole⟩ := List.head?_eq_some_iff.1 (eq_of_beq bar)
      have split : segments ('|' :: rest) = [] :: segments rest := rfl
      rw [whole, List.drop_one, List.tail_cons, split, kept_cons, kept_blank (by simp),
        List.nil_append]
    · rfl
  rw [← kept_trim, ← same]
  rfl

end Call

/-! ## 2. Written chains -/

namespace Written

/-- The text between the parentheses of a call: characters, quoted strings, and the like in
parentheses of their own. -/
inductive Content
  | nil
  | plain (c : Char) (free : isPlain c = true) (later : Content)
  | quoted (quote : Quote) (text : List Char) (inside : quote.mark ∉ text) (later : Content)
  | group (inner later : Content)

def Content.print : Content → List Char
  | nil => []
  | plain c _ later => c :: later.print
  | quoted quote text _ later => quote.mark :: (text ++ quote.mark :: later.print)
  | group inner later => '(' :: (inner.print ++ ')' :: later.print)

/-- A name of a filter: no bar, quote or parenthesis in it, and no blank at its ends. -/
structure Name where
  text : List Char
  nonempty : text ≠ [] := by decide +kernel
  neutral : ∀ c ∈ text, isNeutral c = true := by
    exact List.all_eq_true.1 (by decide +kernel)
  first : ∀ c ∈ text.head?, isBlank c = false := by
    rintro _ ⟨rfl⟩
    decide
  last : ∀ c ∈ text.getLast?, isBlank c = false := by
    rintro _ ⟨rfl⟩
    decide

/-- A call, without parentheses if it has no arguments, or with them. -/
structure Invocation where
  name : Name
  content : Option Content

def Invocation.print (i : Invocation) : List Char :=
  match i.content with
  | none => i.name.text
  | some content => i.name.text ++ '(' :: (content.print ++ [')'])

/-- The call that is written. -/
def Invocation.call (i : Invocation) : Call where
  name := String.ofList i.name.text
  args :=
    match i.content with
    | none => []
    | some content => Slot.readList content.print

/-- A character that stands between two calls. -/
def isParting (c : Char) : Bool := c == '|' || isBlank c

/-- Bars and blanks. -/
structure Bars where
  text : List Char
  parting : ∀ c ∈ text, isParting c = true := by
    exact List.all_eq_true.1 (by decide +kernel)

/-- A chain: calls with the bars and blanks in front of each, and more of those at the end.  Between
two calls there is a bar. -/
structure Chain where
  calls : List (Bars × Invocation)
  last : Bars
  parted : ∀ call ∈ calls.tail, '|' ∈ call.1.text

/-- The text of calls with what stands in front of each. -/
def printCalls (calls : List (Bars × Invocation)) : List Char :=
  calls.flatMap fun call => call.1.text ++ call.2.print

def Chain.print (chain : Chain) : List Char := printCalls chain.calls ++ chain.last.text

/-! ## 3. The walk along a written chain -/

/-- What stands between parentheses is passed, and leaves as many of them open. -/
theorem segmentsFrom_content (content : Content) (depth : Nat) (segment cs : List Char) :
    Call.segmentsFrom ⟨none, depth + 1⟩ segment (content.print ++ cs) =
      Call.segmentsFrom ⟨none, depth + 1⟩ (content.print.reverse ++ segment) cs := by
  induction content generalizing depth segment cs with
  | nil => rfl
  | plain c free later ih =>
    have step := @step_of_isPlain ⟨none, depth + 1⟩ c rfl free
    simp [Content.print, Call.segmentsFrom, Call.Nesting.isOpen, step, ih]
  | quoted quote text inside later ih =>
    have string := segmentsFrom_string quote inside depth segment (later.print ++ cs)
    rw [ih] at string
    simpa [Content.print] using string
  | group inner later ihInner ihLater =>
    have group := ihInner (depth + 1) ('(' :: segment) (')' :: (later.print ++ cs))
    have behind := ihLater depth (')' :: (inner.print.reverse ++ '(' :: segment)) cs
    simpa [Content.print, Call.segmentsFrom, Call.Nesting.isOpen, Call.Nesting.step, behind]
      using group

/-- **A call is passed as a whole.** -/
theorem segmentsFrom_print (i : Invocation) (segment cs : List Char) :
    Call.segmentsFrom {} segment (i.print ++ cs) =
      Call.segmentsFrom {} (i.print.reverse ++ segment) cs := by
  unfold Invocation.print
  cases i.content with
  | none => exact segmentsFrom_neutral rfl i.name.neutral segment cs
  | some content =>
    have inner := segmentsFrom_content content 0 ('(' :: (i.name.text.reverse ++ segment))
      (')' :: cs)
    simp only [List.append_assoc, List.cons_append, List.nil_append]
    rw [segmentsFrom_neutral rfl i.name.neutral]
    simpa [Call.segmentsFrom, Call.Nesting.isOpen, Call.Nesting.step] using inner

theorem isParting_iff {c : Char} : isParting c = true ↔ c = '|' ∨ isBlank c = true := by
  simp [isParting]

/-- Without a bar there are only blanks. -/
theorem blank_of_isParting {bars : List Char} (parting : ∀ c ∈ bars, isParting c = true)
    (noBar : '|' ∉ bars) : ∀ c ∈ bars, isBlank c = true := by
  intro c mem
  refine (isParting_iff.1 (parting c mem)).resolve_left ?_
  rintro rfl
  exact noBar mem

/-- Behind a blank segment bars and blanks give nothing, and leave a blank segment. -/
theorem kept_bars {bars : List Char} (parting : ∀ c ∈ bars, isParting c = true)
    {segment : List Char} (blank : ∀ c ∈ segment, isBlank c = true) (cs : List Char) :
    ∃ gap, (∀ c ∈ gap, isBlank c = true) ∧
      Call.kept (Call.segmentsFrom {} segment (bars ++ cs)) =
        Call.kept (Call.segmentsFrom {} gap cs) := by
  induction bars generalizing segment with
  | nil => exact ⟨segment, blank, rfl⟩
  | cons c bars ih =>
    obtain ⟨here, others⟩ := List.forall_mem_cons.1 parting
    rcases isParting_iff.1 here with rfl | here
    · obtain ⟨gap, blank', rest⟩ := @ih others [] (by simp)
      refine ⟨gap, blank', ?_⟩
      have split : Call.segmentsFrom {} segment ('|' :: (bars ++ cs)) =
          segment.reverse :: Call.segmentsFrom {} [] (bars ++ cs) := rfl
      rw [List.cons_append, split, Call.kept_cons, Call.kept_blank (by simpa using blank), rest,
        List.nil_append]
    · obtain ⟨gap, blank', rest⟩ := ih others (List.forall_mem_cons.2 ⟨here, blank⟩)
      refine ⟨gap, blank', ?_⟩
      have passed := @segmentsFrom_neutral {} rfl [c]
        (by simpa using isNeutral_of_isBlank here) segment (bars ++ cs)
      exact (congrArg Call.kept passed).trans rest

/-- A bar ends a segment, and leaves a blank one. -/
theorem kept_bar (bars : Bars) (bar : '|' ∈ bars.text) (segment cs : List Char) :
    ∃ gap, (∀ c ∈ gap, isBlank c = true) ∧
      Call.kept (Call.segmentsFrom {} segment (bars.text ++ cs)) =
        Call.kept [segment.reverse] ++ Call.kept (Call.segmentsFrom {} gap cs) := by
  obtain ⟨front, behind, whole, first⟩ := List.eq_append_cons_of_mem bar
  have parting := bars.parting
  rw [whole] at parting ⊢
  obtain ⟨inFront, others⟩ := List.forall_mem_append.1 parting
  obtain ⟨-, behindBar⟩ := List.forall_mem_cons.1 others
  have blank := blank_of_isParting inFront first
  obtain ⟨gap, blank', rest⟩ := @kept_bars behind behindBar [] (by simp) cs
  refine ⟨gap, blank', ?_⟩
  have passed := @segmentsFrom_neutral {} rfl front
    (fun c mem => isNeutral_of_isBlank (blank c mem)) segment ('|' :: (behind ++ cs))
  have split : Call.segmentsFrom {} (front.reverse ++ segment) ('|' :: (behind ++ cs)) =
      (front.reverse ++ segment).reverse :: Call.segmentsFrom {} [] (behind ++ cs) := rfl
  rw [List.append_assoc, List.cons_append, passed, split, Call.kept_cons, rest,
    List.reverse_append, List.reverse_reverse, Call.kept_append_blank blank]

/-- Bars and blanks at the end of a chain add nothing. -/
theorem kept_last (bars : Bars) (segment : List Char) :
    Call.kept (Call.segmentsFrom {} segment bars.text) = Call.kept [segment.reverse] := by
  by_cases bar : '|' ∈ bars.text
  · obtain ⟨gap, blank, whole⟩ := kept_bar bars bar segment []
    rw [List.append_nil] at whole
    have nothing : Call.kept [gap.reverse] = [] := Call.kept_blank (by simpa using blank)
    rw [whole, Call.segmentsFrom, nothing, List.append_nil]
  · have blank := blank_of_isParting bars.parting bar
    rw [segmentsFrom_blank blank, Call.kept_append_blank blank]

/-! ## 4. The calls of a written chain -/

theorem Invocation.print_ne_nil (i : Invocation) : i.print ≠ [] := by
  unfold Invocation.print
  cases i.content <;> simp [i.name.nonempty]

theorem Invocation.trim_print (i : Invocation) {gap : List Char}
    (blank : ∀ c ∈ gap, isBlank c = true) : trim (gap ++ i.print) = i.print := by
  have first : Stops isBlank i.print := by
    unfold Invocation.print
    cases i.content with
    | none => exact i.name.first
    | some content => exact Stops.append i.name.nonempty i.name.first _
  have last : ∀ c ∈ i.print.getLast?, isBlank c = false := by
    unfold Invocation.print
    cases i.content with
    | none => exact i.name.last
    | some content =>
      have closing := last_append (i.name.text ++ '(' :: content.print)
        (List.cons_ne_nil ')' []) (by simp; decide)
      simpa using closing
  have between := @trim_between gap i.print [] blank (by simp) i.print_ne_nil first last
  rwa [List.append_nil] at between

/-- The segment of a call is the call without the blanks in front of it. -/
theorem kept_call (i : Invocation) {gap : List Char} (blank : ∀ c ∈ gap, isBlank c = true) :
    Call.kept [(i.print.reverse ++ gap).reverse] = [i.print] := by
  have whole : (i.print.reverse ++ gap).reverse = gap.reverse ++ i.print := by simp
  have trimmed := @Invocation.trim_print i gap.reverse (by simpa using blank)
  simp [Call.kept, whole, trimmed, i.print_ne_nil]

/-- **What is kept of a chain are its calls**, each as it was written.  The induction is on the
calls behind the first one, each of which has a bar in front. -/
theorem kept_print (chain : Chain) :
    Call.kept (Call.segments chain.print) = chain.calls.map fun call => call.2.print := by
  obtain ⟨calls, last, parted⟩ := chain
  unfold Call.segments Chain.print
  cases calls with
  | nil =>
    rw [printCalls, List.flatMap_nil, List.nil_append, kept_last]
    exact Call.kept_blank (by simp)
  | cons call calls =>
    obtain ⟨bars, i⟩ := call
    have shape : ∀ (bars : Bars) (i : Invocation) (calls : List (Bars × Invocation)),
        printCalls ((bars, i) :: calls) ++ last.text =
          bars.text ++ (i.print ++ (printCalls calls ++ last.text)) := by
      intro bars i calls
      simp [printCalls]
    simp only [List.tail_cons] at parted
    obtain ⟨gap, blank, start⟩ := @kept_bars bars.text bars.parting [] (by simp)
      (i.print ++ (printCalls calls ++ last.text))
    rw [shape, start, segmentsFrom_print]
    clear start
    induction calls generalizing i gap with
    | nil => rw [printCalls, List.flatMap_nil, List.nil_append, kept_last, kept_call i blank]; rfl
    | cons call calls ih =>
      obtain ⟨bars', j⟩ := call
      obtain ⟨bar, parted⟩ := List.forall_mem_cons.1 parted
      obtain ⟨gap', blank', next⟩ := kept_bar bars' bar (i.print.reverse ++ gap)
        (j.print ++ (printCalls calls ++ last.text))
      rw [shape, next, kept_call i blank, segmentsFrom_print, ih j parted gap' blank']
      rfl

/-- A segment is the call that was written. -/
theorem ofSegment_print (i : Invocation) : Call.ofSegment i.print = i.call := by
  have name : ∀ c ∈ i.name.text, (c != '(') = true := by
    intro c mem
    exact ne_paren_of_isNeutral (i.name.neutral c mem)
  have trimmed : trim i.name.text = i.name.text := by
    have between := @trim_between [] i.name.text [] (by simp) (by simp) i.name.nonempty
      i.name.first i.name.last
    simpa using between
  unfold Invocation.print Invocation.call Call.ofSegment
  cases i.content with
  | none =>
    have whole : i.name.text.takeWhile (· != '(') = i.name.text := by
      simpa using @takeWhile_append_of_stops (· != '(') i.name.text [] name (by simp [Stops])
    have nothing : i.name.text.drop (i.name.text.length + 1) = [] := by simp
    simp only [whole, nothing]
    rfl
  | some content =>
    have paren : Stops (· != '(') ('(' :: (content.print ++ [')'])) := stops_cons.2 (by decide)
    have inner : (i.name.text ++ '(' :: (content.print ++ [')'])).drop
        (i.name.text.length + 1) = content.print ++ [')'] := by
      rw [← List.drop_drop, List.drop_left]
      rfl
    simp only [takeWhile_append_of_stops name paren, inner, trimmed]
    rw [if_pos (by simp)]
    simp

/-- **A chain is read back from its text**: the calls in order, each with its name and with the
slots of the text between its parentheses, or none where it has no parentheses. -/
theorem readChain_printChain (chain : Chain) :
    Call.readChain chain.print = chain.calls.map fun call => call.2.call := by
  rw [Call.readChain_eq, kept_print, List.map_map]
  exact List.map_congr_left fun call _ => ofSegment_print call.2

theorem isPlain_comma : isPlain ',' = true := rfl

/-- A chain with bars at both ends, a name with a blank in it, and arguments that hold bars, quotes
and parentheses, some of them in quotes. -/
def nestedChain : Chain where
  calls := [
    ({ text := ['|', ' ', '|'] }, {
      name := { text := "pad end".toList }
      content := some <| .plain '9' rfl <| .plain ',' isPlain_comma <|
        .group (.quoted .single [')', '|', '"'] (by decide) <| .group .nil <|
          .plain '|' rfl <| .plain ',' isPlain_comma .nil) <|
        .quoted .double ['('] (by decide) .nil }),
    ({ text := ['\t', '|', '|'] }, { name := { text := "lower".toList }, content := none }),
    ({ text := [' ', '|'] }, { name := { text := "trim".toList }, content := some .nil })]
  last := { text := ['|', '\n'] }
  parted := by decide +kernel

/-- It is read back: no bar in the parentheses ends the call, and the comma in the inner ones parts
two of its slots. -/
theorem readChain_nestedChain :
    nestedChain.print =
        "| |pad end(9,(')|\"'()|,)\"(\")\t||lower |trim()|\n".toList ∧
      (Call.readChain nestedChain.print).map (fun call => (call.name, call.args.length)) =
        [("pad end", 3), ("lower", 0), ("trim", 0)] := by
  refine ⟨by decide +kernel, ?_⟩
  rw [readChain_printChain]
  decide +kernel

end Written

end Stencil
