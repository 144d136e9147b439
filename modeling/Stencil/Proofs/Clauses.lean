/-
# The filters that the grammar admits

An author writes a filter with its word (`Written.Filter`).  The grammar admits more: a bar may
stand alone, and arguments may have no word in front of them.  A *clause* is what it admits from one
bar to the next.

* `readChain_printClauses`: the chain that is read from clauses is their calls, in order.  A clause
  with nothing behind its bar gives none.

The grammar and the reader of chains look for the ends of clauses on their own.  They agree because
bars between parentheses separate for neither of them (`segmentsFrom_arguments`).
-/
import Stencil.Proofs.Written

namespace Stencil

open Stencil.Text

/-! ## 1. Trimming -/

theorem trimEnd_trimEnd (cs : List Char) : trimEnd (trimEnd cs) = trimEnd cs := by
  simp [trimEnd, List.dropWhile_idempotent]

/-- What trimming takes off the end of a text. -/
theorem exists_trimEnd_append (cs : List Char) :
    ∃ gap, (∀ c ∈ gap, isBlank c = true) ∧ cs = trimEnd cs ++ gap := by
  refine ⟨(cs.reverse.takeWhile isBlank).reverse, ?_, ?_⟩
  · intro c mem
    exact List.mem_takeWhile_imp (List.mem_reverse.1 mem)
  · unfold trimEnd
    rw [← List.reverse_append, List.takeWhile_append_dropWhile, List.reverse_reverse]

theorem trimEnd_cons {c : Char} (solid : isBlank c = false) (cs : List Char) :
    trimEnd (c :: cs) = c :: trimEnd cs := by
  unfold trimEnd
  rw [List.reverse_cons, List.dropWhile_append]
  split
  · rename_i blank
    simp [List.isEmpty_iff.1 blank, solid]
  · simp

theorem trim_of_blank {cs : List Char} (blank : ∀ c ∈ cs, isBlank c = true) : trim cs = [] := by
  unfold trim
  rw [(trimStart_eq_nil_iff cs).2 blank]
  rfl

/-- Blanks at the end do not change what trimming leaves. -/
theorem trim_append {gap : List Char} (blank : ∀ c ∈ gap, isBlank c = true) (cs : List Char) :
    trim (cs ++ gap) = trim cs := by
  unfold trim trimStart
  rw [List.dropWhile_append]
  split
  · rename_i nothing
    rw [List.isEmpty_iff.1 nothing, ← trimStart, (trimStart_eq_nil_iff gap).2 blank]
  · exact trimEnd_append blank _

/-! ## 2. Clauses -/

namespace Written

/-- What the grammar admits from one bar to the next: blanks in front of the bar and behind it, a
word and arguments.  Without a word there is only one place for blanks. -/
structure Clause where
  before : Gap
  behind : Gap
  word : List Char
  isWord : ∀ c ∈ word, Grammar.isWord c = true
  arguments : Option (Gap × Arguments)
  touching : word = [] → ∀ pair ∈ arguments, pair.1.text = []

/-- A clause without its bar and the blanks around that. -/
def Clause.printCall (f : Clause) : List Char :=
  match f.arguments with
  | none => f.word
  | some (gap, arguments) => f.word ++ (gap.text ++ '(' :: (arguments.print ++ [')']))

def Clause.print (f : Clause) : List Char :=
  f.before.text ++ '|' :: (f.behind.text ++ f.printCall)

def printClauses (fs : List Clause) : List Char := fs.flatMap Clause.print

/-- The call that a clause writes, if there is anything behind its bar. -/
def Clause.call? (f : Clause) : Option Call :=
  if f.printCall.isEmpty then none
  else some {
    name := String.ofList f.word
    args :=
      match f.arguments with
      | none => []
      | some (_, arguments) => Slot.readList arguments.print }

theorem printClauses_cons (f : Clause) (fs : List Clause) : printClauses (f :: fs) =
    f.before.text ++ '|' :: (f.behind.text ++ (f.printCall ++ printClauses fs)) := by
  simp [printClauses, Clause.print]

theorem Clause.stops_printCall (f : Clause) : Stops isBlank f.printCall := by
  have word : Stops isBlank f.word := fun c first =>
    isBlank_of_isWord (f.isWord c (List.mem_of_mem_head? first))
  unfold Clause.printCall
  cases written : f.arguments with
  | none => exact word
  | some pair =>
    by_cases empty : f.word = []
    · have touching := f.touching empty pair written
      simp only [empty, touching, List.nil_append]
      exact stops_cons.2 (by decide)
    · exact word.append empty _

theorem last_append (before : List Char) {cs : List Char} (nonempty : cs ≠ [])
    (last : ∀ c ∈ cs.getLast?, isBlank c = false) :
    ∀ c ∈ (before ++ cs).getLast?, isBlank c = false := by
  simpa [List.getLast?_eq_some_getLast nonempty] using last

theorem Clause.last_printCall (f : Clause) : ∀ c ∈ f.printCall.getLast?, isBlank c = false := by
  unfold Clause.printCall
  cases f.arguments with
  | none => exact fun c last => isBlank_of_isWord (f.isWord c (List.mem_of_getLast? last))
  | some pair =>
    obtain ⟨gap, arguments⟩ := pair
    have closing := last_append (f.word ++ (gap.text ++ '(' :: arguments.print))
      (List.cons_ne_nil ')' []) (by simp; decide)
    simpa using closing

/-- The blanks around a clause are trimmed off. -/
theorem Clause.trim_printCall (f : Clause) {gap : List Char}
    (blank : ∀ c ∈ gap, isBlank c = true) :
    trim (f.behind.text ++ (f.printCall ++ gap)) = f.printCall := by
  by_cases nothing : f.printCall = []
  · rw [nothing, List.nil_append, trim_append blank, trim_of_blank f.behind.blank]
  · exact trim_between f.behind.blank blank nothing f.stops_printCall f.last_printCall

/-! ## 3. The segments of a chain -/

/-- A character that means nothing to the walk along a chain. -/
def isNeutral (c : Char) : Bool := isPlain c && c != '|'

theorem step_of_isPlain {n : Call.Nesting} {c : Char} (outside : n.quote = none)
    (free : isPlain c = true) : n.step c = n := by
  simp only [isPlain, Bool.and_eq_true, bne_iff_ne] at free
  simp [Call.Nesting.step, outside, free]

theorem segmentsFrom_neutral {n : Call.Nesting} (outside : n.quote = none) {text : List Char}
    (neutral : ∀ c ∈ text, isNeutral c = true) (segment cs : List Char) :
    Call.segmentsFrom n segment (text ++ cs) =
      Call.segmentsFrom n (text.reverse ++ segment) cs := by
  induction text generalizing segment with
  | nil => rfl
  | cons c text ih =>
    obtain ⟨here, later⟩ := List.forall_mem_cons.1 neutral
    simp only [isNeutral, Bool.and_eq_true, bne_iff_ne] at here
    simp [Call.segmentsFrom, here.2, step_of_isPlain outside here.1, ih later]

theorem segmentsFrom_quoted {q : Char} {text : List Char} (inside : q ∉ text) (depth : Nat)
    (segment cs : List Char) :
    Call.segmentsFrom ⟨some q, depth⟩ segment (text ++ q :: cs) =
      Call.segmentsFrom ⟨none, depth⟩ (q :: (text.reverse ++ segment)) cs := by
  induction text generalizing segment with
  | nil => simp [Call.segmentsFrom, Call.Nesting.isOpen, Call.Nesting.step]
  | cons c text ih =>
    simp only [List.mem_cons, not_or] at inside
    simp [Call.segmentsFrom, Call.Nesting.isOpen, Call.Nesting.step, Ne.symm inside.1, ih inside.2]

/-- A string in quotes is passed, and leaves as many parentheses open. -/
theorem segmentsFrom_string (quote : Quote) {text : List Char} (inside : quote.mark ∉ text)
    (depth : Nat) (segment cs : List Char) :
    Call.segmentsFrom ⟨none, depth + 1⟩ segment (quote.mark :: (text ++ quote.mark :: cs)) =
      Call.segmentsFrom ⟨none, depth + 1⟩ (quote.mark :: (text.reverse ++ quote.mark :: segment))
        cs := by
  rw [← segmentsFrom_quoted inside]
  cases quote with
  | single => simp [Call.segmentsFrom, Call.Nesting.isOpen, Call.Nesting.step, Quote.mark]
  | double => simp [Call.segmentsFrom, Call.Nesting.isOpen, Call.Nesting.step, Quote.mark]

/-- Between parentheses no bar separates. -/
theorem segmentsFrom_arguments (arguments : Arguments) (segment cs : List Char) :
    Call.segmentsFrom ⟨none, 1⟩ segment (arguments.print ++ cs) =
      Call.segmentsFrom ⟨none, 1⟩ (arguments.print.reverse ++ segment) cs := by
  induction arguments generalizing segment with
  | nil => rfl
  | plain c free later ih =>
    have step := @step_of_isPlain ⟨none, 1⟩ c rfl free
    simp [Arguments.print, Call.segmentsFrom, Call.Nesting.isOpen, step, ih]
  | quoted quote text inside later ih =>
    have string := segmentsFrom_string quote inside 0 segment (later.print ++ cs)
    rw [ih] at string
    simpa [Arguments.print] using string

theorem isNeutral_of_isBlank {c : Char} (h : isBlank c = true) : isNeutral c = true := by
  have other : ∀ d, isBlank d = false → c ≠ d := fun d => ne_of_class h
  simp [isNeutral, isPlain, other '(' (by decide), other ')' (by decide), other '\'' (by decide),
    other '"' (by decide), other '|' (by decide)]

theorem isNeutral_of_isWord {c : Char} (h : Grammar.isWord c = true) : isNeutral c = true := by
  have other : ∀ d, Grammar.isWord d = false → c ≠ d := fun d => ne_of_class h
  simp [isNeutral, isPlain, other '(' (by decide), other ')' (by decide), other '\'' (by decide),
    other '"' (by decide), other '|' (by decide)]

theorem Gap.neutral (g : Gap) : ∀ c ∈ g.text, isNeutral c = true := fun c mem =>
  isNeutral_of_isBlank (g.blank c mem)

/-- A clause is passed as a whole. -/
theorem segmentsFrom_printCall (f : Clause) (segment cs : List Char) :
    Call.segmentsFrom {} segment (f.printCall ++ cs) =
      Call.segmentsFrom {} (f.printCall.reverse ++ segment) cs := by
  have word : ∀ c ∈ f.word, isNeutral c = true := fun c mem =>
    isNeutral_of_isWord (f.isWord c mem)
  unfold Clause.printCall
  cases f.arguments with
  | none => exact segmentsFrom_neutral rfl word segment cs
  | some pair =>
    obtain ⟨gap, arguments⟩ := pair
    have inner := segmentsFrom_arguments arguments
      ('(' :: (gap.text.reverse ++ (f.word.reverse ++ segment))) (')' :: cs)
    simp only [List.append_assoc, List.cons_append, List.nil_append]
    rw [segmentsFrom_neutral rfl word, segmentsFrom_neutral rfl gap.neutral]
    simpa [Call.segmentsFrom, Call.Nesting.isOpen, Call.Nesting.step] using inner

/-- The segments of a chain are its clauses, but for blanks around them. -/
theorem segments_printClauses (f : Clause) (fs : List Clause) :
    (Call.segments (f.behind.text ++ (f.printCall ++ printClauses fs))).map trim =
      (f :: fs).map Clause.printCall := by
  unfold Call.segments
  induction fs generalizing f with
  | nil =>
    rw [segmentsFrom_neutral rfl f.behind.neutral, segmentsFrom_printCall]
    have last := @Clause.trim_printCall f [] (by simp)
    simpa [printClauses, Call.segmentsFrom] using last
  | cons g fs ih =>
    have separates : ∀ (segment cs : List Char), Call.segmentsFrom {} segment ('|' :: cs) =
        segment.reverse :: Call.segmentsFrom {} [] cs := fun _ _ => rfl
    rw [segmentsFrom_neutral rfl f.behind.neutral, segmentsFrom_printCall, printClauses_cons,
      segmentsFrom_neutral rfl g.before.neutral, separates, List.map_cons, ih g]
    simpa using f.trim_printCall g.before.blank

theorem segmentsFrom_blank {gap : List Char} (blank : ∀ c ∈ gap, isBlank c = true)
    (n : Call.Nesting) (segment : List Char) :
    Call.segmentsFrom n segment gap = [segment.reverse ++ gap] := by
  induction gap generalizing n segment with
  | nil => simp [Call.segmentsFrom]
  | cons c gap ih =>
    obtain ⟨here, later⟩ := List.forall_mem_cons.1 blank
    have bar : c ≠ '|' := ne_of_class here (by decide)
    simp [Call.segmentsFrom, bar, ih later]

/-- Blanks behind a chain belong to its last segment. -/
theorem segmentsFrom_append_blank {gap : List Char} (blank : ∀ c ∈ gap, isBlank c = true)
    (n : Call.Nesting) (segment cs : List Char) :
    (Call.segmentsFrom n segment (cs ++ gap)).map trim =
      (Call.segmentsFrom n segment cs).map trim := by
  induction cs generalizing n segment with
  | nil => simp [segmentsFrom_blank blank, Call.segmentsFrom, trim_append blank]
  | cons c cs ih =>
    rw [List.cons_append, Call.segmentsFrom, Call.segmentsFrom]
    split
    · rw [List.map_cons, List.map_cons, ih]
    · exact ih _ _

/-! ## 4. The calls of a chain -/

theorem ne_paren_of_isNeutral {c : Char} (h : isNeutral c = true) : (c != '(') = true := by
  simp only [isNeutral, isPlain, Bool.and_eq_true] at h
  exact h.1.1.1.1

theorem Clause.trim_word (f : Clause) {gap : Gap} {arguments : Arguments}
    (written : f.arguments = some (gap, arguments)) : trim (f.word ++ gap.text) = f.word := by
  by_cases empty : f.word = []
  · rw [empty, f.touching empty _ written]
    rfl
  · exact @trim_between [] _ _ (by simp) gap.blank empty
      (fun c first => isBlank_of_isWord (f.isWord c (List.mem_of_mem_head? first)))
      (fun c last => isBlank_of_isWord (f.isWord c (List.mem_of_getLast? last)))

/-- A segment is the call that its clause writes. -/
theorem ofSegment_printCall {f : Clause} (something : f.printCall.isEmpty = false) :
    f.call? = some (Call.ofSegment f.printCall) := by
  have word : ∀ c ∈ f.word, (c != '(') = true := fun c mem =>
    ne_paren_of_isNeutral (isNeutral_of_isWord (f.isWord c mem))
  unfold Clause.call?
  rw [something, if_neg Bool.false_ne_true, Option.some_inj]
  unfold Clause.printCall Call.ofSegment
  cases written : f.arguments with
  | none =>
    have whole : f.word.takeWhile (· != '(') = f.word := by
      simpa using @takeWhile_append_of_stops (· != '(') f.word [] word (by simp [Stops])
    have nothing : f.word.drop (f.word.length + 1) = [] := by simp
    simp only [whole, nothing]
    rfl
  | some pair =>
    obtain ⟨gap, arguments⟩ := pair
    have name : ∀ c ∈ f.word ++ gap.text, (c != '(') = true := by
      intro c mem
      rcases List.mem_append.1 mem with mem | mem
      · exact word c mem
      · exact ne_paren_of_isNeutral (gap.neutral c mem)
    have paren : Stops (· != '(') ('(' :: (arguments.print ++ [')'])) := stops_cons.2 (by decide)
    have inner : (f.word ++ gap.text ++ '(' :: (arguments.print ++ [')'])).drop
        ((f.word ++ gap.text).length + 1) = arguments.print ++ [')'] := by
      rw [← List.drop_drop, List.drop_left]
      rfl
    simp only [← List.append_assoc, takeWhile_append_of_stops name paren,
      f.trim_word written] at inner ⊢
    rw [inner, if_pos (by simp)]
    simp

theorem map_ofSegment_printCall (fs : List Clause) :
    ((fs.map Clause.printCall).filter (!·.isEmpty)).map Call.ofSegment =
      fs.filterMap Clause.call? := by
  induction fs with
  | nil => rfl
  | cons f fs ih =>
    cases nothing : f.printCall.isEmpty with
    | true => simpa [nothing, Clause.call?] using ih
    | false => simpa [nothing, ofSegment_printCall nothing] using ih

/-- **The chain that is read from clauses is their calls.** -/
theorem readChain_printClauses (fs : List Clause) :
    Call.readChain (trim (printClauses fs)) = fs.filterMap Clause.call? := by
  cases fs with
  | nil => rfl
  | cons f fs =>
    have trimmed : ∀ before : List Char, (∀ c ∈ before, isBlank c = true) → ∀ cs,
        trim (before ++ '|' :: cs) = '|' :: trimEnd cs := by
      intro before blank cs
      have bar : Stops isBlank ('|' :: cs) := stops_cons.2 (by decide)
      unfold trim
      rw [trimStart_append blank, trimStart_of_stops bar, trimEnd_cons (by decide)]
    have again := trimmed [] (by simp)
      (trimEnd (f.behind.text ++ (f.printCall ++ printClauses fs)))
    rw [List.nil_append, trimEnd_trimEnd] at again
    obtain ⟨gap, blank, whole⟩ :=
      exists_trimEnd_append (f.behind.text ++ (f.printCall ++ printClauses fs))
    have segments := segmentsFrom_append_blank blank {} []
      (trimEnd (f.behind.text ++ (f.printCall ++ printClauses fs)))
    rw [← whole] at segments
    rw [printClauses_cons, trimmed f.before.text f.before.blank]
    unfold Call.readChain
    rw [again]
    simp only [List.head?_cons, beq_self_eq_true, if_true, List.drop_one, List.tail_cons]
    unfold Call.segments
    rw [← segments, ← Call.segments, segments_printClauses, map_ofSegment_printCall]

end Written

end Stencil
