/-
# Texts with any delimiters

What marking does to a text when the delimiters are any texts, several characters long, and other
pairs are marked over it.

* `Delimiters.found`: the delimiters of a pair that a text is read as holding.  Delimiters may
  overlap, each other and themselves, and then this is less than all that occur in it.
* `Fits`: the texts in which marking a pair gives every delimiter its mark.
* `Marked`: one text is another one with a mark at each delimiter that is found in it.  Marking
  gives such a text (`marked_mark`), and does so still when a pair that shares no character with the
  first one is marked in it; that pair finds the same as before (`Marked.of_other`).

A mark holds no character of a delimiter.  So what is found at a place of a marked text is found at
that place of the text itself (`Marked.begins`), which carries all of these.
-/
import Stencil.Proofs.Strays

namespace Stencil

open Stencil.Text Stencil.Depth

/-! ## 1. Beginnings of a text -/

/-- The beginning of two texts put together ends in the first one or in the second. -/
theorem prefix_append_cases {w front behind : List Char} (h : w <+: front ++ behind) :
    w <+: front ∨ ∃ more, w = front ++ more ∧ more <+: behind := by
  rcases List.prefix_or_prefix_of_prefix h (List.prefix_append front behind) with inside | beyond
  · exact Or.inl inside
  · obtain ⟨more, rfl⟩ := beyond
    exact Or.inr ⟨more, rfl, (List.prefix_append_right_inj front).1 h⟩

/-- A text without the characters of marks. -/
def Unmarked (cs : List Char) : Prop := ∀ c ∈ cs, isMark c = false

instance : DecidablePred Unmarked := fun cs =>
  decidable_of_iff (cs.all fun c => !isMark c) (by simp [Unmarked])

theorem Unmarked.sublist {part cs : List Char} (h : Unmarked cs) (inside : part.Sublist cs) :
    Unmarked part := fun c mem => h c (inside.subset mem)

theorem Unmarked.tail {c : Char} {cs : List Char} (h : Unmarked (c :: cs)) : Unmarked cs :=
  h.sublist (List.sublist_cons_self c cs)

theorem Unmarked.right {front behind : List Char} (h : Unmarked (front ++ behind)) :
    Unmarked behind := h.sublist (List.sublist_append_right front behind)

theorem Unmarked.not_mem {cs : List Char} (h : Unmarked cs) {c : Char} (mark : isMark c = true) :
    c ∉ cs := fun mem => ne_of_class mark (h c mem) rfl

/-- It ends where a mark begins. -/
theorem Unmarked.eq_nil {w cs : List Char} (h : Unmarked w) (mark : ∃ c ∈ cs.head?, isMark c = true)
    (begins : w <+: cs) : w = [] := by
  obtain ⟨c, first, marked⟩ := mark
  cases w with
  | nil => rfl
  | cons d w =>
    obtain ⟨more, rfl⟩ := begins
    cases first
    rw [h _ (List.mem_cons_self ..)] at marked
    cases marked

theorem head?_openText (n : Nat) (cs : List Char) :
    ∃ c ∈ (Bracket.openText n ++ cs).head?, isMark c = true := by
  cases digits : Bracket.openText n with
  | nil => simp [Bracket.openText] at digits
  | cons c ds =>
    exact ⟨c, rfl, Bracket.isMark_openText n c (digits ▸ List.mem_cons_self ..)⟩

theorem head?_closeText (n : Nat) (cs : List Char) :
    ∃ c ∈ (Bracket.closeText n ++ cs).head?, isMark c = true := ⟨'%', rfl, by decide⟩

namespace Delimiters

/-! ## 2. What is found in a text -/

/-- A pair that can be marked: neither delimiter is empty, and no mark holds one of their
characters. -/
structure Proper (d : Delimiters) : Prop where
  opener : d.opener ≠ []
  closer : d.closer ≠ []
  unmarked_opener : Unmarked d.opener
  unmarked_closer : Unmarked d.closer

instance : DecidablePred Proper := fun d =>
  decidable_of_iff (d.opener ≠ [] ∧ d.closer ≠ [] ∧ Unmarked d.opener ∧ Unmarked d.closer)
    ⟨fun ⟨opener, closer, unmarked, unmarked'⟩ => ⟨opener, closer, unmarked, unmarked'⟩,
      fun proper => ⟨proper.1, proper.2, proper.3, proper.4⟩⟩

theorem Proper.percent {d : Delimiters} (proper : d.Proper) : '%' ∉ d.opener ∧ '%' ∉ d.closer :=
  ⟨proper.unmarked_opener.not_mem (by decide), proper.unmarked_closer.not_mem (by decide)⟩

/-- One of the two delimiters of a pair. -/
inductive Side
  | opener
  | closer
  deriving DecidableEq

/-- The delimiters that are found in a text, from left to right and without overlap.  Where both
fit, it is the opener. -/
def found (d : Delimiters) : List Char → List Side
  | [] => []
  | c :: rest =>
    if d.opener.isPrefixOf (c :: rest) then
      .opener :: found d (rest.drop (d.opener.length - 1))
    else if d.closer.isPrefixOf (c :: rest) then
      .closer :: found d (rest.drop (d.closer.length - 1))
    else found d rest
termination_by cs => cs.length
decreasing_by all_goals simp only [List.length_drop, List.length_cons]; omega

/-- No closer of these is without an opener before it that is still open, when `depth` regions are
open in front of them. -/
def Closes (depth : Nat) (sides : List Side) : Prop :=
  ∀ front ∈ sides.inits, front.count .closer ≤ depth + front.count .opener

/-- A text that has none of the two delimiters, or has closers, none of them without an opener that
is still open. -/
def Fits (d : Delimiters) (cs : List Char) : Prop :=
  d.found cs = [] ∨ (.closer ∈ d.found cs ∧ Closes 0 (d.found cs))

instance (depth : Nat) : DecidablePred (Closes depth) := fun sides =>
  inferInstanceAs (Decidable (∀ front ∈ sides.inits, _))

instance (d : Delimiters) : DecidablePred d.Fits := fun _ => inferInstanceAs (Decidable (_ ∨ _))

variable {d e : Delimiters}

@[simp] theorem found_nil : d.found [] = [] := by rw [found]

theorem isPrefixOf_eq_false {w cs : List Char} (h : ¬ w <+: cs) : w.isPrefixOf cs = false := by
  rwa [← List.isPrefixOf_iff_prefix, Bool.not_eq_true] at h

/-- A text behind a delimiter, as the scans see it: by its first character and the others. -/
theorem exists_cons_append {w : List Char} (nonempty : w ≠ []) (cs : List Char) :
    ∃ c rest, w ++ cs = c :: rest ∧ w.isPrefixOf (c :: rest) = true ∧
      rest.drop (w.length - 1) = cs := by
  cases w with
  | nil => exact absurd rfl nonempty
  | cons c w => exact ⟨c, w ++ cs, rfl, by simp, by simp⟩

theorem found_opener (proper : d.Proper) (cs : List Char) :
    d.found (d.opener ++ cs) = .opener :: d.found cs := by
  obtain ⟨c, rest, whole, opens, behind⟩ := exists_cons_append proper.opener cs
  rw [whole, found, if_pos opens, behind]

theorem found_closer (proper : d.Proper) {cs : List Char}
    (noOpener : ¬ d.opener <+: d.closer ++ cs) :
    d.found (d.closer ++ cs) = .closer :: d.found cs := by
  obtain ⟨c, rest, whole, closes, behind⟩ := exists_cons_append proper.closer cs
  rw [whole] at noOpener ⊢
  rw [found, isPrefixOf_eq_false noOpener, if_neg Bool.false_ne_true, if_pos closes, behind]

theorem found_other {c : Char} {cs : List Char} (noOpener : ¬ d.opener <+: c :: cs)
    (noCloser : ¬ d.closer <+: c :: cs) : d.found (c :: cs) = d.found cs := by
  rw [found, isPrefixOf_eq_false noOpener, isPrefixOf_eq_false noCloser,
    if_neg Bool.false_ne_true, if_neg Bool.false_ne_true]

@[simp] theorem mark_nil (depth : Nat) : mark d depth [] = [] := by rw [mark]

theorem mark_opener (proper : d.Proper) (depth : Nat) (cs : List Char) :
    mark d depth (d.opener ++ cs) =
      d.opener ++ (Bracket.openText (depth + 1) ++ mark d (depth + 1) cs) := by
  obtain ⟨c, rest, whole, opens, behind⟩ := exists_cons_append proper.opener cs
  rw [whole, mark, if_pos opens, behind]
  simp [Bracket.openText]

theorem mark_closer (proper : d.Proper) (depth : Nat) {cs : List Char}
    (noOpener : ¬ d.opener <+: d.closer ++ cs) :
    mark d depth (d.closer ++ cs) =
      (if depth = 0 then [] else Bracket.closeText depth) ++
        (d.closer ++ mark d (depth - 1) cs) := by
  obtain ⟨c, rest, whole, closes, behind⟩ := exists_cons_append proper.closer cs
  rw [whole] at noOpener ⊢
  rw [mark, isPrefixOf_eq_false noOpener, if_neg Bool.false_ne_true, if_pos closes, behind,
    List.append_assoc]
  rfl

theorem mark_other (depth : Nat) {c : Char} {cs : List Char} (noOpener : ¬ d.opener <+: c :: cs)
    (noCloser : ¬ d.closer <+: c :: cs) : mark d depth (c :: cs) = c :: mark d depth cs := by
  rw [mark, isPrefixOf_eq_false noOpener, isPrefixOf_eq_false noCloser,
    if_neg Bool.false_ne_true, if_neg Bool.false_ne_true]

/-- Induction along what is found in a text. -/
@[elab_as_elim]
theorem scan_induction (proper : d.Proper) {motive : List Char → Prop} (nil : motive [])
    (opener : ∀ cs, motive cs → motive (d.opener ++ cs))
    (closer : ∀ cs, ¬ d.opener <+: d.closer ++ cs → motive cs → motive (d.closer ++ cs))
    (other : ∀ c cs, ¬ d.opener <+: c :: cs → ¬ d.closer <+: c :: cs → motive cs →
      motive (c :: cs)) (cs : List Char) : motive cs := by
  induction length : cs.length using Nat.strong_induction_on generalizing cs with
  | _ n ih =>
    have shorter : ∀ w more, w ≠ [] → w ++ more = cs → motive more := by
      rintro w more nonempty rfl
      have := List.length_pos_iff.2 nonempty
      exact ih more.length (by simp only [List.length_append] at length; omega) more rfl
    by_cases opens : d.opener <+: cs
    · obtain ⟨more, rfl⟩ := opens
      exact opener more (shorter _ more proper.opener rfl)
    by_cases closes : d.closer <+: cs
    · obtain ⟨more, rfl⟩ := closes
      exact closer more opens (shorter _ more proper.closer rfl)
    · cases cs with
      | nil => exact nil
      | cons c cs => exact other c cs opens closes (shorter [c] cs (List.cons_ne_nil _ _) rfl)

/-- Induction along a text in which nothing is found. -/
@[elab_as_elim]
theorem silent_induction (proper : d.Proper) {motive : ∀ cs, d.found cs = [] → Prop}
    (nil : motive [] found_nil)
    (other : ∀ c cs (noOpener : ¬ d.opener <+: c :: cs) (noCloser : ¬ d.closer <+: c :: cs)
      (none : d.found cs = []), motive cs none →
        motive (c :: cs) ((found_other noOpener noCloser).trans none))
    (cs : List Char) (none : d.found cs = []) : motive cs none := by
  induction cs using d.scan_induction proper with
  | nil => exact nil
  | opener cs ih =>
    rw [found_opener proper] at none
    cases none
  | closer cs noOpener ih =>
    rw [found_closer proper noOpener] at none
    cases none
  | other c cs noOpener noCloser ih =>
    exact other c cs noOpener noCloser ((found_other noOpener noCloser).symm.trans none) (ih _)

/-! ## 3. Texts with marks -/

/-- The first text is the second one with a mark at each closer that is found in it, and with one at
each opener if `openers` is set. -/
inductive Marked (d : Delimiters) (openers : Bool) : List Char → List Char → Prop
  | nil : Marked d openers [] []
  | opener (n : Nat) {u t : List Char} (h : Marked d openers u t) :
      Marked d openers (d.opener ++ ((if openers then Bracket.openText n else []) ++ u))
        (d.opener ++ t)
  | closer (n : Nat) {u t : List Char} (noOpener : ¬ d.opener <+: d.closer ++ t)
      (h : Marked d openers u t) :
      Marked d openers (Bracket.closeText n ++ (d.closer ++ u)) (d.closer ++ t)
  | other {c : Char} {u t : List Char} (noOpener : ¬ d.opener <+: c :: t)
      (noCloser : ¬ d.closer <+: c :: t) (h : Marked d openers u t) :
      Marked d openers (c :: u) (c :: t)

theorem Closes.opener {depth : Nat} {sides : List Side} (h : Closes depth (.opener :: sides)) :
    Closes (depth + 1) sides := by
  intro front mem
  have bound := h (.opener :: front) (by simpa using mem)
  rw [List.count_cons_self, List.count_cons_of_ne (by decide)] at bound
  omega

theorem Closes.closer {depth : Nat} {sides : List Side} (h : Closes depth (.closer :: sides)) :
    ∃ below, depth = below + 1 ∧ Closes below sides := by
  have first : 1 ≤ depth := by simpa using h [.closer] (by simp)
  obtain ⟨below, rfl⟩ := Nat.exists_eq_add_of_le' first
  refine ⟨below, rfl, fun front mem => ?_⟩
  have bound := h (.closer :: front) (by simpa using mem)
  rw [List.count_cons_self, List.count_cons_of_ne (by decide)] at bound
  omega

/-- **Marking gives a text with marks**, if every closer has an opener before it. -/
theorem marked_mark (proper : d.Proper) {cs : List Char} {depth : Nat}
    (closes : Closes depth (d.found cs)) : Marked d true (mark d depth cs) cs := by
  induction cs using d.scan_induction proper generalizing depth with
  | nil =>
    rw [mark_nil]
    exact .nil
  | opener cs ih =>
    rw [found_opener proper] at closes
    rw [mark_opener proper]
    exact .opener _ (ih closes.opener)
  | closer cs noOpener ih =>
    rw [found_closer proper noOpener] at closes
    obtain ⟨below, rfl, later⟩ := closes.closer
    rw [mark_closer proper _ noOpener, if_neg (Nat.succ_ne_zero below)]
    exact .closer _ noOpener (ih later)
  | other c cs noOpener noCloser ih =>
    rw [found_other noOpener noCloser] at closes
    rw [mark_other depth noOpener noCloser]
    exact .other noOpener noCloser (ih closes)

/-- **What a marked text begins with, the text itself begins with**, if it holds no character of a
mark. -/
theorem Marked.begins {openers : Bool} {u t w : List Char} (h : Marked d openers u t)
    (unmarked : Unmarked w) (begins : w <+: u) : w <+: t := by
  induction h generalizing w with
  | nil => exact begins
  | @opener n u t h ih =>
    rcases prefix_append_cases begins with inside | ⟨more, rfl, beyond⟩
    · exact inside.trans (List.prefix_append _ _)
    · refine (List.prefix_append_right_inj _).2 ?_
      cases openers with
      | true =>
        rw [unmarked.right.eq_nil (head?_openText n u) beyond]
        exact List.nil_prefix
      | false => exact ih unmarked.right beyond
  | @closer n u t noOpener h ih =>
    rw [unmarked.eq_nil (head?_closeText n _) begins]
    exact List.nil_prefix
  | @other c u t noOpener noCloser h ih =>
    cases w with
    | nil => exact List.nil_prefix
    | cons d w =>
      obtain ⟨rfl, later⟩ := List.cons_prefix_cons.1 begins
      exact (List.prefix_cons_inj _).2 (ih unmarked.tail later)

/-! ## 4. Other delimiters -/

/-- A text without the characters of both delimiters. -/
def Free (d : Delimiters) (cs : List Char) : Prop := ∀ c ∈ cs, c ∉ d.opener ∧ c ∉ d.closer

theorem not_prefix_of_not_mem {w cs : List Char} {c : Char} (nonempty : w ≠ []) (other : c ∉ w) :
    ¬ w <+: c :: cs := by
  intro begins
  cases w with
  | nil => exact nonempty rfl
  | cons a w =>
    obtain ⟨rfl, -⟩ := List.cons_prefix_cons.1 begins
    exact other (List.mem_cons_self ..)

theorem free_nil : d.Free [] := fun _ mem => absurd mem List.not_mem_nil

/-- No delimiter is found where none of its characters stands. -/
theorem Free.starts_neither {c : Char} {front : List Char} (free : d.Free (c :: front))
    (proper : d.Proper) (cs : List Char) : ¬ d.opener <+: c :: cs ∧ ¬ d.closer <+: c :: cs := by
  obtain ⟨noOpener, noCloser⟩ := free c (List.mem_cons_self ..)
  exact ⟨not_prefix_of_not_mem proper.opener noOpener,
    not_prefix_of_not_mem proper.closer noCloser⟩

theorem Free.tail {c : Char} {cs : List Char} (free : d.Free (c :: cs)) : d.Free cs :=
  fun a mem => free a (List.mem_cons_of_mem _ mem)

theorem Free.found_append {front : List Char} (free : d.Free front) (proper : d.Proper)
    (cs : List Char) : d.found (front ++ cs) = d.found cs := by
  induction front with
  | nil => rfl
  | cons c front ih =>
    obtain ⟨noOpener, noCloser⟩ := free.starts_neither proper (front ++ cs)
    rw [List.cons_append, found_other noOpener noCloser, ih free.tail]

theorem Free.mark_append {front : List Char} (free : d.Free front) (proper : d.Proper)
    (depth : Nat) (cs : List Char) : mark d depth (front ++ cs) = front ++ mark d depth cs := by
  induction front with
  | nil => rfl
  | cons c front ih =>
    obtain ⟨noOpener, noCloser⟩ := free.starts_neither proper (front ++ cs)
    rw [List.cons_append, mark_other depth noOpener noCloser, ih free.tail, List.cons_append]

theorem Marked.free_append {openers : Bool} {u t front : List Char} (free : d.Free front)
    (proper : d.Proper) (h : Marked d openers u t) :
    Marked d openers (front ++ u) (front ++ t) := by
  induction front with
  | nil => exact h
  | cons c front ih =>
    obtain ⟨noOpener, noCloser⟩ := free.starts_neither proper (front ++ t)
    exact .other noOpener noCloser (ih free.tail)

/-- What is free of delimiters stands in the marked text as it is. -/
theorem Marked.of_free_append {openers : Bool} {u t front : List Char} (free : d.Free front)
    (proper : d.Proper) (h : Marked d openers u (front ++ t)) :
    ∃ behind, u = front ++ behind ∧ Marked d openers behind t := by
  induction front generalizing u with
  | nil => exact ⟨u, rfl, h⟩
  | cons c front ih =>
    obtain ⟨noOpener, noCloser⟩ := free.starts_neither proper (front ++ t)
    generalize whole : c :: front ++ t = text at h
    cases h with
    | nil => cases whole
    | opener n h => exact absurd ⟨_, whole.symm⟩ noOpener
    | closer n _ h => exact absurd ⟨_, whole.symm⟩ noCloser
    | other _ _ h =>
      cases whole
      obtain ⟨behind, rfl, later⟩ := ih free.tail h
      exact ⟨behind, rfl, later⟩

/-- Two pairs without a character in common. -/
def Disjoint (d e : Delimiters) : Prop :=
  ∀ c, c ∈ d.opener ∨ c ∈ d.closer → c ∉ e.opener ∧ c ∉ e.closer

instance : DecidableRel Disjoint := fun d e =>
  decidable_of_iff ((d.opener ++ d.closer).all fun c => c ∉ e.opener ∧ c ∉ e.closer)
    (by simp only [Disjoint, List.all_eq_true, List.mem_append, decide_eq_true_eq])

theorem Disjoint.symm (h : d.Disjoint e) : e.Disjoint d := by
  intro c mem
  constructor
  · intro opener
    have := h c (Or.inl opener)
    tauto
  · intro closer
    have := h c (Or.inr closer)
    tauto

instance : Std.Symm Disjoint := ⟨fun _ _ h => h.symm⟩

theorem Disjoint.free_opener (h : d.Disjoint e) : e.Free d.opener := fun c mem => h c (Or.inl mem)

theorem Disjoint.free_closer (h : d.Disjoint e) : e.Free d.closer := fun c mem => h c (Or.inr mem)

/-- Marks are free of delimiters. -/
theorem Proper.free (proper : d.Proper) {cs : List Char} (mark : ∀ c ∈ cs, isMark c = true) :
    d.Free cs := fun c mem =>
  ⟨proper.unmarked_opener.not_mem (mark c mem), proper.unmarked_closer.not_mem (mark c mem)⟩

theorem Proper.free_openText (proper : d.Proper) (n : Nat) : d.Free (Bracket.openText n) :=
  proper.free (Bracket.isMark_openText n)

theorem Proper.free_closeText (proper : d.Proper) (n : Nat) : d.Free (Bracket.closeText n) :=
  proper.free (Bracket.isMark_closeText n)

/-- Marking puts nothing in front of what a text begins with, and nothing into it. -/
theorem prefix_of_mark (proper : d.Proper) {cs w : List Char} (unmarked : Unmarked w) {depth : Nat}
    (begins : w <+: mark d depth cs) : w <+: cs := by
  induction cs using d.scan_induction proper generalizing w depth with
  | nil => simpa using begins
  | opener cs ih =>
    rw [mark_opener proper] at begins
    rcases prefix_append_cases begins with inside | ⟨more, rfl, beyond⟩
    · exact inside.trans (List.prefix_append _ _)
    · rw [unmarked.right.eq_nil (head?_openText _ _) beyond, List.append_nil]
      exact List.prefix_append _ _
  | closer cs noOpener ih =>
    rw [mark_closer proper depth noOpener] at begins
    split at begins
    · rw [List.nil_append] at begins
      rcases prefix_append_cases begins with inside | ⟨more, rfl, beyond⟩
      · exact inside.trans (List.prefix_append _ _)
      · exact (List.prefix_append_right_inj _).2 (ih unmarked.right beyond)
    · rw [unmarked.eq_nil (head?_closeText _ _) begins]
      exact List.nil_prefix
  | other c cs noOpener noCloser ih =>
    rw [mark_other depth noOpener noCloser] at begins
    cases w with
    | nil => exact List.nil_prefix
    | cons a w =>
      obtain ⟨rfl, later⟩ := List.cons_prefix_cons.1 begins
      exact (List.prefix_cons_inj _).2 (ih unmarked.tail later)

/-- **Another pair finds in a marked text what it finds in the text itself, and the marks stay whole
when it is marked.**  The induction is on the length of the text: where the other pair finds one of
its delimiters, several characters are passed that the relation passes one by one. -/
theorem Marked.of_other (proper : d.Proper) (proper' : e.Proper) (disjoint : d.Disjoint e)
    {openers : Bool} {u t : List Char} (h : Marked d openers u t) :
    e.found u = e.found t ∧ ∀ depth, Marked d openers (mark e depth u) (mark e depth t) := by
  induction length : t.length using Nat.strong_induction_on generalizing u t with
  | _ n ih =>
    have behind : ∀ w more u', w ≠ [] → t = w ++ more → Marked d openers u' more →
        e.found u' = e.found more ∧
          ∀ depth, Marked d openers (mark e depth u') (mark e depth more) := by
      intro w more u' nonempty whole later
      have := List.length_pos_iff.2 nonempty
      rw [whole, List.length_append] at length
      exact ih more.length (by omega) later rfl
    cases h with
    | nil => exact ⟨rfl, fun depth => by rw [mark_nil]; exact .nil⟩
    | @opener k u t h =>
      obtain ⟨same, marks⟩ := behind _ _ _ proper.opener rfl h
      have free := disjoint.free_opener
      have freeMark : e.Free (if openers then Bracket.openText k else []) := by
        split
        · exact proper'.free_openText k
        · exact fun c no => absurd no List.not_mem_nil
      refine ⟨?_, fun depth => ?_⟩
      · rw [free.found_append proper', freeMark.found_append proper', free.found_append proper',
          same]
      · rw [free.mark_append proper', freeMark.mark_append proper', free.mark_append proper']
        exact .opener k (marks depth)
    | @closer k u t noOpener h =>
      obtain ⟨same, marks⟩ := behind _ _ _ proper.closer rfl h
      have free := disjoint.free_closer
      have freeMark := proper'.free_closeText k
      refine ⟨?_, fun depth => ?_⟩
      · rw [freeMark.found_append proper', free.found_append proper', free.found_append proper',
          same]
      · have noOpener' : ¬ d.opener <+: d.closer ++ mark e depth t := by
          rw [← free.mark_append proper']
          exact fun begins => noOpener (prefix_of_mark proper' proper.unmarked_opener begins)
        rw [freeMark.mark_append proper', free.mark_append proper', free.mark_append proper']
        exact .closer k noOpener' (marks depth)
    | @other c u t noOpener noCloser h =>
      have whole : Marked d openers (c :: u) (c :: t) := .other noOpener noCloser h
      have back : ∀ {w}, Unmarked w → ¬ w <+: c :: t → ¬ w <+: c :: u :=
        fun unmarked none begins => none (whole.begins unmarked begins)
      by_cases opens : e.opener <+: c :: t
      · obtain ⟨more, eq⟩ := opens
        have free := disjoint.symm.free_opener
        rw [← eq] at whole
        obtain ⟨u', eq', later⟩ := whole.of_free_append free proper
        obtain ⟨same, marks⟩ := behind _ _ _ proper'.opener eq.symm later
        rw [← eq, eq']
        refine ⟨?_, fun depth => ?_⟩
        · rw [found_opener proper', found_opener proper', same]
        · rw [mark_opener proper', mark_opener proper']
          exact .free_append free proper
            (.free_append (proper.free_openText _) proper (marks (depth + 1)))
      have noOpener' := back proper'.unmarked_opener opens
      by_cases closes : e.closer <+: c :: t
      · obtain ⟨more, eq⟩ := closes
        have free := disjoint.symm.free_closer
        rw [← eq] at whole opens
        obtain ⟨u', eq', later⟩ := whole.of_free_append free proper
        obtain ⟨same, marks⟩ := behind _ _ _ proper'.closer eq.symm later
        rw [eq'] at noOpener'
        rw [← eq, eq']
        refine ⟨?_, fun depth => ?_⟩
        · rw [found_closer proper' noOpener', found_closer proper' opens, same]
        · have freeMark : d.Free (if depth = 0 then [] else Bracket.closeText depth) := by
            split
            · exact fun c no => absurd no List.not_mem_nil
            · exact proper.free_closeText depth
          rw [mark_closer proper' depth noOpener', mark_closer proper' depth opens]
          exact .free_append freeMark proper (.free_append free proper (marks (depth - 1)))
      · have noCloser' := back proper'.unmarked_closer closes
        obtain ⟨same, marks⟩ := behind [c] _ _ (List.cons_ne_nil _ _) rfl h
        refine ⟨?_, fun depth => ?_⟩
        · rw [found_other noOpener' noCloser', found_other opens closes, same]
        · have kept := mark_other depth opens closes
          have none : ∀ {w}, Unmarked w → ¬ w <+: c :: t → ¬ w <+: c :: mark e depth t := by
            intro w unmarked none
            rw [← kept]
            exact fun begins => none (prefix_of_mark proper' unmarked begins)
          rw [mark_other depth noOpener' noCloser', kept]
          exact .other (none proper.unmarked_opener noOpener)
            (none proper.unmarked_closer noCloser) (marks depth)

end Delimiters

end Stencil
