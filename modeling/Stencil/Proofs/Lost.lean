/-
# Which pairs of delimiters come back

Pairs of delimiters that are not reversible lose some text, though the text fits them.

* `loses_of_not_literal`: a delimiter with a dollar sign may be read as a reference;
* `loses_of_straddles`: an opener that straddles a closer takes a digit of the text for its mark;
* `loses_of_mistaken`: a closer that begins its opener takes one too, behind the mark of another
  pair.

Each of these texts holds no character of the pairs that have no part in it, so they leave it alone
(`unmarkPairs_markPairs_eq`).  Hence `unmarkPairs_markPairs_iff`: every text comes back that fits
the pairs, exactly if they are reversible.
-/
import Stencil.Proofs.Reversible

namespace Stencil

open Stencil.Text Stencil.Depth

namespace Delimiters

variable {d e : Delimiters}

/-! ## 1. Pairs that take no part -/

/-- A text of characters of marks and of these pairs. -/
def Within (kept : List Delimiters) (cs : List Char) : Prop :=
  ∀ c ∈ cs, isMark c = true ∨ ∃ d ∈ kept, c ∈ d.opener ∨ c ∈ d.closer

theorem mem_mark (proper : d.Proper) {cs : List Char} {depth : Nat} {c : Char}
    (mem : c ∈ mark d depth cs) : c ∈ cs ∨ isMark c = true := by
  induction cs using d.scan_induction proper generalizing depth with
  | nil =>
    rw [mark_nil] at mem
    exact absurd mem List.not_mem_nil
  | opener cs ih =>
    rw [mark_opener proper] at mem
    rcases List.mem_append.1 mem with inside | mem
    · exact Or.inl (List.mem_append_left _ inside)
    rcases List.mem_append.1 mem with marks | later
    · exact Or.inr (Bracket.isMark_openText _ c marks)
    · exact (ih later).imp_left (List.mem_append_right _)
  | closer cs noOpener ih =>
    rw [mark_closer proper depth noOpener] at mem
    rcases List.mem_append.1 mem with marks | mem
    · split at marks
      · exact absurd marks List.not_mem_nil
      · exact Or.inr (Bracket.isMark_closeText _ c marks)
    rcases List.mem_append.1 mem with inside | later
    · exact Or.inl (List.mem_append_left _ inside)
    · exact (ih later).imp_left (List.mem_append_right _)
  | other a cs noOpener noCloser ih =>
    rw [mark_other depth noOpener noCloser] at mem
    rcases List.mem_cons.1 mem with rfl | later
    · exact Or.inl (List.mem_cons_self ..)
    · exact (ih later).imp_left (List.mem_cons_of_mem _)

theorem mem_substitute {size? : List Char → Option Nat} {w cs : List Char} (unmarked : Unmarked w)
    {c : Char} (mem : c ∈ substitute size? (expand · w) cs) : c ∈ cs ∨ c ∈ w := by
  induction length : cs.length using Nat.strong_induction_on generalizing cs with
  | _ n ih =>
    cases cs with
    | nil =>
      rw [substitute] at mem
      exact Or.inl mem
    | cons a cs =>
      rw [substitute] at mem
      split at mem
      · rename_i k found
        rcases List.mem_append.1 mem with put | later
        · exact Or.inr ((expand_sublist unmarked _).subset put)
        · have shorter : (cs.drop (k - 1)).length < n := by
            rw [← length, List.length_drop, List.length_cons]
            omega
          refine (ih _ shorter later rfl).imp_left fun inside => ?_
          exact List.mem_cons_of_mem _ ((List.drop_sublist _ _).subset inside)
      · rcases List.mem_cons.1 mem with rfl | later
        · exact Or.inl (List.mem_cons_self ..)
        · have shorter : cs.length < n := by
            rw [← length, List.length_cons]
            omega
          exact (ih _ shorter later rfl).imp_left (List.mem_cons_of_mem _)

theorem mem_unmarkPair (proper : d.Proper) {cs : List Char} {c : Char}
    (mem : c ∈ unmarkPair cs d) : c ∈ cs ∨ c ∈ d.opener ∨ c ∈ d.closer := by
  rw [unmarkPair_eq proper] at mem
  rcases mem_substitute proper.unmarked_closer mem with opened | closer
  · exact (mem_substitute proper.unmarked_opener opened).imp_right Or.inl
  · exact Or.inr (Or.inr closer)

theorem Within.markPair {kept : List Delimiters} (proper : d.Proper) {cs : List Char}
    (within : Within kept cs) : Within kept (markPair cs d) := by
  intro c mem
  unfold Depth.markPair at mem
  split at mem
  · rcases mem_mark proper mem with inside | marks
    · exact within c inside
    · exact Or.inl marks
  · exact within c mem

theorem Within.markPairs {kept pairs : List Delimiters} (proper : ∀ d ∈ pairs, d.Proper)
    {cs : List Char} (within : Within kept cs) : Within kept (markPairs pairs cs) := by
  induction pairs generalizing cs with
  | nil => exact within
  | cons d pairs ih =>
    obtain ⟨proper', proper⟩ := List.forall_mem_cons.1 proper
    exact ih proper (within.markPair proper')

theorem Within.unmarkPair {kept : List Delimiters} (proper : d.Proper) (part : d ∈ kept)
    {cs : List Char} (within : Within kept cs) : Within kept (unmarkPair cs d) := by
  intro c mem
  rcases mem_unmarkPair proper mem with inside | own
  · exact within c inside
  · exact Or.inr ⟨d, part, own⟩

/-- Another pair finds nothing in it. -/
theorem Within.found_eq_nil {kept : List Delimiters} (proper : e.Proper)
    (apart : ∀ d ∈ kept, d.Disjoint e) {cs : List Char} (within : Within kept cs) :
    e.found cs = [] := by
  have free : e.Free cs := by
    intro c mem
    rcases within c mem with marks | ⟨d, part, own⟩
    · exact proper.free (List.forall_mem_singleton.2 marks) c (List.mem_singleton_self c)
    · exact apart d part c own
  have none := free.found_append proper []
  rwa [List.append_nil, found_nil] at none

theorem Separate.found_eq_nil {kept pairs : List Delimiters} (separate : Separate pairs)
    (part : kept.Sublist pairs) (mem : e ∈ pairs) (other : e ∉ kept) {cs : List Char}
    (within : Within kept cs) : e.found cs = [] := by
  refine within.found_eq_nil (separate.proper e mem) fun d mem' => ?_
  refine separate.disjoint.forall (part.subset mem') mem ?_
  rintro rfl
  exact other mem'

theorem markPair_of_found_eq_nil (proper : d.Proper) {cs : List Char} (none : d.found cs = []) :
    Depth.markPair cs d = cs := by
  have fits : d.Fits cs := Or.inl none
  rw [fits.markPair_eq proper, mark_of_found_eq_nil proper none]

/-- What the others leave alone can be left to the pairs that take part. -/
theorem foldl_filter_kept {f : List Char → Delimiters → List Char} {kept pairs : List Delimiters}
    (keeps : ∀ d ∈ kept, ∀ cs, Within kept cs → Within kept (f cs d))
    (skips : ∀ d ∈ pairs, d ∉ kept → ∀ cs, Within kept cs → f cs d = cs) {cs : List Char}
    (within : Within kept cs) :
    pairs.foldl f cs = (pairs.filter (· ∈ kept)).foldl f cs := by
  induction pairs generalizing cs with
  | nil => rfl
  | cons d pairs ih =>
    obtain ⟨skip, skips⟩ := List.forall_mem_cons.1 skips
    by_cases part : d ∈ kept
    · rw [List.filter_cons_of_pos (by simpa using part), List.foldl_cons, List.foldl_cons,
        ih skips (keeps d part cs within)]
    · rw [List.filter_cons_of_neg (by simpa using part), List.foldl_cons, skip part cs within,
        ih skips within]

theorem Separate.nodup {pairs : List Delimiters} (separate : Separate pairs) : pairs.Nodup := by
  refine (List.pairwise_iff_forall_sublist.2 fun {d e} part => ?_)
  have disjoint := List.pairwise_iff_forall_sublist.1 separate.disjoint part
  have proper := separate.proper d (part.subset (List.mem_cons_self ..))
  rintro rfl
  obtain ⟨c, tail, eq⟩ := List.exists_cons_of_ne_nil proper.opener
  have mem : c ∈ d.opener := eq ▸ List.mem_cons_self ..
  exact (disjoint c (Or.inl mem)).1 mem

theorem filter_mem_eq {kept pairs : List Delimiters} (part : kept.Sublist pairs)
    (different : pairs.Nodup) : pairs.filter (· ∈ kept) = kept := by
  have shorter : (pairs.filter (· ∈ kept)).length ≤ kept.length := by
    refine (List.subperm_of_subset (different.filter _) fun d mem => ?_).length_le
    simpa using (List.mem_filter.1 mem).2
  have all : kept.filter (· ∈ kept) = kept := by simp
  have inside := part.filter (· ∈ kept)
  rw [all] at inside
  exact (inside.eq_of_length_le shorter).symm

/-- **A text of some of the pairs is marked and unmarked by them alone.** -/
theorem unmarkPairs_markPairs_eq {kept pairs : List Delimiters} (separate : Separate pairs)
    (part : kept.Sublist pairs) {cs : List Char} (within : Within kept cs) :
    unmarkPairs pairs (markPairs pairs cs) = unmarkPairs kept (markPairs kept cs) := by
  have proper : ∀ d ∈ kept, d.Proper := fun d mem => separate.proper d (part.subset mem)
  have found : ∀ e ∈ pairs, e ∉ kept → ∀ cs, Within kept cs → e.found cs = [] :=
    fun e mem other cs within => separate.found_eq_nil part mem other within
  have filtered := filter_mem_eq part separate.nodup
  have marks : markPairs pairs cs = markPairs kept cs := by
    have whole := foldl_filter_kept (f := Depth.markPair)
      (fun d mem cs within => within.markPair (proper d mem))
      (fun e mem other cs within => markPair_of_found_eq_nil (separate.proper e mem)
        (found e mem other cs within)) within
    rwa [filtered] at whole
  have within' := within.markPairs proper
  have whole := foldl_filter_kept (f := Depth.unmarkPair)
    (fun d mem cs within => within.unmarkPair (proper d mem) mem)
    (fun e mem other cs within => unmarkPair_of_found_eq_nil (separate.proper e mem)
      (found e mem other cs within)) within'
  rw [filtered] at whole
  rw [marks]
  exact whole

/-! ## 2. Texts that are lost -/

/-- Some text of digits and of characters of these pairs fits them and does not come back. -/
def Loses (kept : List Delimiters) : Prop :=
  ∃ cs, '%' ∉ cs ∧ Within kept cs ∧ (∀ d ∈ kept, d.Fits cs) ∧
    unmarkPairs kept (markPairs kept cs) ≠ cs

/-- Without a percent sign nothing is a mark. -/
theorem unopen_of_not_mem {cs : List Char} (noPercent : '%' ∉ cs) : d.unopen cs = cs := by
  have whole : d.unopen (cs ++ []) = cs ++ d.unopen [] := by
    refine unopen_front fun v suffix _ => ?_
    cases found : openMark? d.opener (v ++ []) with
    | none => rfl
    | some n =>
      obtain ⟨ds, rest, -, eq⟩ := openMark?_eq_some found
      rw [List.append_nil] at eq
      exact absurd (suffix.subset (by simp [eq])) noPercent
  rwa [unopen_nil, List.append_nil] at whole

/-- Between texts without their characters, an opener and a closer are found for what they are. -/
theorem found_around (proper : d.Proper) (active : ¬ d.Inert) {front inside behind : List Char}
    (before : d.Free front) (between : d.Free inside) (after : d.Free behind) :
    d.found (front ++ (d.opener ++ (inside ++ (d.closer ++ behind)))) = [.opener, .closer] ∧
      mark d 0 (front ++ (d.opener ++ (inside ++ (d.closer ++ behind)))) =
        front ++ (d.opener ++ (Bracket.openText 1 ++
          (inside ++ (Bracket.closeText 1 ++ (d.closer ++ behind))))) := by
  have noOpener : ¬ d.opener <+: d.closer ++ behind := by
    intro begins
    rcases prefix_append_cases begins with inside | ⟨more, eq, beyond⟩
    · exact active inside
    · cases more with
      | nil =>
        rw [List.append_nil] at eq
        exact active ⟨[], by rw [List.append_nil, eq]⟩
      | cons c more =>
        have mem : c ∈ d.opener := eq ▸ List.mem_append_right _ (List.mem_cons_self ..)
        exact (after c (beyond.mem (List.mem_cons_self ..))).1 mem
  have last := after.found_append proper []
  have last' := after.mark_append proper 0 []
  rw [List.append_nil] at last last'
  constructor
  · rw [before.found_append proper, found_opener proper, between.found_append proper,
      found_closer proper noOpener, last, found_nil]
  · rw [before.mark_append proper, mark_opener proper, between.mark_append proper,
      mark_closer proper _ noOpener, if_neg (Nat.succ_ne_zero 0), Nat.add_sub_cancel, last',
      mark_nil, List.append_nil]

theorem fits_of_found {cs : List Char} (found : d.found cs = [.opener, .closer]) : d.Fits cs := by
  rw [Fits, found]
  exact Or.inr ⟨by simp, by decide⟩

/-- **A delimiter that is read as a reference is lost**: the one right behind the other. -/
theorem loses_of_not_literal (proper : d.Proper) (active : ¬ d.Inert) (reference : ¬ d.Literal) :
    Loses [d] := by
  obtain ⟨found, marks⟩ := found_around proper active free_nil free_nil free_nil
  simp only [List.nil_append, List.append_nil] at found marks
  have fits := fits_of_found found
  refine ⟨d.opener ++ d.closer, by simp [proper.percent], fun c mem => ?_,
    List.forall_mem_singleton.2 fits, fun same => reference ?_⟩
  · exact Or.inr ⟨d, List.mem_singleton_self d, List.mem_append.1 mem⟩
  have digits := digits_decimalDigits 1
  have opened := unopen_opener digits (Bracket.closeText 1 ++ d.closer) (d := d)
  rw [unopen_free proper (not_mem_closeText proper.unmarked_opener 1),
    unopen_of_not_mem proper.percent.2] at opened
  have small := expand_sublist proper.unmarked_opener (d.opener ++ (decimalDigits 1 ++ ['%']))
  have small' := expand_sublist proper.unmarked_closer ('%' :: (decimalDigits 1 ++ d.closer))
  have noPercent : '%' ∉ expand (d.opener ++ (decimalDigits 1 ++ ['%'])) d.opener :=
    fun mem => proper.percent.1 (small.subset mem)
  have closed := unclose_closer proper digits [] (d := d)
  rw [unclose_nil, List.append_nil, List.append_nil] at closed
  have whole : unmarkPair (markPair (d.opener ++ d.closer) d) d = d.opener ++ d.closer := same
  rw [fits.markPair_eq proper, marks, unmarkPair_eq proper, Bracket.openText_append, opened,
    unclose_front noPercent, Bracket.closeText_append, closed] at whole
  have length := congrArg List.length whole
  have shorter := small.length_le
  have shorter' := small'.length_le
  rw [List.length_append, List.length_append] at length
  have kept := small.eq_of_length_le (by omega)
  have kept' := small'.eq_of_length_le (by omega)
  exact ⟨(expand_congr proper.unmarked_opener [] _).trans kept,
    (expand_congr proper.unmarked_closer [] _).trans kept'⟩

/-- A delimiter does not begin where only a mark would complete it. -/
theorem not_prefix_append {w front : List Char} (unmarked : Unmarked w) (none : ¬ w <+: front)
    {c : Char} (mark : isMark c = true) (cs : List Char) : ¬ w <+: front ++ c :: cs := by
  intro begins
  rcases prefix_append_cases begins with inside | ⟨more, rfl, beyond⟩
  · exact none inside
  · rw [unmarked.right.eq_nil ⟨c, rfl, mark⟩ beyond, List.append_nil] at none
    exact none (List.prefix_refl _)

/-- A text in which nothing is found, and a character of marks behind it, are passed. -/
theorem passes_append (proper : d.Proper) {front : List Char} (none : d.found front = []) {c : Char}
    (mark : isMark c = true) (cs : List Char) : d.found (front ++ c :: cs) = d.found cs ∧
      ∀ depth, Depth.mark d depth (front ++ c :: cs) = front ++ c :: Depth.mark d depth cs := by
  induction front, none using silent_induction proper with
  | nil =>
    have free : d.Free [c] := proper.free (List.forall_mem_singleton.2 mark)
    exact ⟨free.found_append proper cs, fun depth => free.mark_append proper depth cs⟩
  | other a front noOpener noCloser none ih =>
    obtain ⟨found, marks⟩ := ih
    have noOpener' := not_prefix_append proper.unmarked_opener noOpener mark cs
    have noCloser' := not_prefix_append proper.unmarked_closer noCloser mark cs
    rw [List.cons_append] at noOpener' noCloser' ⊢
    refine ⟨(found_other noOpener' noCloser').trans found, fun depth => ?_⟩
    rw [mark_other depth noOpener' noCloser', marks depth, List.cons_append]

theorem isMark_digit : isMark '0' = true ∧ isMark '5' = true := by decide

/-- An opener with its mark is taken for one, whatever stands in front of it. -/
theorem unopen_before {front ds : List Char} (proper : d.Proper) (unmarked : Unmarked front)
    (digits : Digits ds) (cs : List Char) :
    d.unopen (front ++ (d.opener ++ (ds ++ '%' :: cs))) =
      front ++ (expand (d.opener ++ (ds ++ ['%'])) d.opener ++ d.unopen cs) := by
  rw [unopen_front, unopen_opener digits]
  intro v suffix nonempty
  cases found : openMark? d.opener (v ++ (d.opener ++ (ds ++ '%' :: cs))) with
  | none => rfl
  | some n =>
    obtain ⟨ds', rest, digits', whole⟩ := openMark?_eq_some found
    rw [← List.append_assoc] at whole
    obtain ⟨x, eq⟩ : d.opener <+: v ++ d.opener :=
      List.prefix_of_prefix_length_le ⟨_, whole.symm⟩ (List.prefix_append _ _) (by simp)
    have longer : x ≠ [] := by
      rintro rfl
      have length := congrArg List.length eq
      simp only [List.append_nil, List.length_append] at length
      exact nonempty (List.length_eq_zero_iff.1 (by omega))
    have both : Unmarked (d.opener ++ x) := by
      intro c mem
      rw [eq] at mem
      rcases List.mem_append.1 mem with inside | inside
      · exact unmarked c (suffix.subset inside)
      · exact proper.unmarked_opener c inside
    rw [← eq, List.append_assoc, List.append_cancel_left_eq] at whole
    exact absurd whole (not_prefix_digits both.right longer digits' _)

/-- A mark that is taken out leaves no characters of marks. -/
theorem not_mem_expand {w : List Char} (unmarked : Unmarked w) {c : Char} (mark : isMark c = true)
    (piece : List Char) : c ∉ expand piece w := by
  intro mem
  exact unmarked.not_mem mark ((expand_sublist unmarked piece).subset mem)

/-- A text in which an opener that straddles a closer has a digit behind it, and then a closer. -/
def straddled (d : Delimiters) (rest : List Char) : List Char :=
  d.opener ++ (d.opener ++ (d.closer ++ (rest ++ '0' :: (d.closer ++ []))))

/-- Marking does not find the opener that straddles. -/
theorem found_straddled (proper : d.Proper) {rest : List Char}
    (found : d.found (d.closer ++ rest) = [.closer]) :
    d.found (d.straddled rest) = [.opener, .opener, .closer, .closer] ∧
      mark d 0 (d.straddled rest) = d.opener ++ (Bracket.openText 1 ++ (d.opener ++
        (Bracket.openText 2 ++ (Bracket.closeText 2 ++ (d.closer ++
          (rest ++ '0' :: (Bracket.closeText 1 ++ d.closer))))))) := by
  have noOpener : ¬ d.opener <+: d.closer ++ rest := by
    rintro ⟨more, begins⟩
    rw [← begins, found_opener proper] at found
    cases found
  have none : d.found rest = [] := by
    rw [found_closer proper noOpener] at found
    exact (List.cons.inj found).2
  have first : ¬ d.opener <+: d.closer ++ (rest ++ '0' :: (d.closer ++ [])) := by
    rw [← List.append_assoc]
    exact not_prefix_append proper.unmarked_opener noOpener isMark_digit.1 _
  have last : ¬ d.opener <+: d.closer ++ [] := by
    rw [List.append_nil]
    exact fun begins => noOpener (begins.trans (List.prefix_append _ _))
  obtain ⟨passed, passes⟩ := passes_append proper none isMark_digit.1 (d.closer ++ [])
  constructor
  · rw [straddled, found_opener proper, found_opener proper, found_closer proper first, passed,
      found_closer proper last, found_nil]
  · rw [straddled, mark_opener proper, mark_opener proper, mark_closer proper _ first, passes,
      mark_closer proper _ last, mark_nil, List.append_nil]
    rfl

/-- Unmarking takes it for one with a mark, so the digit goes. -/
theorem not_mem_unmarkPair_straddled (proper : d.Proper) {start rest : List Char}
    (suffix : start <:+ d.closer) (eq : start ++ rest = d.opener)
    (found : d.found (d.closer ++ rest) = [.closer]) :
    '0' ∉ unmarkPair (mark d 0 (d.straddled rest)) d := by
  obtain ⟨front, whole⟩ := suffix
  have unmarked := proper.unmarked_closer
  rw [← whole] at unmarked
  have unmarked' : Unmarked front := unmarked.sublist (List.sublist_append_left _ _)
  have noZero : ∀ {w}, Unmarked w → '0' ∉ w := fun unmarked => unmarked.not_mem isMark_digit.1
  have zero : Digits ['0'] := ⟨List.cons_ne_nil _ _, List.forall_mem_singleton.2 (by decide)⟩
  have opened := unopen_before proper unmarked' zero ('1' :: d.closer)
  have behind : d.unopen ('1' :: d.closer) = '1' :: d.closer :=
    unopen_of_not_mem (by simp [proper.percent])
  have apart : d.closer ++ (rest ++ '0' :: (Bracket.closeText 1 ++ d.closer)) =
      front ++ (d.opener ++ (['0'] ++ '%' :: ('1' :: d.closer))) := by
    rw [← whole, ← eq, List.append_assoc, List.append_assoc]
    rfl
  have digits := digits_decimalDigits
  intro mem
  rw [(found_straddled proper found).2, apart, unmarkPair_eq proper] at mem
  rcases mem_substitute proper.unmarked_closer mem with inside | closer
  · rw [Bracket.openText_append, unopen_opener (digits 1), Bracket.openText_append,
      unopen_opener (digits 2), unopen_free proper (not_mem_closeText proper.unmarked_opener 2),
      opened, behind] at inside
    have two : '0' ∉ Bracket.closeText 2 := by decide
    simp only [List.mem_append, not_mem_expand proper.unmarked_opener isMark_digit.1, two,
      noZero unmarked', List.mem_cons, noZero proper.unmarked_closer, or_false, false_or] at inside
    exact absurd inside (by decide)
  · exact noZero proper.unmarked_closer closer

/-- **A digit behind an opener that straddles a closer is lost**, if a mark follows it. -/
theorem loses_of_straddles (proper : d.Proper) (straddles : d.Straddles) : Loses [d] := by
  obtain ⟨start, rest, -, suffix, eq, found⟩ := straddles
  have fits : d.Fits (d.straddled rest) := by
    rw [Fits, (found_straddled proper found).1]
    exact Or.inr ⟨by simp, by decide⟩
  have inside : rest ⊆ d.opener := by
    rw [← eq]
    exact List.subset_append_right _ _
  refine ⟨d.straddled rest, ?_, ?_, List.forall_mem_singleton.2 fits, fun same => ?_⟩
  · simpa [straddled, proper.percent] using fun mem => proper.percent.1 (inside mem)
  · intro c mem
    by_cases zero : c = '0'
    · exact Or.inl (zero ▸ isMark_digit.1)
    · refine Or.inr ⟨d, List.mem_singleton_self d, ?_⟩
      have opener := @inside c
      simp only [straddled, List.mem_append, List.mem_cons, zero, List.not_mem_nil] at mem
      tauto
  · have suffix' : start <:+ d.closer := suffix.trans (List.tail_suffix _)
    have gone := not_mem_unmarkPair_straddled proper suffix' eq found
    rw [← fits.markPair_eq proper] at gone
    have same' : unmarkPair (markPair (d.straddled rest) d) d = d.straddled rest := same
    rw [same'] at gone
    exact gone (by simp [straddled])

/-- The digit becomes that of the next mark. -/
example : unmarkPairs [⟨"/*".toList, "*/".toList⟩]
    (markPairs [⟨"/*".toList, "*/".toList⟩] "/*/**/*0*/".toList) = "/*/**/*1*/".toList := by
  cbv

/-- A text with a digit between the openers of two pairs. -/
def mistaken (d e : Delimiters) : List Char :=
  e.opener ++ '5' :: (d.opener ++ (d.closer ++ e.closer))

/-- Each pair stands around or beside the other and finds just its own delimiters. -/
theorem found_mistaken (proper : d.Proper) (proper' : e.Proper) (disjoint : d.Disjoint e)
    (active : ¬ d.Inert) (active' : ¬ e.Inert) :
    d.Fits (mistaken d e) ∧ e.Fits (mistaken d e) ∧
      markPairs [d, e] (mistaken d e) = e.opener ++ (Bracket.openText 1 ++ '5' ::
        (d.opener ++ (Bracket.openText 1 ++ (Bracket.closeText 1 ++
          (d.closer ++ (Bracket.closeText 1 ++ e.closer)))))) := by
  have digit : ∀ c ∈ ['5'], isMark c = true := List.forall_mem_singleton.2 isMark_digit.2
  have both : ∀ c ∈ Bracket.openText 1 ++ Bracket.closeText 1, isMark c = true := fun c mem =>
    (List.mem_append.1 mem).elim (Bracket.isMark_openText 1 c) (Bracket.isMark_closeText 1 c)
  have before : d.Free (e.opener ++ ['5']) := by
    intro c mem
    rcases List.mem_append.1 mem with opener | five
    · exact disjoint.symm.free_opener c opener
    · exact proper.free digit c five
  have between : ∀ marks, (∀ c ∈ marks, isMark c = true) →
      e.Free ('5' :: (d.opener ++ (marks ++ d.closer))) := by
    intro marks mark c mem
    rcases List.mem_cons.1 mem with rfl | mem
    · exact proper'.free digit _ (List.mem_singleton_self _)
    rcases List.mem_append.1 mem with opener | mem
    · exact disjoint.free_opener c opener
    rcases List.mem_append.1 mem with inside | closer
    · exact proper'.free mark c inside
    · exact disjoint.free_closer c closer
  obtain ⟨found, marks⟩ := found_around proper active before free_nil disjoint.symm.free_closer
  have found' := (found_around proper' active' free_nil (between [] (by simp)) free_nil).1
  have marks' := (found_around proper' active' free_nil (between _ both) free_nil).2
  simp only [List.nil_append, List.append_nil, List.append_assoc,
    List.cons_append] at found found' marks marks'
  have fits : d.Fits (mistaken d e) := fits_of_found found
  have fits' : e.Fits (mistaken d e) := fits_of_found found'
  have fits'' : e.Fits (mark d 0 (mistaken d e)) := by
    rwa [Fits, fits.mark_other proper proper' disjoint]
  refine ⟨fits, fits', ?_⟩
  have first : markPair (mistaken d e) d = mark d 0 (mistaken d e) := fits.markPair_eq proper
  have second := fits''.markPair_eq proper'
  rw [markPairs_cons, markPairs_cons, first, second, mistaken, marks, marks']
  rfl

/-- A percent sign, a digit and what begins an opener are taken for a closer with its mark. -/
theorem unmarkPair_behind_digit (proper : d.Proper) (literal : d.Literal) {more : List Char}
    (begins : d.closer ++ more = d.opener) {front : List Char} (free : ∀ c ∈ front, c ∉ d.opener)
    (noPercent : '%' ∉ front) (tail : List Char) :
    unmarkPair (front ++ '%' :: '5' :: (d.opener ++ (Bracket.openText 1 ++ tail))) d =
      front ++ (d.closer ++ d.unclose (more ++ d.unopen tail)) := by
  have five : Digits ['5'] := ⟨List.cons_ne_nil _ _, List.forall_mem_singleton.2 (by decide)⟩
  have free' : ∀ c ∈ ['%', '5'], c ∉ d.opener := by
    intro c mem
    rcases List.mem_pair.1 mem with rfl | rfl
    · exact proper.percent.1
    · exact proper.unmarked_opener.not_mem isMark_digit.2
  have opened : d.unopen (d.opener ++ (Bracket.openText 1 ++ tail)) =
      d.closer ++ (more ++ d.unopen tail) := by
    rw [Bracket.openText_append, unopen_opener (digits_decimalDigits 1), literal.opener proper,
      ← List.append_assoc, begins]
  calc unmarkPair (front ++ '%' :: '5' :: (d.opener ++ (Bracket.openText 1 ++ tail))) d
    _ = d.unclose (front ++
        d.unopen (['%', '5'] ++ (d.opener ++ (Bracket.openText 1 ++ tail)))) := by
      rw [unmarkPair_eq proper, unopen_free proper free]
      rfl
    _ = d.unclose (front ++ '%' :: (['5'] ++ (d.closer ++ (more ++ d.unopen tail)))) := by
      rw [unopen_free proper free', opened]
      rfl
    _ = front ++ (d.closer ++ d.unclose (more ++ d.unopen tail)) := by
      rw [unclose_front noPercent, unclose_closer proper five, literal.closer proper]

theorem not_mem_unmarkPair_mistaken (proper : d.Proper) (proper' : e.Proper)
    (disjoint : d.Disjoint e) (active : ¬ d.Inert) (active' : ¬ e.Inert) (literal : d.Literal)
    (begins : d.closer <+: d.opener) :
    '5' ∉ unmarkPair (markPairs [d, e] (mistaken d e)) d := by
  obtain ⟨more, whole⟩ := begins
  have noFive : ∀ {w}, Unmarked w → '5' ∉ w := fun unmarked => unmarked.not_mem isMark_digit.2
  have free : ∀ c ∈ e.opener ++ ['1'], c ∉ d.opener := by
    intro c mem
    rcases List.mem_append.1 mem with opener | one
    · exact (disjoint.symm.free_opener c opener).1
    · exact (proper.free (List.forall_mem_singleton.2 (by decide)) c one).1
  have noPercent : '%' ∉ e.opener ++ ['1'] := by simp [proper'.percent]
  have unmarked := proper.unmarked_opener
  rw [← whole] at unmarked
  have result := unmarkPair_behind_digit proper literal whole free noPercent
    (Bracket.closeText 1 ++ (d.closer ++ (Bracket.closeText 1 ++ e.closer)))
  have marks : markPairs [d, e] (mistaken d e) = (e.opener ++ ['1']) ++ '%' :: '5' :: (d.opener ++
      (Bracket.openText 1 ++ (Bracket.closeText 1 ++
        (d.closer ++ (Bracket.closeText 1 ++ e.closer))))) := by
    rw [(found_mistaken proper proper' disjoint active active').2.2, List.append_assoc]
    rfl
  have one : '5' ∉ Bracket.closeText 1 := by decide
  intro mem
  rw [marks, result] at mem
  simp only [List.mem_append, noFive proper'.unmarked_opener, noFive proper.unmarked_closer,
    false_or] at mem
  rcases mem with first | later
  · exact absurd first (by decide)
  rcases mem_substitute proper.unmarked_closer later with inside | closer
  · rcases List.mem_append.1 inside with tail | opened
    · exact noFive unmarked.right tail
    rcases mem_substitute proper.unmarked_opener opened with tail | opener
    · simp [one, noFive proper.unmarked_closer, noFive proper'.unmarked_closer] at tail
    · exact noFive proper.unmarked_opener opener
  · exact noFive proper.unmarked_closer closer

/-- **A digit in front of an opener that the closer begins is lost**, behind the mark of another
pair. -/
theorem loses_of_mistaken (proper : d.Proper) (proper' : e.Proper) (disjoint : d.Disjoint e)
    (active : ¬ d.Inert) (active' : ¬ e.Inert) (literal : d.Literal)
    (begins : d.closer <+: d.opener) : Loses [d, e] := by
  obtain ⟨fits, fits', -⟩ := found_mistaken proper proper' disjoint active active'
  refine ⟨mistaken d e, ?_, ?_, by simp [fits, fits'], fun same => ?_⟩
  · simp [mistaken, proper.percent, proper'.percent]
  · intro c mem
    by_cases five : c = '5'
    · exact Or.inl (five ▸ isMark_digit.2)
    · simp only [mistaken, List.mem_append, List.mem_cons, five, false_or] at mem
      refine Or.inr ?_
      simp only [List.mem_cons, List.not_mem_nil, or_false, exists_eq_or_imp, exists_eq_left]
      tauto
  · have gone := not_mem_unmarkPair_mistaken proper proper' disjoint active active' literal begins
    have same' : unmarkPair (unmarkPair (markPairs [d, e] (mistaken d e)) d) e = mistaken d e :=
      same
    have five : '5' ∈ mistaken d e := by simp [mistaken]
    rw [← same'] at five
    rcases mem_unmarkPair proper' five with inside | opener | closer
    · exact gone inside
    · exact proper'.unmarked_opener.not_mem isMark_digit.2 opener
    · exact proper'.unmarked_closer.not_mem isMark_digit.2 closer

/-! ## 3. Which pairs come back -/

/-- A text that some of the pairs lose is lost by all of them. -/
theorem Loses.lift {kept pairs : List Delimiters} (loses : Loses kept) (separate : Separate pairs)
    (part : kept.Sublist pairs) : ∃ cs, '%' ∉ cs ∧ (∀ d ∈ pairs, d.Fits cs) ∧
      unmarkPairs pairs (markPairs pairs cs) ≠ cs := by
  obtain ⟨cs, noPercent, within, fits, lost⟩ := loses
  refine ⟨cs, noPercent, fun e mem => ?_, ?_⟩
  · by_cases own : e ∈ kept
    · exact fits e own
    · exact Or.inl (separate.found_eq_nil part mem own within)
  · rwa [unmarkPairs_markPairs_eq separate part within]

/-- **Which pairs come back.**  Marking several pairs and unmarking them gives every text back that
fits them, exactly if the pairs are reversible. -/
theorem unmarkPairs_markPairs_iff {pairs : List Delimiters} (separate : Separate pairs) :
    (∀ cs, '%' ∉ cs → (∀ d ∈ pairs, d.Fits cs) → unmarkPairs pairs (markPairs pairs cs) = cs) ↔
      Reversible pairs := by
  refine ⟨fun restored => ?_, fun reversible cs noPercent fits =>
    reversible.restored separate noPercent fits⟩
  have keeps : ∀ kept, kept.Sublist pairs → ¬ Loses kept := by
    intro kept part loses
    obtain ⟨cs, noPercent, fits, lost⟩ := loses.lift separate part
    exact lost (restored cs noPercent fits)
  have returns : ∀ d ∈ pairs, d.Inert ∨ (d.Literal ∧ ¬ d.Straddles) := by
    intro d mem
    have proper := separate.proper d mem
    have kept := keeps [d] (List.singleton_sublist.2 mem)
    by_cases inert : d.Inert
    · exact Or.inl inert
    · refine Or.inr ⟨?_, fun straddles => kept (loses_of_straddles proper straddles)⟩
      by_contra reference
      exact kept (loses_of_not_literal proper inert reference)
  refine ⟨returns, List.pairwise_iff_forall_sublist.2 fun {d e} part begins => ?_⟩
  have first : d ∈ pairs := part.subset (List.mem_cons_self ..)
  have second : e ∈ pairs := part.subset (List.mem_cons_of_mem _ (List.mem_cons_self ..))
  by_contra active
  obtain ⟨active, active'⟩ := not_or.1 active
  have disjoint := List.pairwise_iff_forall_sublist.1 separate.disjoint part
  exact keeps [d, e] part (loses_of_mistaken (separate.proper d first) (separate.proper e second)
    disjoint active active' ((returns d first).resolve_left active).1 begins)

/-- Tags and double brackets. -/
def tags : List Delimiters := [⟨"<b>".toList, "</b>".toList⟩, ⟨"[[".toList, "]]".toList⟩]

/-- A text of tags comes back. -/
theorem tags_restored :
    Separate tags ∧ Reversible tags ∧
      markPairs tags "<b>[[x]]</b>".toList = "<b>1%[[1%x%1]]%1</b>".toList ∧
      unmarkPairs tags (markPairs tags "<b>[[x]]</b>".toList) = "<b>[[x]]</b>".toList := by
  have separate : Separate tags := by decide +kernel
  have reversible : Reversible tags := by
    refine Reversible.of_literal (fun d mem => ?_) (by simp [tags]) (by simp [tags])
    have noDollar : ∀ d ∈ tags, '$' ∉ d.opener ∧ '$' ∉ d.closer := by decide +kernel
    exact .of_not_mem (noDollar d mem).1 (noDollar d mem).2
  have restored := (unmarkPairs_markPairs_iff separate).2 reversible "<b>[[x]]</b>".toList
    (by decide) (by decide +kernel)
  exact ⟨separate, reversible, by with_unfolding_all rfl, restored⟩

/-- A delimiter that is a reference does not come back. -/
theorem dollar_lost :
    Separate [⟨"$if".toList, "end".toList⟩] ∧ '%' ∉ "$if(x)end".toList ∧
      Fits ⟨"$if".toList, "end".toList⟩ "$if(x)end".toList ∧
      unmarkPairs [⟨"$if".toList, "end".toList⟩]
        (markPairs [⟨"$if".toList, "end".toList⟩] "$if(x)end".toList) = "(x)end".toList ∧
      "(x)end".toList ≠ "$if(x)end".toList := by
  refine ⟨by decide +kernel, by decide, by decide +kernel, by with_unfolding_all rfl, by decide⟩

end Delimiters

end Stencil
