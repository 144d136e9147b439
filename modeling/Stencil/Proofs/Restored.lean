/-
# Taking out the marks of any delimiters

Unmarking goes by the form of marks and puts the delimiters back as replacements, so it undoes a
marking only if the delimiters allow it.

* `Literal`: read as replacements, the delimiters of a pair stand for themselves;
* `Straddles`: an opener may begin within a closer, where marking does not find it but unmarking
  does, if digits follow it and then a percent sign;
* `Inert`: the opener begins the closer, so no closer is ever found.

`Marked.restored`: where none of these is in the way, a text with the marks of a pair is what it was
when they are taken out, whatever marks of other pairs stand in it.  The openers are unmarked first
(`Marked.unopened`) and then the closers (`Marked.unclosed`).
-/
import Stencil.Proofs.Delimiters

namespace Stencil

open Stencil.Text Stencil.Depth

/-! ## 1. Delimiters as replacements -/

/-- Without digits no name in a replacement refers to what is replaced. -/
theorem referent_of_unmarked {name : List Char} (h : Unmarked name) (piece : List Char) :
    referent piece name = [] := by
  have noZero : ∀ ds, Unmarked ds → (!ds.isEmpty && ds.all (· == '0')) = false := by
    intro ds unmarked
    cases ds with
    | nil => rfl
    | cons c ds =>
      have zero : isMark '0' = true := by decide
      have other : c ≠ '0' := (ne_of_class zero (unmarked c (List.mem_cons_self ..))).symm
      simp [other]
  unfold referent
  simp only
  split
  · rw [noZero _ h.tail]
    simp
  · rw [noZero _ h]
    simp

/-- So reading it as a replacement can only lose characters. -/
theorem expand_sublist {w : List Char} (h : Unmarked w) (piece : List Char) :
    (expand piece w).Sublist w := by
  fun_induction expand piece w with
  | case1 => exact .slnil
  | case2 rest ih => exact ((ih h.tail.tail).cons_cons '$').cons '$'
  | case3 rest closed ih =>
    have name := h.tail.tail.sublist (List.takeWhile_sublist (· != '}'))
    have part := List.drop_sublist ((rest.takeWhile (· != '}')).length + 1) rest
    rw [referent_of_unmarked name, List.nil_append]
    exact (((ih (h.tail.tail.sublist part)).trans part).cons '{').cons '$'
  | case4 rest closed ih => exact ((ih h.tail.tail).cons_cons '{').cons_cons '$'
  | case5 rest noDollar noBrace name empty ih => exact (ih h.tail).cons_cons '$'
  | case6 rest noDollar noBrace name empty ih =>
    have part := List.drop_sublist name.length rest
    rw [referent_of_unmarked (h.tail.sublist (List.takeWhile_sublist _)), List.nil_append]
    exact ((ih (h.tail.sublist part)).trans part).cons '$'
  | case7 c rest noDollar noBrace other ih => exact (ih h.tail).cons_cons c

/-- And what is replaced makes no difference. -/
theorem expand_congr {w : List Char} (h : Unmarked w) (piece piece' : List Char) :
    expand piece w = expand piece' w := by
  fun_induction expand piece w with
  | case1 => rw [expand]
  | case2 rest ih => rw [ih h.tail.tail, expand.eq_2]
  | case3 rest closed ih =>
    have name := h.tail.tail.sublist (List.takeWhile_sublist (· != '}'))
    have part := List.drop_sublist ((rest.takeWhile (· != '}')).length + 1) rest
    rw [expand.eq_3, if_pos closed, referent_of_unmarked name, referent_of_unmarked name,
      ih (h.tail.tail.sublist part)]
  | case4 rest closed ih => rw [expand.eq_3, if_neg closed, ih h.tail.tail]
  | case5 rest noDollar noBrace name empty ih =>
    rw [expand.eq_4 _ _ noDollar noBrace, if_pos empty, ih h.tail]
  | case6 rest noDollar noBrace name empty ih =>
    have part := List.drop_sublist name.length rest
    have unmarked := h.tail.sublist (List.takeWhile_sublist isNameChar)
    rw [expand.eq_4 _ _ noDollar noBrace, if_neg empty, referent_of_unmarked unmarked,
      referent_of_unmarked unmarked, ih (h.tail.sublist part)]
  | case7 c rest noDollar noBrace other ih =>
    rw [expand.eq_5 _ _ _ noDollar noBrace other, ih h.tail]

/-! ## 2. The form of a mark -/

theorem Unmarked.no_digit {cs : List Char} (h : Unmarked cs) : ∀ c ∈ cs, isDecimal c = false :=
  fun c mem => (Bool.or_eq_false_iff.1 (h c mem)).1

theorem Unmarked.stops {cs : List Char} (h : Unmarked cs) : Stops isDecimal cs :=
  fun c first => h.no_digit c (List.mem_of_mem_head? first)

/-- Digits and a percent sign behind an opener are its mark. -/
theorem openMark?_append {ds : List Char} (opener : List Char) (digits : Digits ds)
    (rest : List Char) :
    openMark? opener (opener ++ (ds ++ '%' :: rest)) = some (opener.length + ds.length + 1) := by
  have run : (ds ++ '%' :: rest).takeWhile isDecimal = ds :=
    takeWhile_append_of_stops digits.2 (stops_cons.2 isDecimal_percent)
  have starts : opener.isPrefixOf (opener ++ (ds ++ '%' :: rest)) = true := by simp
  have behind : (opener ++ (ds ++ '%' :: rest)).drop (opener.length + ds.length) = '%' :: rest := by
    rw [← List.drop_drop, List.drop_left, List.drop_left]
  unfold openMark?
  rw [if_pos starts, List.drop_left]
  simp only [run, behind]
  simp [digits.1]

/-- Nothing else is. -/
theorem openMark?_eq_some {opener cs : List Char} {n : Nat} (found : openMark? opener cs = some n) :
    ∃ ds rest, Digits ds ∧ cs = opener ++ (ds ++ '%' :: rest) := by
  unfold openMark? at found
  split at found
  · rename_i starts
    obtain ⟨tail, rfl⟩ := List.isPrefixOf_iff_prefix.1 starts
    simp only [List.drop_left] at found
    split at found
    · cases found
    · rename_i whole
      rw [Bool.or_eq_true, not_or, ← List.drop_drop, List.drop_left, drop_takeWhile] at whole
      obtain ⟨nonempty, percent⟩ := whole
      have next : (tail.dropWhile isDecimal).head? = some '%' := by simpa using percent
      obtain ⟨rest, eq⟩ : ∃ rest, tail.dropWhile isDecimal = '%' :: rest :=
        List.head?_eq_some_iff.1 next
      refine ⟨tail.takeWhile isDecimal, rest, ⟨by simpa using nonempty, fun c mem => ?_⟩, ?_⟩
      · exact List.mem_takeWhile_imp mem
      · rw [← eq, List.takeWhile_append_dropWhile]
  · cases found

/-- A percent sign and digits in front of a closer are its mark, if the closer starts with no
digit. -/
theorem closeMark?_append {closer ds : List Char} (stops : Stops isDecimal closer)
    (nonempty : closer ≠ []) (digits : Digits ds) (rest : List Char) :
    closeMark? closer ('%' :: (ds ++ (closer ++ rest))) = some (1 + ds.length + closer.length) := by
  obtain ⟨k, length⟩ := Nat.exists_eq_succ_of_ne_zero (mt List.length_eq_zero_iff.1 digits.1)
  have run : (ds ++ (closer ++ rest)).takeWhile isDecimal = ds :=
    takeWhile_append_of_stops digits.2 (stops.append nonempty rest)
  have found : closer.isPrefixOf ((ds ++ (closer ++ rest)).drop (k + 1)) = true := by
    rw [← Nat.succ_eq_add_one, ← length, List.drop_left]
    simp
  simp only [closeMark?, run, length, Nat.succ_eq_add_one, Bracket.digitsBefore?_eq found,
    Option.map_some]

theorem digitsBefore?_eq_some {closer cs : List Char} {bound n : Nat}
    (found : digitsBefore? closer cs bound = some n) :
    0 < n ∧ n ≤ bound ∧ closer <+: cs.drop n := by
  induction bound with
  | zero => cases found
  | succ bound ih =>
    unfold digitsBefore? at found
    split at found
    · rename_i starts
      cases found
      exact ⟨Nat.succ_pos bound, Nat.le_refl _, List.isPrefixOf_iff_prefix.1 starts⟩
    · obtain ⟨positive, le, begins⟩ := ih found
      exact ⟨positive, Nat.le_succ_of_le le, begins⟩

theorem closeMark?_eq_some {closer cs : List Char} {n : Nat}
    (found : closeMark? closer cs = some n) :
    ∃ ds rest, Digits ds ∧ cs = '%' :: (ds ++ (closer ++ rest)) := by
  unfold closeMark? at found
  split at found
  · rename_i tail
    obtain ⟨k, before, -⟩ := Option.map_eq_some_iff.1 found
    obtain ⟨positive, le, rest, begins⟩ := digitsBefore?_eq_some before
    refine ⟨tail.take k, rest, ⟨?_, fun c mem => ?_⟩, ?_⟩
    · intro none
      have bound := (List.takeWhile_prefix isDecimal (l := tail)).length_le
      have := congrArg List.length none
      simp only [List.length_take, List.length_nil] at this
      omega
    · have inside : tail.take k <+: tail.takeWhile isDecimal := by
        have shorter := List.prefix_of_prefix_length_le (List.take_prefix k tail)
          (List.takeWhile_prefix isDecimal (l := tail))
        exact shorter (by rw [List.length_take]; omega)
      exact List.mem_takeWhile_imp (inside.mem mem)
    · rw [begins, List.take_append_drop]
  · cases found

/-- What is recognised nowhere within a text, in front of what follows it, stays. -/
theorem substitute_front {size? : List Char → Option Nat} {f : List Char → List Char}
    {front cs : List Char} (none : ∀ v, v <:+ front → v ≠ [] → size? (v ++ cs) = none) :
    substitute size? f (front ++ cs) = front ++ substitute size? f cs := by
  induction front with
  | nil => rfl
  | cons c front ih =>
    have here := none (c :: front) (List.suffix_refl _) (List.cons_ne_nil _ _)
    have later : ∀ v, v <:+ front → v ≠ [] → size? (v ++ cs) = Option.none :=
      fun v suffix => none v (suffix.trans (List.suffix_cons c front))
    rw [List.cons_append] at here
    rw [List.cons_append, Bracket.substitute_none here, ih later, List.cons_append]

theorem substitute_piece {size? : List Char → Option Nat} {f : List Char → List Char}
    {piece cs : List Char} (nonempty : piece ≠ [])
    (found : size? (piece ++ cs) = some piece.length) :
    substitute size? f (piece ++ cs) = f piece ++ substitute size? f cs := by
  cases piece with
  | nil => exact absurd rfl nonempty
  | cons c piece => exact Bracket.substitute_some found

namespace Delimiters

/-! ## 3. Delimiters that come back -/

variable {d : Delimiters}

/-- As replacements the delimiters stand for themselves. -/
def Literal (d : Delimiters) : Prop :=
  expand [] d.opener = d.opener ∧ expand [] d.closer = d.closer

/-- The opener begins the closer, so the closer is never found. -/
def Inert (d : Delimiters) : Prop := d.opener <+: d.closer

/-- An opener begins within a closer and ends behind it, or with it, in a text in which nothing but
the closer is found. -/
def Straddles (d : Delimiters) : Prop :=
  ∃ start rest, start ≠ [] ∧ start <:+ d.closer.tail ∧ start ++ rest = d.opener ∧
    d.found (d.closer ++ rest) = [.closer]

theorem Literal.opener (literal : d.Literal) (proper : d.Proper) (piece : List Char) :
    expand piece d.opener = d.opener :=
  (expand_congr proper.unmarked_opener piece []).trans literal.1

theorem Literal.closer (literal : d.Literal) (proper : d.Proper) (piece : List Char) :
    expand piece d.closer = d.closer :=
  (expand_congr proper.unmarked_closer piece []).trans literal.2

/-- A dollar sign is all that can make a reference. -/
theorem Literal.of_not_mem (opener : '$' ∉ d.opener) (closer : '$' ∉ d.closer) : d.Literal :=
  ⟨Bracket.expand_of_not_mem opener [], Bracket.expand_of_not_mem closer []⟩

/-- Without the marks of the openers. -/
def unopen (d : Delimiters) (cs : List Char) : List Char :=
  substitute (openMark? d.opener) (expand · d.opener) cs

/-- Without the marks of the closers. -/
def unclose (d : Delimiters) (cs : List Char) : List Char :=
  substitute (closeMark? d.closer) (expand · d.closer) cs

@[simp] theorem unopen_nil : d.unopen [] = [] := by
  unfold unopen
  rw [substitute]

@[simp] theorem unclose_nil : d.unclose [] = [] := by
  unfold unclose
  rw [substitute]

theorem unmarkPair_eq (proper : d.Proper) (cs : List Char) :
    unmarkPair cs d = d.unclose (d.unopen cs) := by
  have filled : (d.opener.isEmpty || d.closer.isEmpty) = false := by
    simp [proper.opener, proper.closer]
  unfold unmarkPair
  rw [filled]
  rfl

theorem unopen_opener {ds : List Char} (digits : Digits ds)
    (cs : List Char) :
    d.unopen (d.opener ++ (ds ++ '%' :: cs)) =
      expand (d.opener ++ (ds ++ ['%'])) d.opener ++ d.unopen cs := by
  have whole : d.opener ++ (ds ++ '%' :: cs) = (d.opener ++ (ds ++ ['%'])) ++ cs := by simp
  have found := openMark?_append d.opener digits cs
  rw [whole] at found ⊢
  exact substitute_piece (by simp) (found.trans (by simp; omega))

theorem unclose_closer (proper : d.Proper) {ds : List Char} (digits : Digits ds)
    (cs : List Char) :
    d.unclose ('%' :: (ds ++ (d.closer ++ cs))) =
      expand ('%' :: (ds ++ d.closer)) d.closer ++ d.unclose cs := by
  have whole : '%' :: (ds ++ (d.closer ++ cs)) = '%' :: (ds ++ d.closer) ++ cs := by simp
  have found := closeMark?_append proper.unmarked_closer.stops proper.closer digits cs
  rw [whole] at found ⊢
  exact substitute_piece (by simp) (found.trans (by simp; omega))

/-- A text in which no opener has a mark. -/
theorem unopen_front {front cs : List Char}
    (none : ∀ v, v <:+ front → v ≠ [] → openMark? d.opener (v ++ cs) = none) :
    d.unopen (front ++ cs) = front ++ d.unopen cs := substitute_front none

theorem unclose_front {front : List Char} (noPercent : '%' ∉ front) (cs : List Char) :
    d.unclose (front ++ cs) = front ++ d.unclose cs := by
  refine Bracket.substitute_append cs fun c mem rest => ?_
  exact Bracket.closeMark?_of_ne (fun percent => noPercent (percent ▸ mem)) _ _

/-- An opener is not unmarked where it does not stand. -/
theorem openMark?_of_absent {opener cs : List Char} (none : ¬ opener <+: cs) :
    openMark? opener cs = Option.none := by
  rw [openMark?, isPrefixOf_eq_false none, if_neg Bool.false_ne_true]

theorem unopen_free (proper : d.Proper) {front : List Char} (free : ∀ c ∈ front, c ∉ d.opener)
    (cs : List Char) : d.unopen (front ++ cs) = front ++ d.unopen cs := by
  refine Bracket.substitute_append cs fun c mem rest => ?_
  exact openMark?_of_absent (not_prefix_of_not_mem proper.opener (free c mem))

theorem not_mem_closeText {w : List Char} (h : Unmarked w) (n : Nat) :
    ∀ c ∈ Bracket.closeText n, c ∉ w := fun c mem => h.not_mem (Bracket.isMark_closeText n c mem)

/-! ## 4. The openers -/

/-- What begins a text with marks begins the text itself, behind anything in front. -/
theorem Marked.prefix_append {openers : Bool} {u t w front : List Char}
    (h : Marked d openers u t) (unmarked : Unmarked w) (begins : w <+: front ++ u) :
    w <+: front ++ t := by
  rcases prefix_append_cases begins with inside | ⟨more, rfl, beyond⟩
  · exact inside.trans (List.prefix_append _ _)
  · exact (List.prefix_append_right_inj _).2 (h.begins unmarked.right beyond)

/-- Digits do not begin where a text without marks goes on. -/
theorem not_prefix_digits {x ds cs : List Char} (unmarked : Unmarked x) (nonempty : x ≠ [])
    (digits : Digits ds) (tail : List Char) : x ++ cs ≠ ds ++ tail := by
  intro same
  cases x with
  | nil => exact nonempty rfl
  | cons c x =>
    cases ds with
    | nil => exact digits.1 rfl
    | cons a ds =>
      obtain ⟨rfl, -⟩ := List.cons.inj same
      have digit := digits.2 c (List.mem_cons_self ..)
      have plain := unmarked c (List.mem_cons_self ..)
      simp [isMark, digit] at plain

/-- In a text with marks, digits behind what is shorter than an opener are its own: nothing is found
before them. -/
theorem Marked.found_before_digits (proper : d.Proper) {u t : List Char} (h : Marked d true u t)
    {rest ds tail : List Char} (unmarked : Unmarked rest)
    (short : rest.length < d.opener.length) (digits : Digits ds)
    (whole : u = rest ++ (ds ++ '%' :: tail)) : d.found rest = [] := by
  induction h generalizing rest with
  | nil =>
    cases rest with
    | nil => exact found_nil
    | cons => cases whole
  | @opener n u t h ih =>
    have longer : rest <+: d.opener := by
      refine List.prefix_of_prefix_length_le ⟨_, whole.symm⟩ (List.prefix_append _ _) short.le
    obtain ⟨x, eq⟩ := longer
    have nonempty : x ≠ [] := by
      rintro rfl
      rw [List.append_nil] at eq
      exact absurd short (by rw [eq]; exact Nat.lt_irrefl _)
    have goesOn := proper.unmarked_opener
    rw [← eq] at goesOn whole
    rw [List.append_assoc, List.append_cancel_left_eq] at whole
    exact absurd whole (not_prefix_digits goesOn.right nonempty digits _)
  | @closer n u t noOpener h ih =>
    have none := unmarked.eq_nil (head?_closeText n _) ⟨_, whole.symm⟩
    rw [none, found_nil]
  | @other c u t noOpener noCloser h ih =>
    cases rest with
    | nil => exact found_nil
    | cons a rest =>
      obtain ⟨rfl, behind⟩ := List.cons.inj whole
      have before : c :: rest <+: c :: t :=
        (List.prefix_cons_inj c).2 (h.begins unmarked.tail ⟨_, behind.symm⟩)
      have later := ih unmarked.tail (Nat.lt_of_succ_lt short) behind
      rw [found_other (fun begins => noOpener (begins.trans before))
        (fun begins => noCloser (begins.trans before)), later]

/-- An opener that is unmarked within a closer straddles it. -/
theorem Marked.straddles (proper : d.Proper) {u t : List Char} (h : Marked d true u t)
    (noOpener : ¬ d.opener <+: d.closer ++ t) {start : List Char} (suffix : start <:+ d.closer)
    (nonempty : start ≠ []) {n : Nat} (found : openMark? d.opener (start ++ u) = some n) :
    d.Straddles := by
  obtain ⟨ds, tail, digits, whole⟩ := openMark?_eq_some found
  have unmarked : Unmarked start := proper.unmarked_closer.sublist suffix.sublist
  -- No digit follows the opener within the closer, so it does not end there.
  obtain ⟨rest, eq, behind⟩ :
      ∃ rest, start ++ rest = d.opener ∧ u = rest ++ (ds ++ '%' :: tail) := by
    rcases List.append_eq_append_iff.1 whole with ⟨rest, eq, behind⟩ | ⟨x, eq, behind⟩
    · exact ⟨rest, eq.symm, behind⟩
    · cases x with
      | nil => exact ⟨[], by simpa using eq, by simpa using behind.symm⟩
      | cons c x =>
        rw [eq] at unmarked
        exact absurd behind.symm (not_prefix_digits unmarked.right (List.cons_ne_nil c x) digits _)
  have noOpener' : ¬ d.opener <+: d.closer ++ rest := by
    intro begins
    have inside : d.closer ++ rest <+: d.closer ++ u :=
      (List.prefix_append_right_inj _).2 ⟨_, behind.symm⟩
    exact noOpener (h.prefix_append proper.unmarked_opener (begins.trans inside))
  have proper' : start <:+ d.closer.tail := by
    cases closer : d.closer with
    | nil => exact absurd closer proper.closer
    | cons c tail =>
      rw [closer] at suffix
      rcases List.suffix_cons_iff.1 suffix with rfl | later
      · rw [closer, eq] at noOpener'
        exact absurd (List.prefix_refl _) noOpener'
      · exact later
  have short : rest.length < d.opener.length := by
    have := List.length_pos_iff.2 nonempty
    rw [← eq, List.length_append]
    omega
  have unmarked' : Unmarked rest := by
    have := proper.unmarked_opener
    rw [← eq] at this
    exact this.right
  refine ⟨start, rest, nonempty, proper', eq, ?_⟩
  rw [found_closer proper noOpener', h.found_before_digits proper unmarked' short digits behind]

/-- **The marks of the openers can be taken out**, if no opener straddles a closer. -/
theorem Marked.unopened (proper : d.Proper) (literal : d.Literal) (apart : ¬ d.Straddles)
    {u t : List Char} (h : Marked d true u t) : Marked d false (d.unopen u) t := by
  induction h with
  | nil =>
    rw [unopen_nil]
    exact .nil
  | @opener n u t h ih =>
    rw [if_pos rfl, Bracket.openText_append, unopen_opener (digits_decimalDigits n),
      literal.opener proper]
    exact .opener n ih
  | @closer n u t noOpener h ih =>
    have none : ∀ v, v <:+ d.closer → v ≠ [] → openMark? d.opener (v ++ u) = Option.none := by
      intro v suffix nonempty
      cases found : openMark? d.opener (v ++ u) with
      | none => rfl
      | some k => exact absurd (h.straddles proper noOpener suffix nonempty found) apart
    have front := not_mem_closeText proper.unmarked_opener n
    rw [unopen_free proper front, unopen_front none]
    exact .closer n noOpener ih
  | @other c u t noOpener noCloser h ih =>
    have whole : Marked d true (c :: u) (c :: t) := .other noOpener noCloser h
    have none : ¬ d.opener <+: c :: u :=
      fun begins => noOpener (whole.begins proper.unmarked_opener begins)
    have step : d.unopen (c :: u) = c :: d.unopen u :=
      Bracket.substitute_none (openMark?_of_absent none)
    rw [step]
    exact .other noOpener noCloser ih

/-! ## 5. The closers -/

/-- Behind digits of the text itself no closer stands that has no mark.  A closer that begins the
opener would be seen there. -/
theorem Marked.not_closing (proper : d.Proper) (active : ¬ d.Inert)
    (apart : ¬ d.closer <+: d.opener) {u t ds rest : List Char} (h : Marked d false u t)
    (digits : ∀ c ∈ ds, isDecimal c = true) : u ≠ ds ++ (d.closer ++ rest) := by
  intro whole
  induction h generalizing ds with
  | nil =>
    have empty := whole.symm
    simp only [List.append_eq_nil_iff] at empty
    exact proper.closer empty.2.1
  | @opener n u t h ih =>
    cases ds with
    | nil =>
      rw [List.nil_append] at whole
      rcases List.prefix_or_prefix_of_prefix ⟨_, whole⟩ (List.prefix_append d.closer rest) with
        begins | begins
      · exact active begins
      · exact apart begins
    | cons a ds =>
      obtain ⟨c, tail, eq⟩ := List.exists_cons_of_ne_nil proper.opener
      have first := proper.unmarked_opener
      rw [eq] at whole first
      obtain ⟨rfl, -⟩ := List.cons.inj whole
      have digit := digits c (List.mem_cons_self ..)
      rw [first.no_digit c (List.mem_cons_self ..)] at digit
      cases digit
  | @closer n u t noOpener h ih =>
    cases ds with
    | nil =>
      have marks := head?_closeText n (d.closer ++ u)
      rw [whole] at marks
      exact proper.closer (proper.unmarked_closer.eq_nil marks (List.prefix_append _ _))
    | cons a ds =>
      obtain ⟨rfl, -⟩ := List.cons.inj whole
      exact absurd (digits '%' (List.mem_cons_self ..)) (by decide)
  | @other c u t noOpener noCloser h ih =>
    cases ds with
    | nil =>
      have marked : Marked d false (c :: u) (c :: t) := .other noOpener noCloser h
      exact noCloser (marked.begins proper.unmarked_closer ⟨_, whole.symm⟩)
    | cons a ds =>
      obtain ⟨rfl, behind⟩ := List.cons.inj whole
      exact ih (fun c mem => digits c (List.mem_cons_of_mem _ mem)) behind

/-- **The marks of the closers can be taken out**, if no closer begins the opener, or no percent
sign is in the text itself. -/
theorem Marked.unclosed (proper : d.Proper) (literal : d.Literal) (active : ¬ d.Inert)
    {u t : List Char} (h : Marked d false u t) (apart : d.closer <+: d.opener → '%' ∉ t) :
    d.unclose u = t := by
  induction h with
  | nil => exact unclose_nil
  | @opener n u t h ih =>
    have later : d.closer <+: d.opener → '%' ∉ t := fun begins mem =>
      apart begins (List.mem_append_right _ mem)
    rw [if_neg Bool.false_ne_true, List.nil_append, unclose_front proper.percent.1, ih later]
  | @closer n u t noOpener h ih =>
    have later : d.closer <+: d.opener → '%' ∉ t := fun begins mem =>
      apart begins (List.mem_append_right _ mem)
    rw [Bracket.closeText_append, unclose_closer proper (digits_decimalDigits n),
      literal.closer proper, ih later]
  | @other c u t noOpener noCloser h ih =>
    have later : d.closer <+: d.opener → '%' ∉ t := fun begins mem =>
      apart begins (List.mem_cons_of_mem _ mem)
    have none : closeMark? d.closer (c :: u) = Option.none := by
      cases found : closeMark? d.closer (c :: u) with
      | none => rfl
      | some k =>
        obtain ⟨ds, rest, digits, whole⟩ := closeMark?_eq_some found
        obtain ⟨rfl, behind⟩ := List.cons.inj whole
        have apart' : ¬ d.closer <+: d.opener := fun begins =>
          apart begins (List.mem_cons_self ..)
        exact absurd behind (h.not_closing proper active apart' digits.2)
    have step : d.unclose (c :: u) = c :: d.unclose u := Bracket.substitute_none none
    rw [step, ih later]

/-- **Without its marks a text with marks is what it was.** -/
theorem Marked.restored (proper : d.Proper) (literal : d.Literal) (active : ¬ d.Inert)
    (apart : ¬ d.Straddles) {u t : List Char} (h : Marked d true u t)
    (apart' : d.closer <+: d.opener → '%' ∉ t) : unmarkPair u d = t := by
  rw [unmarkPair_eq proper]
  exact (h.unopened proper literal apart).unclosed proper literal active apart'

/-! ## 6. Texts without delimiters -/

/-- Where nothing is found, no delimiter stands. -/
theorem not_prefix_of_found_eq_nil (proper : d.Proper) {cs v : List Char} (none : d.found cs = [])
    (suffix : v <:+ cs) : ¬ d.opener <+: v ∧ ¬ d.closer <+: v := by
  have nothing : ¬ d.opener <+: [] ∧ ¬ d.closer <+: [] :=
    ⟨fun begins => proper.opener (List.prefix_nil.1 begins),
      fun begins => proper.closer (List.prefix_nil.1 begins)⟩
  induction cs, none using silent_induction proper with
  | nil =>
    rw [List.suffix_nil.1 suffix]
    exact nothing
  | other c cs noOpener noCloser none ih =>
    rcases List.suffix_cons_iff.1 suffix with rfl | later
    · exact ⟨noOpener, noCloser⟩
    · exact ih later

/-- Nothing is taken out. -/
theorem unmarkPair_of_found_eq_nil (proper : d.Proper) {cs : List Char} (none : d.found cs = []) :
    unmarkPair cs d = cs := by
  have opened : d.unopen (cs ++ []) = cs ++ d.unopen [] := by
    refine unopen_front fun v suffix _ => openMark?_of_absent ?_
    rw [List.append_nil]
    exact (not_prefix_of_found_eq_nil proper none suffix).1
  have closed : d.unclose (cs ++ []) = cs ++ d.unclose [] := by
    refine substitute_front fun v suffix _ => ?_
    rw [List.append_nil]
    cases found : closeMark? d.closer v with
    | none => rfl
    | some n =>
      obtain ⟨ds, rest, -, rfl⟩ := closeMark?_eq_some found
      have behind : d.closer ++ rest <:+ cs :=
        ((List.suffix_append ds _).trans (List.suffix_cons '%' _)).trans suffix
      exact absurd (List.prefix_append _ _) (not_prefix_of_found_eq_nil proper none behind).2
  rw [List.append_nil, unopen_nil, List.append_nil] at opened
  rw [List.append_nil, unclose_nil, List.append_nil] at closed
  rw [unmarkPair_eq proper, opened, closed]

/-- Nothing is put in. -/
theorem mark_of_found_eq_nil (proper : d.Proper) {cs : List Char} (none : d.found cs = [])
    (depth : Nat) : mark d depth cs = cs := by
  induction cs, none using silent_induction proper with
  | nil => exact mark_nil depth
  | other c cs noOpener noCloser none ih => rw [mark_other depth noOpener noCloser, ih]

/-- An inert pair finds no closers, so it fits only where it finds nothing. -/
theorem Inert.found_eq_nil (proper : d.Proper) (inert : d.Inert) {cs : List Char}
    (fits : d.Fits cs) : d.found cs = [] := by
  have noCloser : .closer ∉ d.found cs := by
    clear fits
    induction cs using d.scan_induction proper with
    | nil => simp
    | opener cs ih => simpa [found_opener proper] using ih
    | closer cs noOpener ih => exact absurd (inert.trans (List.prefix_append _ _)) noOpener
    | other c cs noOpener noCloser ih => rwa [found_other noOpener noCloser]
  rcases fits with none | ⟨closer, -⟩
  · exact none
  · exact absurd closer noCloser

end Delimiters

end Stencil
