/-
# Unmarking any text

Unmarking takes out what has the form of a mark, wherever it comes from.  A mark is a percent sign
and digits, on the inner side of a bracket, and none reaches past the next bracket.  So what
unmarking does to a text can be read off what stands between each two neighbouring brackets.

* `stripStart`, `stripEnd`: such a piece without what looks like the mark of the bracket in front of
  it, and of the one behind it.  They change just the pieces that are `StartsMarked` and
  `EndsMarked` (`stripStart_eq_iff`, `stripEnd_eq_iff`).
* `unmarkPair_piece`, `unmarkBrackets_piece`: unmarking goes from bracket to bracket.  Everything
  else about unmarking follows from this equation.
-/
import Stencil.Proofs.Strays

namespace Stencil

open Stencil.Text Stencil.Depth

/-! ## 1. What looks like a mark -/

/-- The text starts like one behind an opener and its mark. -/
def StartsMarked (cs : List Char) : Prop := ∃ ds rest, Digits ds ∧ cs = ds ++ '%' :: rest

/-- The text ends like one in front of the mark of a closer. -/
def EndsMarked (cs : List Char) : Prop := ∃ front ds, Digits ds ∧ cs = front ++ '%' :: ds

/-- Digits alone do neither. -/
theorem Digits.not_startsMarked {ds : List Char} (digits : Digits ds) : ¬ StartsMarked ds := by
  rintro ⟨front, rest, -, rfl⟩
  exact digits.not_mem isDecimal_percent (List.mem_append_right _ (List.mem_cons_self ..))

theorem Digits.not_endsMarked {ds : List Char} (digits : Digits ds) : ¬ EndsMarked ds := by
  rintro ⟨front, rest, -, rfl⟩
  exact digits.not_mem isDecimal_percent (List.mem_append_right _ (List.mem_cons_self ..))

/-- A text without the digits and the percent sign that it starts with. -/
def stripStart (cs : List Char) : List Char :=
  match cs.takeWhile isDecimal, cs.dropWhile isDecimal with
  | _ :: _, '%' :: rest => rest
  | _, _ => cs

/-- A text without the percent sign and the digits that it ends with. -/
def stripEnd : List Char → List Char
  | [] => []
  | c :: cs => if c = '%' ∧ Digits cs then [] else c :: stripEnd cs

theorem stripStart_append {ds : List Char} (digits : Digits ds) (rest : List Char) :
    stripStart (ds ++ '%' :: rest) = rest := by
  have stops : Stops isDecimal ('%' :: rest) := stops_cons.2 isDecimal_percent
  have run : (ds ++ '%' :: rest).takeWhile isDecimal = ds :=
    takeWhile_append_of_stops digits.2 stops
  have behind : (ds ++ '%' :: rest).dropWhile isDecimal = '%' :: rest := by
    rw [List.dropWhile_append_of_pos digits.2, dropWhile_of_stops stops]
  unfold stripStart
  rw [run, behind]
  obtain ⟨d, ds, rfl⟩ := List.exists_cons_of_ne_nil digits.1
  rfl

theorem stripStart_of_not {cs : List Char} (h : ¬ StartsMarked cs) : stripStart cs = cs := by
  unfold stripStart
  split
  · rename_i d ds rest run behind
    refine absurd ⟨d :: ds, rest, ⟨List.cons_ne_nil _ _, fun c mem => ?_⟩, ?_⟩ h
    · exact List.mem_takeWhile_imp (run ▸ mem)
    · rw [← run, ← behind, List.takeWhile_append_dropWhile]
  · rfl

theorem stripEnd_append {ds : List Char} (digits : Digits ds) (front : List Char) :
    stripEnd (front ++ '%' :: ds) = front := by
  induction front with
  | nil => simp [stripEnd, digits]
  | cons c front ih =>
    have other : ¬ Digits (front ++ '%' :: ds) := fun all =>
      all.not_mem isDecimal_percent (List.mem_append_right _ (List.mem_cons_self ..))
    rw [List.cons_append, stripEnd, if_neg fun h => other h.2, ih]

theorem stripEnd_of_not {cs : List Char} (h : ¬ EndsMarked cs) : stripEnd cs = cs := by
  induction cs with
  | nil => rfl
  | cons c cs ih =>
    have here : ¬ (c = '%' ∧ Digits cs) := by
      rintro ⟨rfl, digits⟩
      exact h ⟨[], cs, digits, rfl⟩
    have later : ¬ EndsMarked cs := by
      rintro ⟨front, ds, digits, rfl⟩
      exact h ⟨c :: front, ds, digits, rfl⟩
    rw [stripEnd, if_neg here, ih later]

/-- A text loses something at its start just when it starts like a marked one. -/
theorem stripStart_eq_iff (cs : List Char) : stripStart cs = cs ↔ ¬ StartsMarked cs := by
  refine ⟨?_, stripStart_of_not⟩
  rintro same ⟨ds, rest, digits, rfl⟩
  rw [stripStart_append digits] at same
  have := congrArg List.length same
  simp at this
  omega

theorem stripEnd_eq_iff (cs : List Char) : stripEnd cs = cs ↔ ¬ EndsMarked cs := by
  refine ⟨?_, stripEnd_of_not⟩
  rintro same ⟨front, ds, digits, rfl⟩
  rw [stripEnd_append digits] at same
  have := congrArg List.length same
  simp at this

theorem stripStart_suffix (cs : List Char) : stripStart cs <:+ cs := by
  by_cases starts : StartsMarked cs
  · obtain ⟨ds, rest, digits, rfl⟩ := starts
    rw [stripStart_append digits]
    exact (List.suffix_cons '%' rest).trans (List.suffix_append ds _)
  · rw [stripStart_of_not starts]

theorem prefix_stripEnd (cs : List Char) : stripEnd cs <+: cs := by
  by_cases ends : EndsMarked cs
  · obtain ⟨front, ds, digits, rfl⟩ := ends
    rw [stripEnd_append digits]
    exact List.prefix_append front _
  · rw [stripEnd_of_not ends]

/-- What starts like a marked text does so on its own. -/
theorem startsMarked_append {cs tail : List Char} (stops : Stops isMark tail) :
    StartsMarked (cs ++ tail) ↔ StartsMarked cs := by
  constructor
  · rintro ⟨ds, rest, digits, eq⟩
    rcases List.append_eq_append_iff.1 eq with ⟨more, rfl, whole⟩ | ⟨more, rfl, whole⟩
    · -- the tail would start with one of the digits or with the percent sign
      exfalso
      cases more with
      | nil => exact absurd (stops '%' (by rw [whole]; rfl)) (by decide)
      | cons d more =>
        have digit : isDecimal d = true := digits.2 d (by simp)
        have : isMark d = false := stops d (by rw [whole]; rfl)
        simp [isMark, digit] at this
    · cases more with
      | nil => exact absurd (stops '%' (by rw [← List.nil_append tail, ← whole]; rfl)) (by decide)
      | cons c more =>
        obtain ⟨rfl, -⟩ := List.cons.inj whole
        exact ⟨ds, more, digits, rfl⟩
  · rintro ⟨ds, rest, digits, rfl⟩
    exact ⟨ds, rest ++ tail, digits, by simp⟩

/-- What ends like a marked text does so on its own. -/
theorem endsMarked_append {front cs : List Char} (edge : ∀ c ∈ front.getLast?, isMark c = false) :
    EndsMarked (front ++ cs) ↔ EndsMarked cs := by
  constructor
  · rintro ⟨more, ds, digits, eq⟩
    rcases List.append_eq_append_iff.1 eq with ⟨a, rfl, whole⟩ | ⟨a, rfl, whole⟩
    · exact ⟨a, ds, digits, whole⟩
    · cases a with
      | nil => exact ⟨[], ds, digits, whole.symm⟩
      | cons c a =>
        -- the text in front would end with the percent sign or with one of the digits
        exfalso
        obtain ⟨rfl, rfl⟩ := List.cons.inj whole
        have last : (more ++ '%' :: a).getLast? =
            some (('%' :: a).getLast (List.cons_ne_nil _ _)) := by
          rw [List.getLast?_append_of_ne_nil _ (List.cons_ne_nil _ _),
            List.getLast?_eq_some_getLast]
        have mark : ∀ d ∈ '%' :: a, isMark d = true := by
          intro d mem
          rcases List.mem_cons.1 mem with rfl | inside
          · rfl
          · simp [isMark, digits.2 d (List.mem_append_left _ inside)]
        have none := edge _ last
        rw [mark _ (List.getLast_mem _)] at none
        exact Bool.noConfusion none
  · rintro ⟨more, ds, digits, rfl⟩
    exact ⟨front ++ more, ds, digits, by simp⟩

theorem startsMarked_append_percent (cs more : List Char) :
    StartsMarked (cs ++ '%' :: more) ↔ StartsMarked cs ∨ Digits cs := by
  constructor
  · rintro ⟨ds, rest, digits, eq⟩
    rcases List.append_eq_append_iff.1 eq with ⟨a, rfl, whole⟩ | ⟨a, rfl, whole⟩
    · -- the percent sign would be one of the digits, unless nothing is between
      cases a with
      | nil => exact Or.inr (by simpa using digits)
      | cons d a =>
        obtain ⟨rfl, -⟩ := List.cons.inj whole
        exact absurd (List.mem_append_right _ (List.mem_cons_self ..))
          (digits.not_mem isDecimal_percent)
    · cases a with
      | nil => exact Or.inr (by simpa using digits)
      | cons d a =>
        obtain ⟨rfl, -⟩ := List.cons.inj whole
        exact Or.inl ⟨ds, a, digits, rfl⟩
  · rintro (⟨ds, rest, digits, rfl⟩ | digits)
    · exact ⟨ds, rest ++ '%' :: more, digits, by simp⟩
    · exact ⟨cs, more, digits, rfl⟩

theorem endsMarked_append_percent (more cs : List Char) :
    EndsMarked (more ++ '%' :: cs) ↔ EndsMarked cs ∨ Digits cs := by
  constructor
  · rintro ⟨front, ds, digits, eq⟩
    rcases List.append_eq_append_iff.1 eq with ⟨a, rfl, whole⟩ | ⟨a, rfl, whole⟩
    · cases a with
      | nil =>
        obtain ⟨-, rfl⟩ := List.cons.inj whole
        exact Or.inr digits
      | cons d a =>
        obtain ⟨-, rfl⟩ := List.cons.inj whole
        exact Or.inl ⟨a, ds, digits, rfl⟩
    · cases a with
      | nil =>
        obtain ⟨-, rfl⟩ := List.cons.inj whole
        exact Or.inr digits
      | cons d a =>
        obtain ⟨-, rfl⟩ := List.cons.inj whole
        exact absurd (List.mem_append_right _ (List.mem_cons_self ..))
          (digits.not_mem isDecimal_percent)
  · rintro (⟨front, ds, digits, rfl⟩ | digits)
    · exact ⟨more ++ '%' :: front, ds, digits, by simp⟩
    · exact ⟨more, cs, digits, rfl⟩

/-- Taken from both ends, nothing is lost just when neither end loses anything. -/
theorem stripEnd_stripStart_eq_iff (cs : List Char) :
    stripEnd (stripStart cs) = cs ↔ ¬ StartsMarked cs ∧ ¬ EndsMarked cs := by
  rw [← stripStart_eq_iff, ← stripEnd_eq_iff]
  constructor
  · intro same
    have short := (prefix_stripEnd (stripStart cs)).length_le
    rw [same] at short
    have start : stripStart cs = cs := (stripStart_suffix cs).eq_of_length_le short
    rw [start] at same
    exact ⟨start, same⟩
  · rintro ⟨start, last⟩
    rw [start, last]

theorem stripStart_stripEnd_eq_iff (cs : List Char) :
    stripStart (stripEnd cs) = cs ↔ ¬ StartsMarked cs ∧ ¬ EndsMarked cs := by
  rw [← stripStart_eq_iff, ← stripEnd_eq_iff]
  constructor
  · intro same
    have short := (stripStart_suffix (stripEnd cs)).length_le
    rw [same] at short
    have last : stripEnd cs = cs := (prefix_stripEnd cs).eq_of_length_le short
    rw [last] at same
    exact ⟨same, last⟩
  · rintro ⟨start, last⟩
    rw [last, start]

/-! ## 2. One pair of brackets -/

theorem ne_percent {c : Char} (other : isMark c = false) : c ≠ '%' :=
  (ne_of_class (by decide : isMark '%' = true) other).symm

namespace Bracket

variable {b : Bracket}

/-- A text without what looks like the marks of openers. -/
def unopen (b : Bracket) (cs : List Char) : List Char :=
  substitute (openMark? [b.opener]) (expand · [b.opener]) cs

/-- A text without what looks like the marks of closers. -/
def unclose (b : Bracket) (cs : List Char) : List Char :=
  substitute (closeMark? [b.closer]) (expand · [b.closer]) cs

theorem unmarkPair_eq (cs : List Char) : unmarkPair cs b.delimiters = b.unclose (b.unopen cs) := by
  simp [unmarkPair, delimiters, unopen, unclose]

theorem openMark?_eq_none {cs : List Char} (h : ¬ StartsMarked cs) :
    openMark? [b.opener] (b.opener :: cs) = none := by
  have starts : [b.opener].isPrefixOf (b.opener :: cs) = true := by simp
  unfold openMark?
  rw [if_pos starts]
  simp only [List.length_singleton, List.drop_succ_cons, List.drop_zero, Nat.add_comm 1,
    drop_takeWhile]
  split
  · rfl
  · rename_i found
    simp only [Bool.or_eq_true, not_or, List.isEmpty_iff, bne_iff_ne, ne_eq, not_not] at found
    obtain ⟨some', percent⟩ := found
    obtain ⟨rest, eq⟩ := List.head?_eq_some_iff.1 percent
    refine absurd ⟨cs.takeWhile isDecimal, rest, ⟨some', ?_⟩, ?_⟩ h
    · exact fun c mem => List.mem_takeWhile_imp mem
    · rw [← eq, List.takeWhile_append_dropWhile]

/-- A percent sign starts a mark only where digits alone lead to a closer. -/
theorem closeMark?_eq_none {cs tail : List Char} (free : b.closer ∉ cs) (stops : Stops isMark tail)
    (h : ¬ (Digits cs ∧ tail.head? = some b.closer)) :
    closeMark? [b.closer] ('%' :: (cs ++ tail)) = none := by
  by_cases digits : ∀ c ∈ cs, isDecimal c = true
  · have behind : Stops isDecimal tail := fun c first => by
      have := stops c first
      simp only [isMark, Bool.or_eq_false_iff] at this
      exact this.1
    by_cases closes : tail.head? = some b.closer
    · -- without a digit there is no place to look for the closer
      have none : cs = [] := by
        by_contra some'
        exact h ⟨⟨some', digits⟩, closes⟩
      have run : tail.takeWhile isDecimal = [] := by
        have none' : ∀ c ∈ ([] : List Char), isDecimal c = true :=
          fun c no => absurd no List.not_mem_nil
        exact takeWhile_append_of_stops none' behind
      simp [closeMark?, none, run, digitsBefore?]
    · refine closeMark?_of_shut ?_
      rw [Shut, List.dropWhile_append_of_pos digits, dropWhile_of_stops behind]
      exact closes
  · refine closeMark?_of_shut fun first => ?_
    obtain ⟨c, mem, other⟩ : ∃ c ∈ cs, isDecimal c = false := by
      simpa using digits
    have some' : cs.dropWhile isDecimal ≠ [] := fun none =>
      absurd (List.dropWhile_eq_nil_iff.1 none c mem) (by simp [other])
    obtain ⟨d, rest, eq⟩ := List.exists_cons_of_ne_nil some'
    rw [List.dropWhile_append, if_neg (by simp [eq]), eq] at first
    have : d = b.closer := by simpa using first
    refine free (this ▸ (List.dropWhile_suffix isDecimal).mem ?_)
    rw [eq]
    exact List.mem_cons_self ..

theorem unopen_append {cs : List Char} (free : b.opener ∉ cs) (tail : List Char) :
    b.unopen (cs ++ tail) = cs ++ b.unopen tail :=
  substitute_append tail fun _ mem rest =>
    openMark?_of_ne (fun same => free (same ▸ mem)) rest

theorem unopen_cons {c : Char} (other : c ≠ b.opener) (cs : List Char) :
    b.unopen (c :: cs) = c :: b.unopen cs := substitute_none (openMark?_of_ne other cs)

theorem unopen_opener {cs tail : List Char} (free : b.opener ∉ cs) (stops : Stops isMark tail) :
    b.unopen (b.opener :: (cs ++ tail)) = b.opener :: (stripStart cs ++ b.unopen tail) := by
  by_cases starts : StartsMarked cs
  · obtain ⟨ds, rest, digits, rfl⟩ := starts
    have whole : ds ++ '%' :: rest ++ tail = (ds ++ ['%']) ++ (rest ++ tail) := by simp
    have found : openMark? [b.opener] (b.opener :: ((ds ++ ['%']) ++ (rest ++ tail))) =
        some ((ds ++ ['%']).length + 1) := by
      simpa using openMark?_digits digits (rest ++ tail)
    have later : b.opener ∉ rest := fun mem =>
      free (List.mem_append_right _ (List.mem_cons_of_mem _ mem))
    rw [stripStart_append digits, whole, unopen, substitute_some found,
      expand_of_ne b.opener_plain.2.2]
    exact congrArg (b.opener :: ·) (unopen_append later tail)
  · have none : openMark? [b.opener] (b.opener :: (cs ++ tail)) = none :=
      openMark?_eq_none (mt (startsMarked_append stops).1 starts)
    rw [stripStart_of_not starts, unopen, substitute_none none]
    exact congrArg (b.opener :: ·) (unopen_append free tail)

theorem unclose_cons {c : Char} (other : c ≠ '%') (cs : List Char) :
    b.unclose (c :: cs) = c :: b.unclose cs := substitute_none (closeMark?_of_ne other _ cs)

theorem unclose_append {cs tail : List Char} (free : b.closer ∉ cs) (stops : Stops isMark tail) :
    b.unclose (cs ++ tail) =
      (if tail.head? = some b.closer then stripEnd cs else cs) ++ b.unclose tail := by
  induction cs with
  | nil => simp [stripEnd]
  | cons c cs ih =>
    have later : b.closer ∉ cs := fun mem => free (List.mem_cons_of_mem _ mem)
    by_cases marked : c = '%' ∧ Digits cs ∧ tail.head? = some b.closer
    · obtain ⟨rfl, digits, closes⟩ := marked
      obtain ⟨rest, rfl⟩ := List.head?_eq_some_iff.1 closes
      have whole : '%' :: cs ++ b.closer :: rest = '%' :: ((cs ++ [b.closer]) ++ rest) := by simp
      have found : closeMark? [b.closer] ('%' :: ((cs ++ [b.closer]) ++ rest)) =
          some ((cs ++ [b.closer]).length + 1) := by
        simpa using closeMark?_digits digits rest
      rw [if_pos closes, stripEnd, if_pos ⟨rfl, digits⟩, unclose_cons b.closer_plain.2.1, whole,
        unclose, substitute_some found, expand_of_ne b.closer_plain.2.2]
      rfl
    · have none : closeMark? [b.closer] (c :: (cs ++ tail)) = none := by
        by_cases percent : c = '%'
        · rw [percent]
          exact closeMark?_eq_none later stops fun h => marked ⟨percent, h⟩
        · exact closeMark?_of_ne percent _ _
      rw [List.cons_append, unclose, substitute_none none, ← unclose, ih later]
      split
      · rename_i closes
        rw [stripEnd, if_neg fun h => marked ⟨h.1, h.2, closes⟩, List.cons_append]
      · rw [List.cons_append]

theorem head?_unopen (cs : List Char) : (b.unopen cs).head? = cs.head? := by
  cases cs with
  | nil => simp [unopen, substitute]
  | cons c cs =>
    by_cases opens : c = b.opener
    · rw [opens, unopen, substitute]
      split
      · rw [expand_of_ne b.opener_plain.2.2]
        rfl
      · rfl
    · rw [unopen_cons opens]
      rfl

theorem head?_unclose {cs : List Char} (stops : Stops isMark cs) :
    (b.unclose cs).head? = cs.head? := by
  cases cs with
  | nil => simp [unclose, substitute]
  | cons c cs =>
    rw [unclose_cons (ne_percent (stops_cons.1 stops))]
    rfl

theorem head?_unmarkPair {cs : List Char} (stops : Stops isMark cs) :
    (unmarkPair cs b.delimiters).head? = cs.head? := by
  have inner : Stops isMark (b.unopen cs) := fun c first => stops c (head?_unopen cs ▸ first)
  rw [unmarkPair_eq, head?_unclose inner, head?_unopen]

/-- A piece without what looks like the mark of the bracket in front of it. -/
def stripLeft (b : Bracket) (left : Option Char) (cs : List Char) : List Char :=
  if left = some b.opener then stripStart cs else cs

/-- A piece without what looks like the mark of the bracket behind it. -/
def stripRight (b : Bracket) (right : Option Char) (cs : List Char) : List Char :=
  if right = some b.closer then stripEnd cs else cs

theorem Free.stripLeft {cs : List Char} {d : Bracket} (h : d.Free cs) (left : Option Char) :
    d.Free (b.stripLeft left cs) := by
  unfold Bracket.stripLeft
  split
  · exact fun c mem => h c ((stripStart_suffix cs).mem mem)
  · exact h

theorem Free.stripRight {cs : List Char} {d : Bracket} (h : d.Free cs) (right : Option Char) :
    d.Free (b.stripRight right cs) := by
  unfold Bracket.stripRight
  split
  · exact fun c mem => h c ((prefix_stripEnd cs).mem mem)
  · exact h

/-- **Unmarking goes from bracket to bracket.**  Between `left`, if there is something, and the
tail, no bracket of the pair stands. -/
theorem unmarkPair_piece {left : Option Char} {cs tail : List Char}
    (edge : ∀ c ∈ left, isMark c = false) (free : b.Free cs) (stops : Stops isMark tail) :
    unmarkPair (left.toList ++ (cs ++ tail)) b.delimiters =
      left.toList ++ (b.stripRight tail.head? (b.stripLeft left cs) ++
        unmarkPair tail b.delimiters) := by
  have noOpener : b.opener ∉ cs := fun mem => (free _ mem).1 rfl
  have noCloser : b.closer ∉ b.stripLeft left cs := fun mem => (free.stripLeft left _ mem).2 rfl
  have stops' : Stops isMark (b.unopen tail) := fun c first => stops c (head?_unopen tail ▸ first)
  have opened : b.unopen (left.toList ++ (cs ++ tail)) =
      left.toList ++ (b.stripLeft left cs ++ b.unopen tail) := by
    unfold stripLeft
    split
    · rename_i opens
      rw [opens]
      exact unopen_opener noOpener stops
    · rename_i other
      cases left with
      | none => exact unopen_append noOpener tail
      | some c =>
        have ne : c ≠ b.opener := fun same => other (congrArg some same)
        exact (unopen_cons ne _).trans (congrArg (c :: ·) (unopen_append noOpener tail))
  have closed := unclose_append noCloser stops'
  rw [head?_unopen] at closed
  rw [unmarkPair_eq, unmarkPair_eq, opened]
  cases left with
  | none => exact closed
  | some c =>
    have ne : c ≠ '%' := ne_percent (edge c rfl)
    exact (unclose_cons ne _).trans (congrArg (c :: ·) closed)

end Bracket

/-! ## 3. Both kinds of brackets -/

/-- A piece between two brackets without what looks like their marks, the braces first. -/
def strip (left right : Option Char) (cs : List Char) : List Char :=
  squares.stripRight right (squares.stripLeft left (braces.stripRight right
    (braces.stripLeft left cs)))

theorem isBracket_of_isMark {c : Char} (mark : isMark c = true) : isBracket c = false :=
  isBracket_of_class mark (by decide) (by decide)

theorem isMark_of_isBracket {c : Char} (h : isBracket c = true) : isMark c = false := by
  simp only [isBracket, Bool.or_eq_true, beq_iff_eq] at h
  rcases h with ((rfl | rfl) | rfl) | rfl
  all_goals decide

theorem unmarkBrackets_eq (cs : List Char) : unmarkBrackets cs =
    unmarkPair (unmarkPair cs braces.delimiters) squares.delimiters := rfl

theorem isBracket_strip {cs : List Char} (free : ∀ c ∈ cs, isBracket c = false)
    (left right : Option Char) : ∀ c ∈ strip left right cs, isBracket c = false := by
  obtain ⟨brace, square⟩ := free_of_isBracket free
  intro c mem
  have noBrace := (((brace.stripLeft left).stripRight right).stripLeft left).stripRight right c mem
  have noSquare :=
    (((square.stripLeft left).stripRight right).stripLeft left).stripRight right c mem
  simp only [isBracket, Bool.or_eq_false_iff, beq_eq_false_iff_ne]
  exact ⟨⟨⟨noBrace.1, noBrace.2⟩, noSquare.1⟩, noSquare.2⟩

/-- **Unmarking goes from bracket to bracket**, for both kinds. -/
theorem unmarkBrackets_piece {left : Option Char} {cs tail : List Char}
    (edge : ∀ c ∈ left, isMark c = false) (free : ∀ c ∈ cs, isBracket c = false)
    (stops : Stops isMark tail) :
    unmarkBrackets (left.toList ++ (cs ++ tail)) =
      left.toList ++ (strip left tail.head? cs ++ unmarkBrackets tail) := by
  obtain ⟨brace, square⟩ := free_of_isBracket free
  have first := Bracket.head?_unmarkPair (b := braces) stops
  have stops' : Stops isMark (unmarkPair tail braces.delimiters) := fun c h => stops c (first ▸ h)
  rw [unmarkBrackets_eq, unmarkBrackets_eq, Bracket.unmarkPair_piece edge brace stops,
    Bracket.unmarkPair_piece edge ((square.stripLeft left).stripRight _) stops', first]
  rfl

end Stencil
