/-
# Brackets without a partner

Marking any text, be its brackets balanced or not.  A closer of nothing is passed over, and an
opener that nothing closes is marked all the same, if closers of its kind occur at all.

* `skeleton`: a text without percent signs and digits.  Marks are made of these, so marking keeps
  the skeleton, and with it the brackets and how deep they nest (`skeleton_mark`, `level_skeleton`).
* `markedIn`: a piece of a text as it is marked within the whole.  It depends on what is around it
  in two ways only: whether both brackets of a kind occur, and how many are open in front.
* `markedIn_append`: the pieces of a text are marked one by one.
* `markedIn_singleton`: a character with its marks, `markBefore` and `markBehind`.
-/
import Stencil.Proofs.Enclosed

namespace Stencil

open Stencil.Text Stencil.Depth

/-! ## 1. What marking keeps -/

/-- A character that marks are made of. -/
def isMark (c : Char) : Bool := isDecimal c || c == '%'

/-- A text without these. -/
def skeleton (cs : List Char) : List Char := cs.filter fun c => !isMark c

theorem skeleton_append (front behind : List Char) :
    skeleton (front ++ behind) = skeleton front ++ skeleton behind := List.filter_append ..

theorem skeleton_cons_of_isMark {c : Char} (mark : isMark c = true) (cs : List Char) :
    skeleton (c :: cs) = skeleton cs := by
  simp [skeleton, mark]

theorem skeleton_cons_congr {u t : List Char} (h : skeleton u = skeleton t) (c : Char) :
    skeleton (c :: u) = skeleton (c :: t) := by
  rw [← List.singleton_append, skeleton_append, h, ← skeleton_append, List.singleton_append]

theorem skeleton_eq_nil {cs : List Char} (marks : ∀ c ∈ cs, isMark c = true) :
    skeleton cs = [] := by
  simpa [skeleton] using marks

theorem mem_skeleton {c : Char} (other : isMark c = false) (cs : List Char) :
    c ∈ skeleton cs ↔ c ∈ cs := by
  simp [skeleton, other]

namespace Bracket

variable {b : Bracket}

theorem isMark_openText (n : Nat) : ∀ c ∈ openText n, isMark c = true := by
  intro c mem
  rcases List.mem_append.1 mem with digit | percent
  · simp [isMark, isDecimal_of_mem_decimalDigits digit]
  · simp [isMark, List.mem_singleton.1 percent]

theorem isMark_closeText (n : Nat) : ∀ c ∈ closeText n, isMark c = true := by
  intro c mem
  rcases List.mem_cons.1 mem with rfl | digit
  · rfl
  · simp [isMark, isDecimal_of_mem_decimalDigits digit]

theorem isMark_opener (b : Bracket) : isMark b.opener = false := by
  simp [isMark, b.opener_plain.1, b.opener_plain.2.1]

theorem isMark_closer (b : Bracket) : isMark b.closer = false := by
  simp [isMark, b.closer_plain.1, b.closer_plain.2.1]

theorem skeleton_mark (depth : Nat) (cs : List Char) :
    skeleton (mark b.delimiters depth cs) = skeleton cs := by
  induction cs generalizing depth with
  | nil => rw [mark_nil]
  | cons c cs ih =>
    rcases b.char_cases c with rfl | rfl | ⟨noOpener, noCloser⟩
    · rw [mark_opener]
      refine skeleton_cons_congr ?_ _
      rw [skeleton_append, skeleton_eq_nil (isMark_openText _), List.nil_append, ih]
    · cases depth with
      | zero =>
        rw [mark_stray]
        exact skeleton_cons_congr (ih 0) _
      | succ depth =>
        rw [mark_closer, skeleton_append, skeleton_eq_nil (isMark_closeText _), List.nil_append]
        exact skeleton_cons_congr (ih depth) _
    · rw [mark_other b noOpener noCloser]
      exact skeleton_cons_congr (ih depth) _

/-- How deep brackets nest can be seen from the skeleton. -/
theorem level_skeleton (depth : Nat) (cs : List Char) :
    b.level depth (skeleton cs) = b.level depth cs := by
  induction cs generalizing depth with
  | nil => rfl
  | cons c cs ih =>
    cases mark : isMark c with
    | true =>
      have noOpener : c ≠ b.opener := ne_of_class mark b.isMark_opener
      have noCloser : c ≠ b.closer := ne_of_class mark b.isMark_closer
      rw [skeleton_cons_of_isMark mark, ih, level_other noOpener noCloser]
    | false =>
      have kept : skeleton (c :: cs) = c :: skeleton cs := by simp [skeleton, mark]
      rw [kept]
      simp only [level, ih]

theorem level_congr {u t : List Char} (h : skeleton u = skeleton t) (depth : Nat) :
    b.level depth u = b.level depth t := by
  rw [← level_skeleton, h, level_skeleton]

/-- An open bracket was opened. -/
theorem opener_mem_of_level {cs : List Char} (h : 0 < b.level 0 cs) : b.opener ∈ cs := by
  by_contra none
  have closed : ∀ cs : List Char, b.opener ∉ cs → b.level 0 cs = 0 := by
    intro cs none
    induction cs with
    | nil => rfl
    | cons c cs ih =>
      obtain ⟨other, none⟩ := List.ne_and_not_mem_of_not_mem_cons none
      by_cases closes : c = b.closer
      · rw [closes, level_closer]
        exact ih none
      · rw [level_other (Ne.symm other) closes]
        exact ih none
  rw [closed cs none] at h
  exact Nat.lt_irrefl 0 h

theorem Free.level {cs : List Char} (h : b.Free cs) (depth : Nat) : b.level depth cs = depth :=
  level_of_nesting (h.nesting depth)

/-- Without an opener nothing is marked that is not open already. -/
theorem mark_zero_of_not_mem {cs : List Char} (none : b.opener ∉ cs) :
    mark b.delimiters 0 cs = cs := by
  induction cs with
  | nil => exact mark_nil b 0
  | cons c cs ih =>
    obtain ⟨other, none⟩ := List.ne_and_not_mem_of_not_mem_cons none
    by_cases closes : c = b.closer
    · rw [closes, mark_stray, ih none]
    · rw [mark_other b (Ne.symm other) closes, ih none]

/-! ## 2. Pieces of a text -/

/-- Brackets of both kinds occur. -/
def Paired (b : Bracket) (cs : List Char) : Prop := b.opener ∈ cs ∧ b.closer ∈ cs

instance (cs : List Char) : Decidable (b.Paired cs) :=
  inferInstanceAs (Decidable (b.opener ∈ cs ∧ b.closer ∈ cs))

/-- Other characters make no difference to that. -/
theorem Free.paired_append {cs : List Char} (h : b.Free cs) (front rest : List Char) :
    b.Paired (front ++ (cs ++ rest)) ↔ b.Paired (front ++ rest) := by
  have opener : b.opener ∉ cs := fun mem => (h _ mem).1 rfl
  have closer : b.closer ∉ cs := fun mem => (h _ mem).2 rfl
  simp [Paired, opener, closer]

theorem applies_iff (cs : List Char) : applies b.delimiters cs = true ↔ b.Paired cs := by
  simp [applies, delimiters, occurs_singleton, Paired]

theorem paired_congr {u t : List Char} (h : skeleton u = skeleton t) :
    b.Paired u ↔ b.Paired t := by
  unfold Paired
  rw [← mem_skeleton b.isMark_opener u, ← mem_skeleton b.isMark_closer u, h,
    mem_skeleton b.isMark_opener, mem_skeleton b.isMark_closer]

/-- A piece of a text with the marks of one pair, when `depth` brackets are open in front of it.
They are marked if the whole text has brackets of both kinds. -/
def part (b : Bracket) (whole : List Char) (depth : Nat) (cs : List Char) : List Char :=
  if b.Paired whole then mark b.delimiters depth cs else cs

theorem markPair_eq_part (cs : List Char) : markPair cs b.delimiters = b.part cs 0 cs := by
  unfold markPair part
  by_cases paired : b.Paired cs
  · rw [if_pos paired, if_pos ((applies_iff cs).2 paired)]
  · rw [if_neg paired, if_neg (mt (applies_iff cs).1 paired)]

theorem part_append (whole : List Char) (depth : Nat) (front behind : List Char) :
    b.part whole depth (front ++ behind) =
      b.part whole depth front ++ b.part whole (b.level depth front) behind := by
  unfold part
  split
  · exact mark_append_level depth front behind
  · rfl

theorem skeleton_part (whole : List Char) (depth : Nat) (cs : List Char) :
    skeleton (b.part whole depth cs) = skeleton cs := by
  unfold part
  split
  · exact skeleton_mark depth cs
  · rfl

theorem part_congr {whole whole' : List Char} (h : b.Paired whole ↔ b.Paired whole') (depth : Nat)
    (cs : List Char) : b.part whole depth cs = b.part whole' depth cs := by
  simp only [part, h]

theorem Free.part {cs : List Char} (h : b.Free cs) (whole : List Char) (depth : Nat) :
    b.part whole depth cs = cs := by
  unfold Bracket.part
  split
  · exact h.mark depth
  · rfl

/-- The mark in front of a character; only a closer has one. -/
def before (b : Bracket) (whole : List Char) (depth : Nat) (c : Char) : List Char :=
  if c = b.closer ∧ b.Paired whole ∧ 0 < depth then closeText depth else []

/-- The mark behind a character; only an opener has one. -/
def behind (b : Bracket) (whole : List Char) (depth : Nat) (c : Char) : List Char :=
  if c = b.opener ∧ b.Paired whole then openText (depth + 1) else []

theorem part_singleton (whole : List Char) (depth : Nat) (c : Char) :
    b.part whole depth [c] = b.before whole depth c ++ c :: b.behind whole depth c := by
  unfold part before behind
  by_cases paired : b.Paired whole
  · simp only [paired, if_true, true_and, and_true]
    rcases b.char_cases c with rfl | rfl | ⟨noOpener, noCloser⟩
    · simp [mark_opener, b.apart]
    · cases depth with
      | zero => simp [mark_stray, b.apart.symm]
      | succ depth => simp [mark_closer, b.apart.symm]
    · simp [mark_other b noOpener noCloser, noOpener, noCloser]
  · simp [paired]

theorem isMark_before {whole : List Char} {depth : Nat} {c : Char} :
    ∀ x ∈ b.before whole depth c, isMark x = true := by
  unfold before
  split
  · exact isMark_closeText depth
  · exact fun _ no => absurd no List.not_mem_nil

theorem isMark_behind {whole : List Char} {depth : Nat} {c : Char} :
    ∀ x ∈ b.behind whole depth c, isMark x = true := by
  unfold behind
  split
  · exact isMark_openText (depth + 1)
  · exact fun _ no => absurd no List.not_mem_nil

theorem free_of_isMark {cs : List Char} (marks : ∀ c ∈ cs, isMark c = true) : b.Free cs := by
  intro c mem
  exact ⟨ne_of_class (marks c mem) b.isMark_opener, ne_of_class (marks c mem) b.isMark_closer⟩

end Bracket

/-! ## 3. Both kinds of brackets -/

/-- The kinds of brackets that are marked. -/
def kinds : List Bracket := [braces, squares]

theorem forall_kinds {p : Bracket → Prop} : (∀ b ∈ kinds, p b) ↔ p braces ∧ p squares := by
  simp [kinds]

/-- A piece of a text as it is marked in the whole; `front` is what stands in front of it. -/
def markedIn (whole front cs : List Char) : List Char :=
  squares.part whole (squares.level 0 front) (braces.part whole (braces.level 0 front) cs)

theorem skeleton_markedIn (whole front cs : List Char) :
    skeleton (markedIn whole front cs) = skeleton cs := by
  unfold markedIn
  rw [Bracket.skeleton_part, Bracket.skeleton_part]

theorem mem_markedIn_iff {c : Char} (other : isMark c = false) (whole front cs : List Char) :
    c ∈ markedIn whole front cs ↔ c ∈ cs := by
  rw [← mem_skeleton other, skeleton_markedIn, mem_skeleton other]

theorem markBrackets_eq_markedIn (cs : List Char) : markBrackets cs = markedIn cs [] cs := by
  have paired : squares.Paired (braces.part cs 0 cs) ↔ squares.Paired cs :=
    Bracket.paired_congr (Bracket.skeleton_part cs 0 cs)
  unfold markBrackets markPairs markedIn
  rw [brackets_eq, List.foldl_cons, List.foldl_cons, List.foldl_nil, Bracket.markPair_eq_part,
    Bracket.markPair_eq_part, Bracket.part_congr paired]
  rfl

theorem markedIn_nil (whole front : List Char) : markedIn whole front [] = [] := by
  have brace : braces.Free [] := fun _ no => absurd no List.not_mem_nil
  have square : squares.Free [] := fun _ no => absurd no List.not_mem_nil
  unfold markedIn
  rw [brace.part, square.part]

/-- **The pieces of a text are marked one by one**, each in its place. -/
theorem markedIn_append (whole front cs more : List Char) :
    markedIn whole front (cs ++ more) =
      markedIn whole front cs ++ markedIn whole (front ++ cs) more := by
  have inner : squares.level (squares.level 0 front)
      (braces.part whole (braces.level 0 front) cs) = squares.level 0 (front ++ cs) := by
    rw [Bracket.level_congr (Bracket.skeleton_part ..), Bracket.level_append]
  unfold markedIn
  rw [Bracket.part_append, Bracket.part_append, inner, ← Bracket.level_append]

theorem markedIn_of_free {cs : List Char} (free : ∀ c ∈ cs, isBracket c = false)
    (whole front : List Char) : markedIn whole front cs = cs := by
  obtain ⟨brace, square⟩ := free_of_isBracket free
  unfold markedIn
  rw [brace.part, square.part]

/-- The place of a piece counts by the kinds that are marked and by how many are open. -/
theorem markedIn_congr {whole whole' front front' : List Char}
    (paired : ∀ b ∈ kinds, (b.Paired whole ↔ b.Paired whole'))
    (level : ∀ b ∈ kinds, b.level 0 front = b.level 0 front') (cs : List Char) :
    markedIn whole front cs = markedIn whole' front' cs := by
  obtain ⟨pairedBraces, pairedSquares⟩ := forall_kinds.1 paired
  obtain ⟨levelBraces, levelSquares⟩ := forall_kinds.1 level
  unfold markedIn
  rw [Bracket.part_congr pairedBraces, Bracket.part_congr pairedSquares, levelBraces, levelSquares]

/-- The mark in front of a character of a text. -/
def markBefore (whole front : List Char) (c : Char) : List Char :=
  braces.before whole (braces.level 0 front) c ++ squares.before whole (squares.level 0 front) c

/-- The mark behind a character of a text. -/
def markBehind (whole front : List Char) (c : Char) : List Char :=
  squares.behind whole (squares.level 0 front) c ++ braces.behind whole (braces.level 0 front) c

/-- A character with its marks. -/
theorem markedIn_singleton (whole front : List Char) (c : Char) :
    markedIn whole front [c] = markBefore whole front c ++ c :: markBehind whole front c := by
  have ahead : squares.Free (braces.before whole (braces.level 0 front) c) :=
    Bracket.free_of_isMark Bracket.isMark_before
  have after : squares.Free (braces.behind whole (braces.level 0 front) c) :=
    Bracket.free_of_isMark Bracket.isMark_behind
  unfold markedIn markBefore markBehind
  rw [Bracket.part_singleton, Bracket.part_append, ahead.part, ahead.level,
    ← List.singleton_append, Bracket.part_append, after.part, Bracket.part_singleton]
  simp

end Stencil
