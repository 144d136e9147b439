/-
# Enclosed texts

A text in which braces and square brackets are both balanced is `Enclosed`; the two kinds may cross.

* `unmarkPair_of_marked`: without its marks a marked text is what it was, for one pair of brackets;
* `unmarkBrackets_marked`: so it is for both, though the marks of one pair stand among those of the
  other;
* `marked_append`: enclosed texts are marked one by one;
* `marked_braced`, `marked_squared`: the first mark of depth one behind an opening bracket belongs
  to the closing bracket that matches it.
-/
import Stencil.Proofs.Brackets

namespace Stencil

open Stencil.Text Stencil.Depth

namespace Bracket

variable {b : Bracket}

/-! ## 1. Unmarking -/

theorem substitute_none {size? : List Char → Option Nat} {f : List Char → List Char} {c : Char}
    {cs : List Char} (none : size? (c :: cs) = none) :
    substitute size? f (c :: cs) = c :: substitute size? f cs := by
  rw [substitute, none]

theorem substitute_some {size? : List Char → Option Nat} {f : List Char → List Char} {c : Char}
    {piece cs : List Char} (found : size? (c :: (piece ++ cs)) = some (piece.length + 1)) :
    substitute size? f (c :: (piece ++ cs)) = f (c :: piece) ++ substitute size? f cs := by
  rw [substitute, found]
  simp

theorem substitute_append {size? : List Char → Option Nat} {f : List Char → List Char}
    {front : List Char} (cs : List Char) (none : ∀ c ∈ front, ∀ rest, size? (c :: rest) = none) :
    substitute size? f (front ++ cs) = front ++ substitute size? f cs := by
  induction front with
  | nil => rfl
  | cons c front ih =>
    obtain ⟨first, others⟩ := List.forall_mem_cons.1 none
    rw [List.cons_append, substitute_none (first _), ih others, List.cons_append]

theorem openMark?_of_ne {c : Char} (other : c ≠ b.opener) (cs : List Char) :
    openMark? [b.opener] (c :: cs) = none := by
  simp [openMark?, Ne.symm other]

/-- Digits and a percent sign behind an opener are its mark. -/
theorem openMark?_digits {ds : List Char} (digits : Digits ds) (rest : List Char) :
    openMark? [b.opener] (b.opener :: (ds ++ '%' :: rest)) = some (ds.length + 2) := by
  have run : (ds ++ '%' :: rest).takeWhile isDecimal = ds :=
    takeWhile_append_of_stops digits.2 (stops_cons.2 isDecimal_percent)
  have starts : [b.opener].isPrefixOf (b.opener :: (ds ++ '%' :: rest)) = true := by simp
  have behind : (ds ++ '%' :: rest).drop ds.length = '%' :: rest := List.drop_left
  unfold openMark?
  rw [if_pos starts]
  simp only [List.length_singleton, List.drop_succ_cons, List.drop_zero, run, Nat.add_comm 1,
    behind]
  simp [digits.1]

/-- A closer is not found at the end of fewer digits than are there. -/
theorem digitsBefore?_eq {closer : List Char} {cs : List Char} {bound : Nat}
    (found : closer.isPrefixOf (cs.drop (bound + 1)) = true) :
    digitsBefore? closer cs (bound + 1) = some (bound + 1) := by
  simp [digitsBefore?, found]

theorem digitsBefore?_eq_none {closer : List Char} {cs : List Char} {bound : Nat}
    (missing : ∀ n ≤ bound, closer.isPrefixOf (cs.drop n) = false) :
    digitsBefore? closer cs bound = none := by
  induction bound with
  | zero => rfl
  | succ bound ih =>
    have later : ∀ n ≤ bound, closer.isPrefixOf (cs.drop n) = false :=
      fun n le => missing n (by omega)
    simp [digitsBefore?, missing (bound + 1) (Nat.le_refl _), ih later]

theorem closeMark?_of_ne {c : Char} (other : c ≠ '%') (closer cs : List Char) :
    closeMark? closer (c :: cs) = none := by
  unfold closeMark?
  split
  · rename_i eq
    exact absurd (List.cons.inj eq).1 other
  · rfl

/-- A percent sign and digits in front of a closer are its mark. -/
theorem closeMark?_digits {ds : List Char} (digits : Digits ds) (rest : List Char) :
    closeMark? [b.closer] ('%' :: (ds ++ b.closer :: rest)) = some (ds.length + 2) := by
  obtain ⟨k, length⟩ := Nat.exists_eq_succ_of_ne_zero (mt List.length_eq_zero_iff.1 digits.1)
  have run : (ds ++ b.closer :: rest).takeWhile isDecimal = ds :=
    takeWhile_append_of_stops digits.2 (stops_closer rest)
  have found : [b.closer].isPrefixOf ((ds ++ b.closer :: rest).drop (k + 1)) = true := by
    rw [← Nat.succ_eq_add_one, ← length, List.drop_left]
    simp
  simp only [closeMark?, run, length, Nat.succ_eq_add_one, digitsBefore?_eq found, Option.map_some,
    List.length_singleton]
  congr 1
  omega

theorem Shut.head?_drop {cs : List Char} (shut : b.Shut cs) {n : Nat}
    (le : n ≤ (cs.takeWhile isDecimal).length) : (cs.drop n).head? ≠ some b.closer := by
  induction cs generalizing n with
  | nil => simp
  | cons c cs ih =>
    cases digit : isDecimal c with
    | false =>
      obtain rfl : n = 0 := by simpa [digit] using le
      simpa [Shut, digit] using shut
    | true =>
      cases n with
      | zero => simpa using ne_closer_of_isDecimal digit
      | succ n =>
        have shut' : b.Shut cs := by simpa [Shut, digit] using shut
        exact ih shut' (by simpa [digit] using le)

/-- Without a closer behind the digits a percent sign starts no mark. -/
theorem closeMark?_of_shut {cs : List Char} (shut : b.Shut cs) :
    closeMark? [b.closer] ('%' :: cs) = none := by
  have missing : ∀ n ≤ (cs.takeWhile isDecimal).length,
      [b.closer].isPrefixOf (cs.drop n) = false := by
    intro n le
    have other := shut.head?_drop le
    cases behind : cs.drop n with
    | nil => rfl
    | cons c rest =>
      have apart : c ≠ b.closer := by simpa [behind] using other
      rw [List.isPrefixOf_cons_cons, beq_eq_false_iff_ne.2 apart.symm, Bool.false_and]
  simp [closeMark?, digitsBefore?_eq_none missing]

/-- Without a dollar sign a replacement stands for itself. -/
theorem expand_of_not_mem {w : List Char} (noDollar : '$' ∉ w) (piece : List Char) :
    expand piece w = w := by
  induction w with
  | nil => rw [expand]
  | cons c w ih =>
    obtain ⟨first, later⟩ := List.ne_and_not_mem_of_not_mem_cons noDollar
    rw [expand, ih later]
    all_goals simp [first.symm]

theorem expand_of_ne {c : Char} (other : c ≠ '$') (piece : List Char) : expand piece [c] = [c] :=
  expand_of_not_mem (by simpa using other.symm) piece

/-- The marks of the openers can be taken out. -/
theorem Marked.unopened {low : Nat} {u t : List Char} (h : Marked b true low u t) :
    Marked b false low (substitute (openMark? [b.opener]) (expand · [b.opener]) u) t := by
  induction h with
  | nil =>
    rw [substitute]
    exact .nil
  | @opener n u t h ih =>
    have found : openMark? [b.opener] (b.opener :: (openText n ++ u)) =
        some ((openText n).length + 1) := by
      rw [openText_append, openMark?_digits (digits_decimalDigits n)]
      simp [openText]
    rw [if_pos rfl, substitute_some found, expand_of_ne b.opener_plain.2.2]
    exact .opener n ih
  | @closer n deep u t h ih =>
    rw [substitute_append _ fun c mem rest =>
        openMark?_of_ne (free_closeText n c mem).1 rest,
      substitute_none (openMark?_of_ne b.apart.symm _)]
    exact .closer deep ih
  | @other c noOpener noCloser u t h ih =>
    rw [substitute_none (openMark?_of_ne noOpener _)]
    exact .other noOpener noCloser ih

/-- Then the marks of the closers can be. -/
theorem Marked.unclosed {low : Nat} {u t : List Char} (h : Marked b false low u t) :
    substitute (closeMark? [b.closer]) (expand · [b.closer]) u = t := by
  induction h with
  | nil => rw [substitute]
  | @opener n u t h ih =>
    rw [substitute_none (closeMark?_of_ne b.opener_plain.2.1 _ _)]
    simp [ih]
  | @closer n deep u t h ih =>
    have piece : closeText n ++ b.closer :: u =
        '%' :: ((decimalDigits n ++ [b.closer]) ++ u) := by
      simp [closeText]
    have found : closeMark? [b.closer] ('%' :: ((decimalDigits n ++ [b.closer]) ++ u)) =
        some ((decimalDigits n ++ [b.closer]).length + 1) := by
      rw [List.append_assoc, List.singleton_append, closeMark?_digits (digits_decimalDigits n)]
      simp
    rw [piece, substitute_some found, expand_of_ne b.closer_plain.2.2, ih]
    rfl
  | @other c noOpener noCloser u t h ih =>
    have unmarked : closeMark? [b.closer] (c :: u) = none := by
      by_cases percent : c = '%'
      · rw [percent]
        refine closeMark?_of_shut ?_
        have shut := h.shut (by simp [Shut] : b.Shut [])
        rwa [List.append_nil] at shut
      · exact closeMark?_of_ne percent _ _
    rw [substitute_none unmarked, ih]

/-- **Without its marks a text with marks is what it was.** -/
theorem unmarkPair_of_marked {low : Nat} {u t : List Char} (h : Marked b true low u t) :
    unmarkPair u b.delimiters = t := by
  have proper : ([b.opener].isEmpty || [b.closer].isEmpty) = false := rfl
  unfold unmarkPair delimiters
  simp only [proper]
  exact h.unopened.unclosed

end Bracket

/-! ## 2. Braces and square brackets -/

theorem braces_squares : braces.Disjoint squares where

/-- A text in which both kinds of brackets are balanced. -/
structure Enclosed (cs : List Char) : Prop where
  curly : braces.Balanced cs
  square : squares.Balanced cs

/-- An enclosed text with all its marks. -/
def marked (cs : List Char) : List Char :=
  mark squares.delimiters 0 (mark braces.delimiters 0 cs)

/-- A bracket of either kind. -/
def isBracket (c : Char) : Bool := c == '{' || c == '}' || c == '[' || c == ']'

theorem ne_of_isBracket {c : Char} (h : isBracket c = false) :
    c ≠ '{' ∧ c ≠ '}' ∧ c ≠ '[' ∧ c ≠ ']' := by
  simpa [isBracket, and_assoc] using h

/-- A class without brackets. -/
theorem isBracket_of_class {p : Char → Bool} {c : Char} (inside : p c = true)
    (curly : p '{' = false ∧ p '}' = false) (square : p '[' = false ∧ p ']' = false) :
    isBracket c = false := by
  simp [isBracket, ne_of_class inside curly.1, ne_of_class inside curly.2,
    ne_of_class inside square.1, ne_of_class inside square.2]

theorem isBracket_of_isBlank {c : Char} (h : isBlank c = true) : isBracket c = false :=
  isBracket_of_class h (by decide) (by decide)

theorem free_of_isBracket {cs : List Char} (free : ∀ c ∈ cs, isBracket c = false) :
    braces.Free cs ∧ squares.Free cs := by
  constructor
  · intro c mem
    obtain ⟨opener, closer, -⟩ := ne_of_isBracket (free c mem)
    exact ⟨opener, closer⟩
  · intro c mem
    obtain ⟨-, -, opener, closer⟩ := ne_of_isBracket (free c mem)
    exact ⟨opener, closer⟩

/-- A text without brackets is enclosed. -/
theorem enclosed_of_free {cs : List Char} (free : ∀ c ∈ cs, isBracket c = false) : Enclosed cs :=
  ⟨(free_of_isBracket free).1.balanced, (free_of_isBracket free).2.balanced⟩

theorem enclosed_nil : Enclosed [] := enclosed_of_free fun _ no => absurd no List.not_mem_nil

theorem enclosed_singleton {c : Char} (h : isBracket c = false) : Enclosed [c] :=
  enclosed_of_free (List.forall_mem_singleton.2 h)

/-- Nothing is marked in it. -/
theorem marked_of_free {cs : List Char} (free : ∀ c ∈ cs, isBracket c = false) :
    marked cs = cs := by
  obtain ⟨noBrace, noSquare⟩ := free_of_isBracket free
  unfold marked
  rw [noBrace.mark, noSquare.mark]

theorem marked_nil : marked [] = [] := marked_of_free fun _ no => absurd no List.not_mem_nil

namespace Enclosed

variable {cs front behind : List Char}

/-- The marks of the braces. -/
theorem marked_braces (h : Enclosed cs) :
    Bracket.Marked braces true 0 (mark braces.delimiters 0 cs) cs :=
  Bracket.marked_mark h.curly 0

theorem append (h : Enclosed front) (h' : Enclosed behind) : Enclosed (front ++ behind) :=
  ⟨h.curly.append h'.curly, h.square.append h'.square⟩

/-- An enclosed text in braces. -/
theorem braced (h : Enclosed cs) : Enclosed ('{' :: (cs ++ ['}'])) := by
  have first : squares.Balanced ['{'] := rfl
  have last : squares.Balanced ['}'] := rfl
  exact ⟨h.curly.wrap, first.append (h.square.append last)⟩

/-- An enclosed text in square brackets. -/
theorem squared (h : Enclosed cs) : Enclosed ('[' :: (cs ++ [']'])) := by
  have first : braces.Balanced ['['] := rfl
  have last : braces.Balanced [']'] := rfl
  exact ⟨first.append (h.curly.append last), h.square.wrap⟩

theorem flatMap {α : Type} {f : α → List Char} {items : List α}
    (h : ∀ a ∈ items, Enclosed (f a)) : Enclosed (items.flatMap f) := by
  induction items with
  | nil => exact enclosed_nil
  | cons a items ih =>
    obtain ⟨first, others⟩ := List.forall_mem_cons.1 h
    rw [List.flatMap_cons]
    exact first.append (ih others)

theorem nesting_squares (h : Enclosed cs) (depth : Nat) :
    squares.nesting depth (mark braces.delimiters 0 cs) = some depth := by
  rw [h.marked_braces.nesting_other braces_squares, h.square.nesting]

theorem markBrackets_eq (h : Enclosed cs) : markBrackets cs = marked cs := by
  have second : squares.Balanced (mark braces.delimiters 0 cs) := h.nesting_squares 0
  unfold markBrackets markPairs
  rw [brackets_eq, List.foldl_cons, List.foldl_cons, List.foldl_nil, h.curly.markPair,
    second.markPair]
  rfl

theorem marked_append (h : Enclosed front) (behind : List Char) :
    marked (front ++ behind) = marked front ++ marked behind := by
  unfold marked
  rw [Bracket.mark_append (h.curly.nesting 0), Bracket.mark_append (h.nesting_squares 0)]

/-- **Without its marks an enclosed text is what it was.** -/
theorem unmarkBrackets_marked (h : Enclosed cs) : unmarkBrackets (marked cs) = cs := by
  have inner := h.marked_braces.mark_other braces_squares 0
  have outer := Bracket.marked_mark h.square 0
  unfold unmarkBrackets unmarkPairs
  rw [brackets_eq, List.foldl_cons, List.foldl_cons, List.foldl_nil, marked,
    Bracket.unmarkPair_of_marked inner]
  exact Bracket.unmarkPair_of_marked outer

theorem marked_ne_nil (h : Enclosed cs) (nonempty : cs ≠ []) : marked cs ≠ [] := by
  intro none
  have back := h.unmarkBrackets_marked
  rw [none, ← marked_nil, enclosed_nil.unmarkBrackets_marked] at back
  exact nonempty back.symm

theorem mem_of_mem_marked (h : Enclosed cs) {c : Char} (mem : c ∈ marked cs) :
    c ∈ cs ∨ c = '%' ∨ isDecimal c = true := by
  have second : squares.Balanced (mark braces.delimiters 0 cs) := h.nesting_squares 0
  rcases (Bracket.marked_mark second 0).mem mem with inside | mark
  · exact h.marked_braces.mem inside
  · exact Or.inr mark

/-- **The first mark of depth one behind an opening brace is that of its closing brace.** -/
theorem marked_braced (h : Enclosed cs) : ∃ u,
    marked ('{' :: (cs ++ ['}'])) = ['{', '1', '%'] ++ (u ++ ['%', '1', '}']) ∧
      ∀ rest, Bracket.Avoids ['%', '1', '}'] (['%', '1', '}'] ++ rest) u := by
  have first : squares.Free ['{', '1', '%'] := by simp [Bracket.Free, squares]
  have last : squares.Free ['%', '1', '}'] := by simp [Bracket.Free, squares]
  have inner : Bracket.Marked braces true 1 (mark braces.delimiters 1 cs) cs :=
    Bracket.marked_mark h.curly 1
  have nested : squares.nesting 0 (mark braces.delimiters 1 cs) = some 0 := by
    rw [inner.nesting_other braces_squares, h.square.nesting]
  refine ⟨mark squares.delimiters 0 (mark braces.delimiters 1 cs), ?_, fun rest => ?_⟩
  · have whole : mark braces.delimiters 0 ('{' :: (cs ++ ['}'])) =
        ['{', '1', '%'] ++ (mark braces.delimiters 1 cs ++ ['%', '1', '}']) :=
      Bracket.mark_wrap h.curly
    unfold marked
    rw [whole, Bracket.mark_append (first.nesting 0), Bracket.mark_append nested, first.mark,
      last.mark]
  · exact (inner.mark_other braces_squares 0).avoids (Nat.le_refl 1)
      (Bracket.shut_cons isDecimal_percent (by decide) _)

/-- The same holds of square brackets. -/
theorem marked_squared (h : Enclosed cs) : ∃ u,
    marked ('[' :: (cs ++ [']'])) = ['[', '1', '%'] ++ (u ++ ['%', '1', ']']) ∧
      ∀ rest, Bracket.Avoids ['%', '1', ']'] (['%', '1', ']'] ++ rest) u := by
  have first : braces.Free ['['] := by simp [Bracket.Free, braces]
  have last : braces.Free [']'] := by simp [Bracket.Free, braces]
  have inner : squares.Balanced (mark braces.delimiters 0 cs) := h.nesting_squares 0
  refine ⟨mark squares.delimiters 1 (mark braces.delimiters 0 cs), ?_, fun rest => ?_⟩
  · have whole : mark braces.delimiters 0 (['['] ++ (cs ++ [']'])) =
        '[' :: (mark braces.delimiters 0 cs ++ [']']) := by
      rw [Bracket.mark_append (first.nesting 0), Bracket.mark_append (h.curly.nesting 0),
        first.mark, last.mark]
      rfl
    unfold marked
    rw [← List.singleton_append, whole]
    exact Bracket.mark_wrap inner
  · exact (Bracket.marked_mark inner 1).avoids (Nat.le_refl 1)
      (Bracket.shut_cons isDecimal_percent (by decide) _)

end Enclosed

end Stencil
