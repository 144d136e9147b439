/-
# Bracket marks

What marking does to a text with one pair of brackets, and why it can be undone.

* `Bracket.level`: how deep a text leaves the brackets open.  A text is marked piece by piece, each
  from the level that those in front of it leave (`mark_append_level`).
* `Bracket.nesting`: the same for texts that close only what they have opened.  A text is `Balanced`
  when it closes all of that; such texts can be put together (`Balanced.append`, `Balanced.wrap`).
* `Bracket.Marked`: one text is another one with a mark at each bracket, whatever else it holds.
  Marking gives such a text (`marked_mark`), and does so still when another pair is marked in it
  (`Marked.mark_other`).
* `unmarkPair_of_marked`: without its marks a marked text is what it was.
* `Marked.avoids`: the mark of a closer is found nowhere but in front of a closer of that depth.

Percent signs and digits of the text itself cannot be taken for a mark: behind the digits that
follow a percent sign there is no closer, except in a mark (`Marked.shut`).
-/
import Stencil.Argument.Depth
import Stencil.Proofs.Numerals

namespace Stencil

open Stencil.Text Stencil.Depth

/-- Two characters that open and close a region, and of which no mark and no reference is made. -/
structure Bracket where
  opener : Char
  closer : Char
  apart : opener ≠ closer := by decide
  opener_plain : isDecimal opener = false ∧ opener ≠ '%' ∧ opener ≠ '$' := by decide
  closer_plain : isDecimal closer = false ∧ closer ≠ '%' ∧ closer ≠ '$' := by decide

/-- The pair of delimiters. -/
def Bracket.delimiters (b : Bracket) : Delimiters := ⟨[b.opener], [b.closer]⟩

/-- The brackets of objects. -/
def braces : Bracket := { opener := '{', closer := '}' }

/-- The brackets of lists. -/
def squares : Bracket := { opener := '[', closer := ']' }

theorem brackets_eq : Depth.brackets = [braces.delimiters, squares.delimiters] := rfl

namespace Bracket

variable {b : Bracket}

theorem ne_opener_of_isDecimal {c : Char} (h : isDecimal c = true) : c ≠ b.opener :=
  ne_of_class h b.opener_plain.1

theorem ne_closer_of_isDecimal {c : Char} (h : isDecimal c = true) : c ≠ b.closer :=
  ne_of_class h b.closer_plain.1

/-! ## 1. Marking, one character at a time -/

variable (b)

/-- The mark behind an opener. -/
def openText (n : Nat) : List Char := decimalDigits n ++ ['%']

/-- The mark in front of a closer. -/
def closeText (n : Nat) : List Char := '%' :: decimalDigits n

theorem openText_append (n : Nat) (cs : List Char) :
    openText n ++ cs = decimalDigits n ++ '%' :: cs := by
  rw [openText, List.append_assoc, List.singleton_append]

theorem closeText_append (n : Nat) (cs : List Char) :
    closeText n ++ cs = '%' :: (decimalDigits n ++ cs) := rfl

@[simp] theorem mark_nil (depth : Nat) : mark b.delimiters depth [] = [] := by
  rw [mark]

theorem mark_opener (depth : Nat) (cs : List Char) :
    mark b.delimiters depth (b.opener :: cs) =
      b.opener :: (openText (depth + 1) ++ mark b.delimiters (depth + 1) cs) := by
  rw [mark]
  simp [delimiters, openText]

theorem mark_closer (depth : Nat) (cs : List Char) :
    mark b.delimiters (depth + 1) (b.closer :: cs) =
      closeText (depth + 1) ++ b.closer :: mark b.delimiters depth cs := by
  rw [mark]
  simp [delimiters, closeText, b.apart]

theorem mark_stray (cs : List Char) :
    mark b.delimiters 0 (b.closer :: cs) = b.closer :: mark b.delimiters 0 cs := by
  rw [mark]
  simp [delimiters, b.apart]

theorem mark_other {c : Char} (noOpener : c ≠ b.opener) (noCloser : c ≠ b.closer) (depth : Nat)
    (cs : List Char) : mark b.delimiters depth (c :: cs) = c :: mark b.delimiters depth cs := by
  rw [mark]
  simp [delimiters, Ne.symm noOpener, Ne.symm noCloser]

/-! ## 2. How deep brackets nest -/

/-- How many brackets are open behind a text, when `depth` of them are in front of it.  A closer of
nothing changes nothing. -/
def level (depth : Nat) : List Char → Nat
  | [] => depth
  | c :: cs =>
    if c = b.opener then level (depth + 1) cs
    else if c = b.closer then level (depth - 1) cs
    else level depth cs

/-- How many brackets are open behind a text, when `depth` of them are in front of it; none if the
text closes one that is not open. -/
def nesting (depth : Nat) : List Char → Option Nat
  | [] => some depth
  | c :: cs =>
    if c = b.opener then nesting (depth + 1) cs
    else if c = b.closer then if depth = 0 then none else nesting (depth - 1) cs
    else nesting depth cs

/-- A text that closes only brackets it has opened, and all of them. -/
def Balanced (cs : List Char) : Prop := b.nesting 0 cs = some 0

instance (cs : List Char) : Decidable (b.Balanced cs) :=
  inferInstanceAs (Decidable (b.nesting 0 cs = some 0))

variable {b}

@[simp] theorem level_nil (depth : Nat) : b.level depth [] = depth := rfl

@[simp] theorem level_opener (depth : Nat) (cs : List Char) :
    b.level depth (b.opener :: cs) = b.level (depth + 1) cs := by
  simp [level]

@[simp] theorem level_closer (depth : Nat) (cs : List Char) :
    b.level depth (b.closer :: cs) = b.level (depth - 1) cs := by
  simp [level, b.apart.symm]

theorem level_other {c : Char} (noOpener : c ≠ b.opener) (noCloser : c ≠ b.closer) (depth : Nat)
    (cs : List Char) : b.level depth (c :: cs) = b.level depth cs := by
  simp [level, noOpener, noCloser]

theorem level_append (depth : Nat) (front behind : List Char) :
    b.level depth (front ++ behind) = b.level (b.level depth front) behind := by
  induction front generalizing depth with
  | nil => rfl
  | cons c front ih => simp only [List.cons_append, level, ih, apply_ite (b.level · behind)]

@[simp] theorem nesting_nil (depth : Nat) : b.nesting depth [] = some depth := rfl

@[simp] theorem nesting_opener (depth : Nat) (cs : List Char) :
    b.nesting depth (b.opener :: cs) = b.nesting (depth + 1) cs := by
  simp [nesting]

@[simp] theorem nesting_closer_zero (cs : List Char) : b.nesting 0 (b.closer :: cs) = none := by
  simp [nesting, b.apart.symm]

@[simp] theorem nesting_closer_succ (depth : Nat) (cs : List Char) :
    b.nesting (depth + 1) (b.closer :: cs) = b.nesting depth cs := by
  simp [nesting, b.apart.symm]

theorem nesting_other {c : Char} (noOpener : c ≠ b.opener) (noCloser : c ≠ b.closer) (depth : Nat)
    (cs : List Char) : b.nesting depth (c :: cs) = b.nesting depth cs := by
  simp [nesting, noOpener, noCloser]

/-- What a character is to a pair of brackets. -/
theorem char_cases (b : Bracket) (c : Char) :
    c = b.opener ∨ c = b.closer ∨ (c ≠ b.opener ∧ c ≠ b.closer) := by
  tauto

theorem nesting_append (depth : Nat) (front behind : List Char) :
    b.nesting depth (front ++ behind) = (b.nesting depth front).bind (b.nesting · behind) := by
  induction front generalizing depth with
  | nil => rfl
  | cons c front ih =>
    rcases b.char_cases c with rfl | rfl | ⟨noOpener, noCloser⟩
    · simp [ih]
    · cases depth with
      | zero => simp
      | succ depth => simp [ih]
    · simp [nesting_other noOpener noCloser, ih]

theorem level_of_nesting {depth open' : Nat} {cs : List Char}
    (h : b.nesting depth cs = some open') : b.level depth cs = open' := by
  induction cs generalizing depth with
  | nil => simpa using h
  | cons c cs ih =>
    rcases b.char_cases c with rfl | rfl | ⟨noOpener, noCloser⟩
    · rw [nesting_opener] at h
      rw [level_opener, ih h]
    · cases depth with
      | zero => simp at h
      | succ depth =>
        rw [nesting_closer_succ] at h
        rw [level_closer]
        exact ih h
    · rw [nesting_other noOpener noCloser] at h
      rw [level_other noOpener noCloser, ih h]

/-- Brackets that are open in front of a text stay open. -/
theorem nesting_add {depth open' : Nat} {cs : List Char} (h : b.nesting depth cs = some open')
    (more : Nat) : b.nesting (more + depth) cs = some (more + open') := by
  induction cs generalizing depth with
  | nil => simpa using h
  | cons c cs ih =>
    rcases b.char_cases c with rfl | rfl | ⟨noOpener, noCloser⟩
    · rw [nesting_opener] at h ⊢
      exact ih h
    · cases depth with
      | zero => simp at h
      | succ depth =>
        rw [nesting_closer_succ] at h
        rw [← Nat.add_assoc, nesting_closer_succ]
        exact ih h
    · rw [nesting_other noOpener noCloser] at h ⊢
      exact ih h

/-- As many brackets are closed as are opened, but for those that stay open. -/
theorem count_of_nesting {depth open' : Nat} {cs : List Char}
    (h : b.nesting depth cs = some open') :
    depth + cs.count b.opener = open' + cs.count b.closer := by
  induction cs generalizing depth with
  | nil => simpa using h
  | cons c cs ih =>
    rcases b.char_cases c with rfl | rfl | ⟨noOpener, noCloser⟩
    · rw [nesting_opener] at h
      have := ih h
      rw [List.count_cons_self, List.count_cons_of_ne b.apart]
      omega
    · cases depth with
      | zero => simp at h
      | succ depth =>
        rw [nesting_closer_succ] at h
        have := ih h
        rw [List.count_cons_self, List.count_cons_of_ne b.apart.symm]
        omega
    · rw [nesting_other noOpener noCloser] at h
      have := ih h
      rw [List.count_cons_of_ne noOpener, List.count_cons_of_ne noCloser]
      omega

/-- A text without brackets. -/
def Free (b : Bracket) (cs : List Char) : Prop := ∀ c ∈ cs, c ≠ b.opener ∧ c ≠ b.closer

theorem Free.nesting {cs : List Char} (h : b.Free cs) (depth : Nat) :
    b.nesting depth cs = some depth := by
  induction cs with
  | nil => rfl
  | cons c cs ih =>
    obtain ⟨⟨noOpener, noCloser⟩, h⟩ := List.forall_mem_cons.1 h
    rw [nesting_other noOpener noCloser, ih h]

theorem Free.balanced {cs : List Char} (h : b.Free cs) : b.Balanced cs := h.nesting 0

namespace Balanced

variable {cs front behind : List Char}

theorem nesting (h : b.Balanced cs) (depth : Nat) : b.nesting depth cs = some depth :=
  nesting_add h depth

theorem append (h : b.Balanced front) (h' : b.Balanced behind) : b.Balanced (front ++ behind) := by
  unfold Balanced
  rw [nesting_append, h.nesting, Option.bind_some, h'.nesting]

theorem wrap (h : b.Balanced cs) : b.Balanced (b.opener :: (cs ++ [b.closer])) := by
  unfold Balanced
  rw [nesting_opener, nesting_append, h.nesting, Option.bind_some, nesting_closer_succ, nesting_nil]

/-- A balanced text has openers where it has closers. -/
theorem mem_iff (h : b.Balanced cs) : b.opener ∈ cs ↔ b.closer ∈ cs := by
  rw [← List.count_pos_iff, ← List.count_pos_iff]
  have := count_of_nesting h
  omega

end Balanced

/-! ## 3. Marking texts one by one -/

/-- **A text is marked piece by piece.** -/
theorem mark_append_level (depth : Nat) (front behind : List Char) :
    mark b.delimiters depth (front ++ behind) =
      mark b.delimiters depth front ++ mark b.delimiters (b.level depth front) behind := by
  induction front generalizing depth with
  | nil => simp
  | cons c front ih =>
    rw [List.cons_append]
    rcases b.char_cases c with rfl | rfl | ⟨noOpener, noCloser⟩
    · rw [mark_opener, mark_opener, ih, level_opener, List.cons_append, List.append_assoc]
    · rw [level_closer]
      cases depth with
      | zero => rw [mark_stray, mark_stray, ih, List.cons_append]
      | succ depth => rw [mark_closer, mark_closer, ih, List.append_assoc, List.cons_append]; rfl
    · rw [mark_other b noOpener noCloser, mark_other b noOpener noCloser, ih,
        level_other noOpener noCloser, List.cons_append]

theorem mark_append {depth open' : Nat} {front : List Char}
    (h : b.nesting depth front = some open') (behind : List Char) :
    mark b.delimiters depth (front ++ behind) =
      mark b.delimiters depth front ++ mark b.delimiters open' behind := by
  rw [mark_append_level, level_of_nesting h]

/-- A balanced text in brackets.  The brackets get marks of depth one, and what is between them
nests one deeper. -/
theorem mark_wrap {cs : List Char} (h : b.Balanced cs) :
    mark b.delimiters 0 (b.opener :: (cs ++ [b.closer])) =
      b.opener :: (openText 1 ++ (mark b.delimiters 1 cs ++ (closeText 1 ++ [b.closer]))) := by
  rw [mark_opener, mark_append (h.nesting 1), mark_closer, mark_nil]

theorem Free.mark {cs : List Char} (h : b.Free cs) (depth : Nat) :
    mark b.delimiters depth cs = cs := by
  induction cs with
  | nil => exact mark_nil b depth
  | cons c cs ih =>
    obtain ⟨⟨noOpener, noCloser⟩, h⟩ := List.forall_mem_cons.1 h
    rw [mark_other b noOpener noCloser, ih h]

theorem occurs_singleton (c : Char) (cs : List Char) : occurs [c] cs = true ↔ c ∈ cs := by
  induction cs with
  | nil => simp [occurs]
  | cons d cs ih => simp [occurs, ih]

/-- Whether both brackets occur makes no difference to a balanced text. -/
theorem Balanced.markPair {cs : List Char} (h : b.Balanced cs) :
    markPair cs b.delimiters = mark b.delimiters 0 cs := by
  unfold Depth.markPair
  split
  · rfl
  · rename_i none
    have free : b.opener ∉ cs ∧ b.closer ∉ cs := by
      have : ¬(b.opener ∈ cs ∧ b.closer ∈ cs) := by
        simpa [applies, delimiters, occurs_singleton, ← Bool.not_eq_true] using none
      have := h.mem_iff
      tauto
    refine (Free.mark (fun c mem => ⟨?_, ?_⟩) 0).symm
    · rintro rfl
      exact free.1 mem
    · rintro rfl
      exact free.2 mem

/-! ## 4. Texts with marks -/

/-- The first text is the second one with a mark at each closer, of a depth beyond `low`, and with
one at each opener if `openers` is set. -/
inductive Marked (b : Bracket) (openers : Bool) (low : Nat) : List Char → List Char → Prop
  | nil : Marked b openers low [] []
  | opener (n : Nat) {u t : List Char} (h : Marked b openers low u t) :
      Marked b openers low (b.opener :: ((if openers then openText n else []) ++ u))
        (b.opener :: t)
  | closer {n : Nat} (deep : low < n) {u t : List Char} (h : Marked b openers low u t) :
      Marked b openers low (closeText n ++ b.closer :: u) (b.closer :: t)
  | other {c : Char} (noOpener : c ≠ b.opener) (noCloser : c ≠ b.closer) {u t : List Char}
      (h : Marked b openers low u t) : Marked b openers low (c :: u) (c :: t)

/-- Marking gives a text with marks, if no bracket is closed that is not open. -/
theorem marked_mark {depth open' : Nat} {cs : List Char} (h : b.nesting depth cs = some open')
    (low : Nat) : Marked b true low (mark b.delimiters (low + depth) cs) cs := by
  induction cs generalizing depth with
  | nil =>
    rw [mark_nil]
    exact .nil
  | cons c cs ih =>
    rcases b.char_cases c with rfl | rfl | ⟨noOpener, noCloser⟩
    · rw [nesting_opener] at h
      rw [mark_opener]
      exact .opener _ (ih h)
    · cases depth with
      | zero => simp at h
      | succ depth =>
        rw [nesting_closer_succ] at h
        rw [← Nat.add_assoc, mark_closer]
        exact .closer (by omega) (ih h)
    · rw [nesting_other noOpener noCloser] at h
      rw [mark_other b noOpener noCloser]
      exact .other noOpener noCloser (ih h)

theorem Marked.free_append {openers : Bool} {low : Nat} {cs u t : List Char} (free : b.Free cs)
    (h : Marked b openers low u t) : Marked b openers low (cs ++ u) (cs ++ t) := by
  induction cs with
  | nil => exact h
  | cons c cs ih =>
    obtain ⟨⟨noOpener, noCloser⟩, free⟩ := List.forall_mem_cons.1 free
    exact .other noOpener noCloser (ih free)

theorem free_digits (n : Nat) : b.Free (decimalDigits n) := fun _ mem =>
  ⟨ne_opener_of_isDecimal (isDecimal_of_mem_decimalDigits mem),
    ne_closer_of_isDecimal (isDecimal_of_mem_decimalDigits mem)⟩

theorem free_openText (n : Nat) : b.Free (openText n) := by
  intro c mem
  rcases List.mem_append.1 mem with mem | mem
  · exact free_digits n c mem
  · cases List.mem_singleton.1 mem
    exact ⟨b.opener_plain.2.1.symm, b.closer_plain.2.1.symm⟩

theorem free_openMark (openers : Bool) (n : Nat) :
    b.Free (if openers then openText n else []) := by
  split
  · exact free_openText n
  · exact fun c no => absurd no List.not_mem_nil

theorem free_closeText (n : Nat) : b.Free (closeText n) := by
  intro c mem
  rcases List.mem_cons.1 mem with rfl | mem
  · exact ⟨b.opener_plain.2.1.symm, b.closer_plain.2.1.symm⟩
  · exact free_digits n c mem

/-- Two pairs of brackets with no character in common. -/
structure Disjoint (b d : Bracket) : Prop where
  opener_opener : b.opener ≠ d.opener := by decide
  opener_closer : b.opener ≠ d.closer := by decide
  closer_opener : b.closer ≠ d.opener := by decide
  closer_closer : b.closer ≠ d.closer := by decide

/-- **The marks of one pair stay whole when another pair is marked.** -/
theorem Marked.mark_other {d : Bracket} (disjoint : b.Disjoint d) {openers : Bool} {low : Nat}
    {u t : List Char} (h : Marked b openers low u t) (depth : Nat) :
    Marked b openers low (mark d.delimiters depth u) (mark d.delimiters depth t) := by
  induction h generalizing depth with
  | nil =>
    rw [mark_nil]
    exact .nil
  | @opener n u t h ih =>
    have passed : d.Free (if openers then openText n else []) := free_openMark openers n
    rw [Bracket.mark_other d disjoint.opener_opener disjoint.opener_closer,
      Bracket.mark_other d disjoint.opener_opener disjoint.opener_closer,
      mark_append (passed.nesting depth), passed.mark]
    exact .opener n (ih depth)
  | @closer n deep u t h ih =>
    rw [mark_append ((free_closeText n).nesting depth), (free_closeText n).mark,
      Bracket.mark_other d disjoint.closer_opener disjoint.closer_closer,
      Bracket.mark_other d disjoint.closer_opener disjoint.closer_closer]
    exact .closer deep (ih depth)
  | @other c noOpener noCloser u t h ih =>
    rcases d.char_cases c with rfl | rfl | ⟨noOpener', noCloser'⟩
    · rw [mark_opener, mark_opener]
      exact .other noOpener noCloser ((ih _).free_append (free_openText _))
    · cases depth with
      | zero =>
        rw [mark_stray, mark_stray]
        exact .other noOpener noCloser (ih 0)
      | succ depth =>
        rw [mark_closer, mark_closer]
        exact .free_append (free_closeText _) (.other noOpener noCloser (ih depth))
    · rw [Bracket.mark_other d noOpener' noCloser', Bracket.mark_other d noOpener' noCloser']
      exact .other noOpener noCloser (ih depth)

/-- Marks change nothing about how deep other brackets nest. -/
theorem Marked.nesting_other {d : Bracket} (disjoint : b.Disjoint d) {openers : Bool} {low : Nat}
    {u t : List Char} (h : Marked b openers low u t) (depth : Nat) :
    d.nesting depth u = d.nesting depth t := by
  induction h generalizing depth with
  | nil => rfl
  | @opener n u t h ih =>
    have passed : d.Free (if openers then openText n else []) := free_openMark openers n
    rw [Bracket.nesting_other disjoint.opener_opener disjoint.opener_closer,
      Bracket.nesting_other disjoint.opener_opener disjoint.opener_closer, nesting_append,
      passed.nesting, Option.bind_some, ih]
  | @closer n deep u t h ih =>
    rw [nesting_append, (free_closeText n).nesting, Option.bind_some,
      Bracket.nesting_other disjoint.closer_opener disjoint.closer_closer,
      Bracket.nesting_other disjoint.closer_opener disjoint.closer_closer, ih]
  | @other c noOpener noCloser u t h ih =>
    simp only [nesting, ih]

/-- A mark is made of digits and a percent sign. -/
theorem Marked.mem {openers : Bool} {low : Nat} {u t : List Char} (h : Marked b openers low u t)
    {c : Char} (mem : c ∈ u) : c ∈ t ∨ c = '%' ∨ isDecimal c = true := by
  have of_digits : ∀ n, c ∈ decimalDigits n → isDecimal c = true :=
    fun n => isDecimal_of_mem_decimalDigits
  induction h with
  | nil => exact absurd mem List.not_mem_nil
  | @opener n u t h ih =>
    have inMark : c ∈ (if openers then openText n else []) → c = '%' ∨ isDecimal c = true := by
      split
      · simp only [openText, List.mem_append, List.mem_singleton]
        exact fun found => found.symm.imp_right (of_digits n)
      · exact fun no => absurd no List.not_mem_nil
    simp only [List.mem_cons, List.mem_append] at mem ⊢
    tauto
  | @closer n deep u t h ih =>
    simp only [closeText, List.mem_cons, List.mem_append] at mem ⊢
    have := of_digits n
    tauto
  | @other c' noOpener noCloser u t h ih =>
    simp only [List.mem_cons] at mem ⊢
    tauto

/-! ## 5. Closers stand behind their marks -/

/-- No closer directly behind the digits that a text starts with. -/
def Shut (b : Bracket) (cs : List Char) : Prop := (cs.dropWhile isDecimal).head? ≠ some b.closer

theorem shut_cons {c : Char} (noDigit : isDecimal c = false) (other : c ≠ b.closer)
    (cs : List Char) : b.Shut (c :: cs) := by
  simp [Shut, noDigit, other]

/-- In a text with marks the closers stand behind theirs, so digits that do not belong to a mark
have no closer behind them. -/
theorem Marked.shut {openers : Bool} {low : Nat} {u t : List Char} (h : Marked b openers low u t)
    {rest : List Char} (end' : b.Shut rest) : b.Shut (u ++ rest) := by
  induction h with
  | nil => exact end'
  | opener n h ih => exact shut_cons b.opener_plain.1 b.apart _
  | closer deep h ih => exact shut_cons isDecimal_percent b.closer_plain.2.1.symm _
  | @other c noOpener noCloser u t h ih =>
    cases digit : isDecimal c with
    | false => exact shut_cons digit noCloser _
    | true => simpa [Shut, digit] using ih

theorem stops_closer (cs : List Char) : Stops isDecimal (b.closer :: cs) :=
  stops_cons.2 b.closer_plain.1

/-- A needle is not found at any place of `u`, when `rest` follows. -/
def Avoids (needle rest u : List Char) : Prop :=
  ∀ v, v <:+ u → v ≠ [] → ¬ needle <+: v ++ rest

theorem avoids_nil (needle rest : List Char) : Avoids needle rest [] := by
  intro v suffix nonempty
  exact absurd (List.suffix_nil.1 suffix) nonempty

theorem Avoids.cons {needle rest u : List Char} {c : Char}
    (here : ¬ needle <+: c :: (u ++ rest)) (h : Avoids needle rest u) :
    Avoids needle rest (c :: u) := by
  intro v suffix nonempty
  rcases List.suffix_cons_iff.1 suffix with rfl | suffix
  · exact here
  · exact h v suffix nonempty

/-- The mark of a closer with the closer. -/
def closing (b : Bracket) (n : Nat) : List Char := closeText n ++ [b.closer]

theorem digits_of_closing_prefix {n : Nat} {cs : List Char}
    (found : b.closing n <+: '%' :: cs) : ∃ tail, cs = decimalDigits n ++ b.closer :: tail := by
  have eq : b.closing n = '%' :: (decimalDigits n ++ [b.closer]) := rfl
  rw [eq] at found
  obtain ⟨-, tail, whole⟩ := List.cons_prefix_cons.1 found
  exact ⟨tail, by rw [← whole, List.append_assoc, List.singleton_append]⟩

/-- It starts with a percent sign. -/
theorem Avoids.cons_of_ne {n : Nat} {rest u : List Char} {c : Char} (other : c ≠ '%')
    (h : Avoids (b.closing n) rest u) : Avoids (b.closing n) rest (c :: u) := by
  refine h.cons fun found => other ?_
  obtain ⟨same, -⟩ := List.cons_prefix_cons.1 found
  exact same.symm

theorem Avoids.append_of_ne {n : Nat} {rest u w : List Char} (other : ∀ c ∈ w, c ≠ '%')
    (h : Avoids (b.closing n) rest u) : Avoids (b.closing n) rest (w ++ u) := by
  induction w with
  | nil => exact h
  | cons c w ih =>
    obtain ⟨other, others⟩ := List.forall_mem_cons.1 other
    exact (ih others).cons_of_ne other

theorem Avoids.digits {n m : Nat} {rest u : List Char} (h : Avoids (b.closing n) rest u) :
    Avoids (b.closing n) rest (decimalDigits m ++ u) := by
  refine h.append_of_ne fun c mem => ?_
  exact ne_of_class (isDecimal_of_mem_decimalDigits mem) isDecimal_percent

/-- Behind a percent sign a closer must follow the digits. -/
theorem Avoids.percent {n : Nat} {rest u : List Char} (shut : b.Shut (u ++ rest))
    (h : Avoids (b.closing n) rest u) : Avoids (b.closing n) rest ('%' :: u) := by
  refine h.cons fun found => shut ?_
  obtain ⟨tail, whole⟩ := digits_of_closing_prefix found
  rw [whole, dropWhile_digits n (stops_closer tail)]
  rfl

/-- **A mark is not found before its closer.**  In a text whose marks are of a greater depth, the
mark of a closer is found nowhere. -/
theorem Marked.avoids {openers : Bool} {low n : Nat} (le : n ≤ low) {u t : List Char}
    (h : Marked b openers low u t) {rest : List Char} (end' : b.Shut rest) :
    Avoids (b.closing n) rest u := by
  induction h with
  | nil => exact avoids_nil _ _
  | @opener m u t h ih =>
    refine Avoids.cons_of_ne b.opener_plain.2.1 ?_
    split
    · unfold openText
      rw [List.append_assoc]
      exact (ih.percent (h.shut end')).digits
    · exact ih
  | @closer m deep u t h ih =>
    have behind : Avoids (b.closing n) rest (decimalDigits m ++ b.closer :: u) :=
      (ih.cons_of_ne b.closer_plain.2.1).digits
    rw [closeText_append]
    refine behind.cons fun found => ?_
    -- The digits behind the percent sign end at a closer in both, so they are the same.
    obtain ⟨tail, whole⟩ := digits_of_closing_prefix found
    rw [List.append_assoc, List.cons_append] at whole
    have same := congrArg (List.takeWhile isDecimal) whole
    rw [takeWhile_digits m (stops_closer _), takeWhile_digits n (stops_closer tail)] at same
    have := decimalDigits_injective same
    omega
  | @other c noOpener noCloser u t h ih =>
    by_cases percent : c = '%'
    · exact percent ▸ ih.percent (h.shut end')
    · exact ih.cons_of_ne percent

end Bracket

end Stencil
