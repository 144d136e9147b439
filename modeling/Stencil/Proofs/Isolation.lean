/-
# What a string in quotes does to the slots behind it

Brackets are marked over the whole argument list, in strings too.  So a string changes how the slots
behind it are marked, and with that what they are read as: an object behind an open brace is one of
depth two, and no region of its own.

* `Slot.behind`: the slots behind a string in quotes (`readList_tail`).
* `Alike`: two strings leave the same brackets open, and have closers of the same kinds.  Then what
  follows them is marked alike (`markedIn_of_alike`), else some list tells them apart
  (`level_le_of_behind`, `closer_mem_of_behind`).
* `readList_tail_iff`: both together.
-/
import Stencil.Proofs.Verbatim

namespace Stencil

open Stencil.Text Stencil.Depth

/-! ## 1. Strings that are alike -/

/-- Two texts that leave the same brackets open, and have closers of the same kinds. -/
def Alike (t u : List Char) : Prop :=
  ∀ b ∈ kinds, b.level 0 t = b.level 0 u ∧ (b.closer ∈ t ↔ b.closer ∈ u)

instance (t u : List Char) : Decidable (Alike t u) :=
  inferInstanceAs
    (Decidable (∀ b ∈ kinds, b.level 0 t = b.level 0 u ∧ (b.closer ∈ t ↔ b.closer ∈ u)))

namespace Bracket

variable {b : Bracket}

/-- Without an opener a text has marks only where brackets are open already. -/
theorem part_zero_of_not_mem {cs : List Char} (none : b.opener ∉ cs) (whole : List Char) :
    b.part whole 0 cs = cs := by
  unfold part
  split
  · exact mark_zero_of_not_mem none
  · rfl

/-- An opener may be in one of two texts and not in the other.  It does not matter, for it is needed
only by what follows, and that has one of its own or finds it open. -/
theorem part_of_alike {t u rest cs : List Char} (level : b.level 0 t = b.level 0 u)
    (closer : b.closer ∈ t ↔ b.closer ∈ u) (opener : b.opener ∈ cs → b.opener ∈ rest) :
    b.part (t ++ rest) (b.level 0 t) cs = b.part (u ++ rest) (b.level 0 u) cs := by
  rw [level]
  have closers : b.closer ∈ t ++ rest ↔ b.closer ∈ u ++ rest := by
    rw [List.mem_append, List.mem_append, closer]
  by_cases needed : b.opener ∈ rest
  · refine part_congr (and_congr (iff_of_true ?_ ?_) closers) _ cs
    · exact List.mem_append_right t needed
    · exact List.mem_append_right u needed
  · rcases Nat.eq_zero_or_pos (b.level 0 u) with zero | open'
    · have none : b.opener ∉ cs := fun mem => needed (opener mem)
      rw [zero, part_zero_of_not_mem none, part_zero_of_not_mem none]
    · refine part_congr (and_congr (iff_of_true ?_ ?_) closers) _ cs
      · exact List.mem_append_left rest (opener_mem_of_level (level ▸ open'))
      · exact List.mem_append_left rest (opener_mem_of_level open')

end Bracket

/-- **Behind texts that are alike everything is marked alike.** -/
theorem markedIn_of_alike {t u : List Char} (h : Alike t u) (rest : List Char) :
    markedIn (t ++ rest) t rest = markedIn (u ++ rest) u rest := by
  obtain ⟨⟨levelBraces, closerBraces⟩, ⟨levelSquares, closerSquares⟩⟩ := forall_kinds.1 h
  have brace : braces.part (t ++ rest) (braces.level 0 t) rest =
      braces.part (u ++ rest) (braces.level 0 u) rest :=
    Bracket.part_of_alike levelBraces closerBraces id
  have opener : squares.opener ∈ braces.part (u ++ rest) (braces.level 0 u) rest →
      squares.opener ∈ rest := by
    rw [← mem_skeleton squares.isMark_opener, Bracket.skeleton_part,
      mem_skeleton squares.isMark_opener]
    exact id
  unfold markedIn
  rw [brace]
  exact Bracket.part_of_alike levelSquares closerSquares opener

/-! ## 2. Texts with one kind of brackets -/

namespace Bracket

variable {b : Bracket}

/-- A text of marks and of brackets of one kind. -/
def Only (b : Bracket) (cs : List Char) : Prop :=
  ∀ c ∈ cs, c = b.opener ∨ c = b.closer ∨ isMark c = true

theorem Only.append {front rest : List Char} (h : b.Only front) (h' : b.Only rest) :
    b.Only (front ++ rest) := by
  intro c mem
  rcases List.mem_append.1 mem with mem | mem
  · exact h c mem
  · exact h' c mem

theorem only_of_isMark {cs : List Char} (marks : ∀ c ∈ cs, isMark c = true) : b.Only cs :=
  fun c mem => Or.inr (Or.inr (marks c mem))

theorem only_brackets : b.Only [b.closer, b.opener] := by
  intro c mem
  rcases List.mem_pair.1 mem with rfl | rfl
  · exact Or.inr (Or.inl rfl)
  · exact Or.inl rfl

theorem only_closers (n : Nat) : b.Only (List.replicate n b.closer) :=
  fun _ mem => Or.inr (Or.inl (List.eq_of_mem_replicate mem))

/-- A text that it is marked as is one too. -/
theorem Only.of_skeleton {cs u : List Char} (h : b.Only cs) (same : skeleton u = skeleton cs) :
    b.Only u := by
  intro c mem
  cases mark : isMark c with
  | true => exact Or.inr (Or.inr rfl)
  | false =>
    rw [← mem_skeleton mark, same, mem_skeleton mark] at mem
    rcases h c mem with opener | closer | mark'
    · exact Or.inl opener
    · exact Or.inr (Or.inl closer)
    · rw [mark] at mark'
      cases mark'

/-- It has no brackets of another kind. -/
theorem Only.free {d : Bracket} {cs : List Char} (h : b.Only cs) (disjoint : b.Disjoint d) :
    d.Free cs := by
  intro c mem
  rcases h c mem with rfl | rfl | mark
  · exact ⟨disjoint.opener_opener, disjoint.opener_closer⟩
  · exact ⟨disjoint.closer_opener, disjoint.closer_closer⟩
  · exact ⟨ne_of_class mark d.isMark_opener, ne_of_class mark d.isMark_closer⟩

theorem Free.unmarkPair {cs : List Char} (h : b.Free cs) : unmarkPair cs b.delimiters = cs := by
  have none : Marked b true 0 (cs ++ []) (cs ++ []) := Marked.nil.free_append h
  rw [List.append_nil] at none
  exact unmarkPair_of_marked none

theorem Marked.skeleton {openers : Bool} {low : Nat} {u t : List Char}
    (h : Marked b openers low u t) : skeleton u = skeleton t := by
  induction h with
  | nil => rfl
  | @opener n u t h ih =>
    have mark : ∀ c ∈ (if openers then openText n else []), isMark c = true := by
      split
      · exact isMark_openText n
      · exact fun c no => absurd no List.not_mem_nil
    refine skeleton_cons_congr ?_ _
    rw [skeleton_append, skeleton_eq_nil mark, List.nil_append, ih]
  | @closer n deep u t h ih =>
    rw [skeleton_append, skeleton_eq_nil (isMark_closeText n), List.nil_append]
    exact skeleton_cons_congr ih _
  | other noOpener noCloser h ih => exact skeleton_cons_congr ih _

theorem Marked.append {openers : Bool} {low : Nat} {u t u' t' : List Char}
    (h : Marked b openers low u t) (h' : Marked b openers low u' t') :
    Marked b openers low (u ++ u') (t ++ t') := by
  induction h with
  | nil => exact h'
  | opener n h ih =>
    rw [List.cons_append, List.append_assoc]
    exact .opener n ih
  | closer deep h ih =>
    rw [List.append_assoc]
    exact .closer deep ih
  | other noOpener noCloser h ih => exact .other noOpener noCloser ih

theorem nesting_closers (n depth : Nat) :
    b.nesting (n + depth) (List.replicate n b.closer) = some depth := by
  induction n with
  | zero => rw [Nat.zero_add, List.replicate_zero, nesting_nil]
  | succ n ih => rw [List.replicate_succ, Nat.succ_add, nesting_closer_succ, ih]

end Bracket

theorem squares_braces : squares.Disjoint braces where

section Only

variable {b : Bracket} (kind : b ∈ kinds)
include kind

theorem markedIn_of_only {cs : List Char} (only : b.Only cs) (whole front : List Char) :
    markedIn whole front cs = b.part whole (b.level 0 front) cs := by
  unfold markedIn
  rcases List.mem_pair.1 kind with rfl | rfl
  · have marked : braces.Only (braces.part whole (braces.level 0 front) cs) :=
      only.of_skeleton (Bracket.skeleton_part ..)
    rw [(marked.free braces_squares).part]
  · rw [(only.free squares_braces).part]

theorem unmarkBrackets_of_marked {low : Nat} {u t : List Char} (h : b.Marked true low u t)
    (only : b.Only t) : unmarkBrackets u = t := by
  have marked : b.Only u := only.of_skeleton h.skeleton
  rw [unmarkBrackets_eq]
  rcases List.mem_pair.1 kind with rfl | rfl
  · rw [Bracket.unmarkPair_of_marked h, (only.free braces_squares).unmarkPair]
  · rw [(marked.free squares_braces).unmarkPair, Bracket.unmarkPair_of_marked h]

end Only

/-! ## 3. The slots behind a string -/

namespace Slot

open Written (Quote)
open Stencil.Bracket

/-- The slots behind a string in quotes. -/
def behind (cs rest : List Char) : List Slot := readMarked (markedIn (cs ++ rest) cs rest)

/-- The slots that a list holds behind a string in quotes. -/
theorem readList_tail (q : Quote) {cs : List Char} (outside : q.mark ∉ cs) (rest : List Char) :
    (readList (q.mark :: (cs ++ q.mark :: ',' :: rest))).tail = behind cs rest := by
  have comma : ∀ c ∈ [','], isBracket c = false := List.forall_mem_singleton.2 (by decide)
  have free : ∀ b ∈ kinds, b.Free [','] := forall_kinds.2 (free_of_isBracket comma)
  have paired : ∀ b ∈ kinds, (b.Paired (cs ++ ([','] ++ rest)) ↔ b.Paired (cs ++ rest)) :=
    fun b kind => (free b kind).paired_append cs rest
  have level : ∀ b ∈ kinds, b.level 0 (cs ++ [',']) = b.level 0 cs := by
    intro b kind
    rw [Bracket.level_append, (free b kind).level]
  have next : markedIn (cs ++ ',' :: rest) cs (',' :: rest) =
      ',' :: markedIn (cs ++ rest) cs rest := by
    rw [← List.singleton_append, markedIn_append, markedIn_of_free comma,
      markedIn_congr paired level, List.singleton_append]
  have inside := mark_not_mem_markedIn q outside (cs ++ ',' :: rest) []
  rw [readList_quote, markBrackets_quoted, next,
    readMarked_quoted q inside (Or.inl rfl), List.tail_cons]
  rfl

section Probe

variable {b : Bracket} (kind : b ∈ kinds) {t u : List Char}

/-- A text in quotes. -/
def probe (cs : List Char) : List Char := Quote.single.mark :: (cs ++ [Quote.single.mark])

theorem mem_append_probe {c : Char} {cs : List Char} (mem : c ∈ cs) (t : List Char) :
    c ∈ t ++ probe cs :=
  List.mem_append_right _ (List.mem_cons_of_mem _ (List.mem_append_left _ mem))

include kind

/-- It is read as the text whose marks it has, be they marks or parts of the text. -/
theorem behind_probe {w v : List Char} (only : b.Only w) (only' : b.Only v)
    (h : b.Marked true 0 (b.part (t ++ probe w) (b.level 0 t) w) v) :
    behind t (probe w) = [some (.ofChars v)] := by
  have quote := free_mark .single b kind _ (List.mem_singleton_self _)
  have outside : Quote.single.mark ∉ w := by
    intro mem
    rcases only _ mem with opener | closer | mark
    · exact quote.1 opener
    · exact quote.2 closer
    · exact absurd mark (by decide)
  have inside := mark_not_mem_markedIn .single outside (t ++ probe w) t
  have ends : Follows [] [] := Or.inr ⟨rfl, rfl⟩
  have text : markedIn (t ++ probe w) t (probe w) =
      Quote.single.mark :: (markedIn (t ++ probe w) t w ++ [Quote.single.mark]) := by
    have := markedIn_quoted .single (t ++ probe w) t w []
    rwa [markedIn_nil] at this
  unfold behind
  rw [text, readMarked_quoted .single inside ends, readMarked_nil, markedIn_of_only kind only,
    unmarkBrackets_of_marked kind h only']

/-- Where all its closers close something it is read as it is. -/
theorem behind_probe_of_nesting {w : List Char} {depth : Nat} (only : b.Only w)
    (paired : b.Paired (t ++ probe w)) (nested : b.nesting (b.level 0 t) w = some depth) :
    behind t (probe w) = [some (.ofChars w)] := by
  have marked := Bracket.marked_mark nested 0
  rw [Nat.zero_add] at marked
  refine behind_probe kind only only ?_
  rwa [Bracket.part, if_pos paired]

/-- **A string that leaves more open is told apart.**  As many closers as the other one leaves open
close something behind both.  The next one does behind one of them only, and what looks like its
mark is taken for it behind the other. -/
theorem level_le_of_behind (same : ∀ rest, behind t rest = behind u rest) :
    b.level 0 u ≤ b.level 0 t := by
  by_contra deeper
  obtain ⟨k, open'⟩ : ∃ k, b.level 0 u = b.level 0 t + (k + 1) :=
    ⟨b.level 0 u - b.level 0 t - 1, by omega⟩
  obtain ⟨n, here⟩ : ∃ n, b.level 0 t = n := ⟨_, rfl⟩
  let closers := List.replicate n b.closer
  let w := closers ++ (closeText 1 ++ [b.closer, b.opener])
  have only : b.Only w :=
    (only_closers n).append ((only_of_isMark (isMark_closeText 1)).append only_brackets)
  have paired : ∀ t : List Char, b.Paired (t ++ probe w) :=
    fun t => ⟨mem_append_probe (by simp [w]) t, mem_append_probe (by simp [w]) t⟩
  have kept : behind u (probe w) = [some (.ofChars w)] := by
    have nested : b.nesting (b.level 0 u) w = some (k + 1) := by
      rw [open', here, nesting_append, nesting_closers, Option.bind_some, nesting_append,
        (free_closeText 1).nesting, Option.bind_some, nesting_closer_succ, nesting_opener,
        nesting_nil]
    exact behind_probe_of_nesting kind only (paired u) nested
  have lost : behind t (probe w) = [some (.ofChars (closers ++ [b.closer, b.opener]))] := by
    have nested : b.nesting n closers = some 0 := nesting_closers n 0
    have front := marked_mark nested 0
    rw [Nat.zero_add] at front
    have last : b.Marked true 0 (closeText 1 ++ b.closer :: b.opener :: (openText 1 ++ []))
        [b.closer, b.opener] := .closer Nat.one_pos (.opener 1 .nil)
    have text : b.part (t ++ probe w) n w = mark b.delimiters n closers ++
        (closeText 1 ++ b.closer :: b.opener :: (openText 1 ++ [])) := by
      rw [part, if_pos (paired t), mark_append nested, mark_append ((free_closeText 1).nesting 0),
        (free_closeText 1).mark, mark_stray, mark_opener, mark_nil]
    refine behind_probe kind only ((only_closers n).append only_brackets) ?_
    rw [here, text]
    exact front.append last
  have texts := singleton_ofChars_inj.1 (kept.symm.trans ((same _).symm.trans lost))
  have lengths := congrArg List.length texts
  simp [w, closeText] at lengths

/-- **A string with a closer is told apart.**  Without one an opener behind it has no mark, and what
looks like it is taken for it. -/
theorem closer_mem_of_behind (same : ∀ rest, behind t rest = behind u rest)
    (closer : b.closer ∈ t) : b.closer ∈ u := by
  by_contra none
  let w := b.opener :: openText 1
  have alone : b.Only [b.opener] := fun c mem => Or.inl (List.mem_singleton.1 mem)
  have only : b.Only w := alone.append (only_of_isMark (isMark_openText 1))
  have kept : behind t (probe w) = [some (.ofChars w)] := by
    have paired : b.Paired (t ++ probe w) :=
      ⟨mem_append_probe (List.mem_cons_self ..) t, List.mem_append_left _ closer⟩
    have nested : b.nesting (b.level 0 t) w = some (b.level 0 t + 1) := by
      rw [nesting_opener, (free_openText 1).nesting]
    exact behind_probe_of_nesting kind only paired nested
  have lost : behind u (probe w) = [some (.ofChars [b.opener])] := by
    have alone' : ¬ b.Paired (u ++ probe w) := by
      rintro ⟨-, mem⟩
      have inText : b.closer ∉ openText 1 := fun mem => (free_openText 1 _ mem).2 rfl
      have quote : b.closer ≠ Quote.single.mark := fun same =>
        (free_mark .single b kind _ (List.mem_singleton_self _)).2 same.symm
      simp [probe, w, none, inText, quote, b.apart.symm] at mem
    have marked : b.Marked true 0 (b.opener :: (openText 1 ++ [])) [b.opener] := .opener 1 .nil
    rw [List.append_nil] at marked
    refine behind_probe kind only alone ?_
    rwa [part, if_neg alone']
  have texts := singleton_ofChars_inj.1 (kept.symm.trans ((same _).trans lost))
  have lengths := congrArg List.length texts
  simp [w, openText] at lengths

end Probe

/-- **What follows a string in quotes is read alike just behind strings that are alike.** -/
theorem readList_tail_iff (q : Quote) {t u : List Char} (outside : q.mark ∉ t)
    (outside' : q.mark ∉ u) :
    (∀ rest, (readList (q.mark :: (t ++ q.mark :: ',' :: rest))).tail =
      (readList (q.mark :: (u ++ q.mark :: ',' :: rest))).tail) ↔ Alike t u := by
  simp only [readList_tail q outside, readList_tail q outside']
  constructor
  · intro same b kind
    have same' : ∀ rest, behind u rest = behind t rest := fun rest => (same rest).symm
    refine ⟨Nat.le_antisymm ?_ ?_, ?_, ?_⟩
    · exact level_le_of_behind kind same'
    · exact level_le_of_behind kind same
    · exact closer_mem_of_behind kind same
    · exact closer_mem_of_behind kind same'
  · intro alike rest
    unfold behind
    rw [markedIn_of_alike alike]

/-- Closers of nothing do as well as regions that are closed. -/
theorem readList_tail_closed :
    '\'' ∉ "[]\x7b\x7d".toList ∧ '\'' ∉ "\x7d,]".toList ∧
      Alike "[]\x7b\x7d".toList "\x7d,]".toList ∧
      ∀ rest, (readList ('\'' :: ("[]\x7b\x7d".toList ++ '\'' :: ',' :: rest))).tail =
        (readList ('\'' :: ("\x7d,]".toList ++ '\'' :: ',' :: rest))).tail := by
  have outside : Quote.single.mark ∉ "[]\x7b\x7d".toList := by decide +kernel
  have outside' : Quote.single.mark ∉ "\x7d,]".toList := by decide +kernel
  have alike : Alike "[]\x7b\x7d".toList "\x7d,]".toList := by decide +kernel
  exact ⟨outside, outside', alike, (readList_tail_iff .single outside outside').2 alike⟩

/-- An open brace is not kept apart.  The object behind it has the marks of an inner one and is read
as a text, though a later string closes the brace. -/
theorem readList_tail_brace :
    readList "'\x7b',\x7ba:1\x7d,'\x7d'".toList =
      [some (.string "\x7b"), some (.string "\x7ba:1\x7d"), some (.string "\x7d")] ∧
    readList "'x',\x7ba:1\x7d,'\x7d'".toList =
      [some (.string "x"), some (.object [("a", .ofInt 1)]), some (.string "\x7d")] ∧
    (readList "'\x7b',\x7ba:1\x7d,'\x7d'".toList).tail ≠
      (readList "'x',\x7ba:1\x7d,'\x7d'".toList).tail := by
  have deep : readList "'\x7b',\x7ba:1\x7d,'\x7d'".toList =
      [some (.string "\x7b"), some (.string "\x7ba:1\x7d"), some (.string "\x7d")] := by
    with_unfolding_all rfl
  have shallow : readList "'x',\x7ba:1\x7d,'\x7d'".toList =
      [some (.string "x"), some (.object [("a", .ofInt 1)]), some (.string "\x7d")] := by
    with_unfolding_all rfl
  refine ⟨deep, shallow, ?_⟩
  rw [deep, shallow]
  simp

end Slot

end Stencil
