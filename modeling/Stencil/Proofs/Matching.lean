/-
# Where a region ends

A region is looked for by its marks: behind an opener of depth `d` stands `d%`, and the region ends
at the first `%d` and closer behind it.  This is the closer that matches the opener, whatever the
text holds, percent signs, digits and other brackets included.

* `Bracket.nesting_eq_none_iff`: what stands behind an opener has a balanced beginning and then a
  closer, or it closes no more than it opens.  In the first case that closer matches the opener, in
  the second none does.
* `markedBy`: a piece of a text as several kinds of brackets are marked in it, one after another.
* `avoids_markedBy`: a piece that closes no more than it opens has only marks of greater depths, so
  the mark of the closer behind it is not found in it.
* `regions_end`: the first mark of an opener's depth behind it is that of the matching closer, and
  there is none if no closer matches.
-/
import Stencil.Proofs.Strays

namespace Stencil

open Stencil.Text Stencil.Depth

/-! ## 1. Matching brackets -/

namespace Bracket

variable {b : Bracket}

/-- How deep brackets nest, and whether more are closed than are open, can be seen from the
skeleton. -/
theorem nesting_skeleton (depth : Nat) (cs : List Char) :
    b.nesting depth (skeleton cs) = b.nesting depth cs := by
  induction cs generalizing depth with
  | nil => rfl
  | cons c cs ih =>
    cases mark : isMark c with
    | true =>
      have noOpener : c ≠ b.opener := ne_of_class mark b.isMark_opener
      have noCloser : c ≠ b.closer := ne_of_class mark b.isMark_closer
      rw [skeleton_cons_of_isMark mark, ih, nesting_other noOpener noCloser]
    | false =>
      have kept : skeleton (c :: cs) = c :: skeleton cs := by simp [skeleton, mark]
      rw [kept]
      simp only [nesting, ih]

theorem nesting_congr {u t : List Char} (h : skeleton u = skeleton t) (depth : Nat) :
    b.nesting depth u = b.nesting depth t := by
  rw [← nesting_skeleton, h, nesting_skeleton]

/-- **A text closes more than is open exactly if it has a closer behind a part that closes all.**
With nothing open in front, that part is balanced. -/
theorem nesting_eq_none_iff {depth : Nat} {cs : List Char} : b.nesting depth cs = none ↔
    ∃ inside rest, b.nesting depth inside = some 0 ∧ cs = inside ++ b.closer :: rest := by
  constructor
  · intro h
    induction cs generalizing depth with
    | nil => cases h
    | cons c cs ih =>
      rcases b.char_cases c with rfl | rfl | ⟨noOpener, noCloser⟩
      · rw [nesting_opener] at h
        obtain ⟨inside, rest, closed, rfl⟩ := ih h
        exact ⟨b.opener :: inside, rest, by rwa [nesting_opener], rfl⟩
      · cases depth with
        | zero => exact ⟨[], cs, rfl, rfl⟩
        | succ depth =>
          rw [nesting_closer_succ] at h
          obtain ⟨inside, rest, closed, rfl⟩ := ih h
          exact ⟨b.closer :: inside, rest, by rwa [nesting_closer_succ], rfl⟩
      · rw [nesting_other noOpener noCloser] at h
        obtain ⟨inside, rest, closed, rfl⟩ := ih h
        exact ⟨c :: inside, rest, by rwa [nesting_other noOpener noCloser], rfl⟩
  · rintro ⟨inside, rest, closed, rfl⟩
    rw [nesting_append, closed, Option.bind_some, nesting_closer_zero]

theorem free_opener {d : Bracket} (disjoint : b.Disjoint d) : d.Free [b.opener] :=
  List.forall_mem_singleton.2 ⟨disjoint.opener_opener, disjoint.opener_closer⟩

theorem free_closer {d : Bracket} (disjoint : b.Disjoint d) : d.Free [b.closer] :=
  List.forall_mem_singleton.2 ⟨disjoint.closer_opener, disjoint.closer_closer⟩

theorem Free.append {front behind : List Char} (h : b.Free front) (h' : b.Free behind) :
    b.Free (front ++ behind) :=
  fun c mem => (List.mem_append.1 mem).elim (h c) (h' c)

theorem Disjoint.symm {d : Bracket} (h : b.Disjoint d) : d.Disjoint b where
  opener_opener := h.opener_opener.symm
  opener_closer := h.closer_opener.symm
  closer_opener := h.opener_closer.symm
  closer_closer := h.closer_closer.symm

end Bracket

/-! ## 2. Several kinds of brackets -/

/-- Kinds of brackets, no two of which share a character. -/
def Unmixed (ks : List Bracket) : Prop := ks.Pairwise Bracket.Disjoint

/-- A piece of a text as several kinds of brackets are marked in the whole, one kind after another;
`front` is what stands in front of the piece. -/
def markedBy (ks : List Bracket) (whole front cs : List Char) : List Char :=
  ks.foldl (fun cs b => b.part whole (b.level 0 front) cs) cs

theorem markedBy_cons (b : Bracket) (ks : List Bracket) (whole front cs : List Char) :
    markedBy (b :: ks) whole front cs =
      markedBy ks whole front (b.part whole (b.level 0 front) cs) := rfl

theorem markedBy_kinds_append (ks ks' : List Bracket) (whole front cs : List Char) :
    markedBy (ks ++ ks') whole front cs =
      markedBy ks' whole front (markedBy ks whole front cs) := List.foldl_append

theorem skeleton_markedBy (ks : List Bracket) (whole front cs : List Char) :
    skeleton (markedBy ks whole front cs) = skeleton cs := by
  induction ks generalizing cs with
  | nil => rfl
  | cons b ks ih => rw [markedBy_cons, ih, Bracket.skeleton_part]

/-- Marking the pairs one after another marks each of them as it is marked in the whole. -/
theorem markPairs_eq_markedBy (ks : List Bracket) {whole cs : List Char}
    (same : skeleton cs = skeleton whole) :
    markPairs (ks.map Bracket.delimiters) cs = markedBy ks whole [] cs := by
  induction ks generalizing cs with
  | nil => rfl
  | cons b ks ih =>
    have first : markPair cs b.delimiters = b.part whole (b.level 0 []) cs := by
      rw [Bracket.markPair_eq_part, Bracket.part_congr (Bracket.paired_congr same)]
      rfl
    have same' : skeleton (b.part whole (b.level 0 []) cs) = skeleton whole := by
      rw [Bracket.skeleton_part, same]
    rw [markedBy_cons, ← ih same', ← first]
    rfl

theorem markedBy_congr {front front' : List Char} (same : skeleton front = skeleton front')
    (ks : List Bracket) (whole cs : List Char) :
    markedBy ks whole front cs = markedBy ks whole front' cs := by
  unfold markedBy
  simp only [Bracket.level_congr same]

/-- **The pieces of a text are marked one by one**, each in its place. -/
theorem markedBy_append (ks : List Bracket) (whole front cs more : List Char) :
    markedBy ks whole front (cs ++ more) =
      markedBy ks whole front cs ++ markedBy ks whole (front ++ cs) more := by
  induction ks generalizing cs more with
  | nil => rfl
  | cons b ks ih =>
    have same : skeleton (front ++ b.part whole (b.level 0 front) cs) = skeleton (front ++ cs) := by
      rw [skeleton_append, Bracket.skeleton_part, skeleton_append]
    rw [markedBy_cons, Bracket.part_append, ih, markedBy_congr same, ← Bracket.level_append]
    rfl

/-- Kinds of which a piece has no bracket leave it alone. -/
theorem markedBy_of_free {ks : List Bracket} {cs : List Char} (free : ∀ d ∈ ks, d.Free cs)
    (whole front : List Char) : markedBy ks whole front cs = cs := by
  induction ks with
  | nil => rfl
  | cons d ks ih =>
    obtain ⟨first, others⟩ := List.forall_mem_cons.1 free
    rw [markedBy_cons, first.part, ih others]

namespace Unmixed

variable {ks : List Bracket} {b : Bracket}

/-- A kind among the others, which come before it or behind it. -/
theorem split (unmixed : Unmixed ks) (mem : b ∈ ks) :
    ∃ before behind, ks = before ++ b :: behind ∧
      (∀ d ∈ before, b.Disjoint d) ∧ ∀ d ∈ behind, b.Disjoint d := by
  obtain ⟨before, behind, rfl⟩ := List.append_of_mem mem
  obtain ⟨-, later, across⟩ := List.pairwise_append.1 unmixed
  refine ⟨before, behind, rfl, fun d part => ?_, fun d part => ?_⟩
  · exact (across d part b (List.mem_cons_self ..)).symm
  · exact (List.pairwise_cons.1 later).1 d part

/-- An opener with its mark. -/
theorem markedBy_opener (unmixed : Unmixed ks) (mem : b ∈ ks) {whole : List Char}
    (paired : b.Paired whole) (front : List Char) :
    markedBy ks whole front [b.opener] = b.opener :: Bracket.openText (b.level 0 front + 1) := by
  obtain ⟨before, behind, rfl, early, late⟩ := unmixed.split mem
  have alone : ∀ d ∈ before, d.Free [b.opener] := fun d part => Bracket.free_opener (early d part)
  have marked : ∀ d ∈ behind, d.Free (b.opener :: Bracket.openText (b.level 0 front + 1)) :=
    fun d part => (Bracket.free_opener (late d part)).append (Bracket.free_openText _)
  have own : b.part whole (b.level 0 front) [b.opener] =
      b.opener :: Bracket.openText (b.level 0 front + 1) := by
    simp [Bracket.part, paired, Bracket.mark_opener]
  rw [markedBy_kinds_append, markedBy_of_free alone, markedBy_cons, own, markedBy_of_free marked]

/-- A closer of something with its mark. -/
theorem markedBy_closer (unmixed : Unmixed ks) (mem : b ∈ ks) {whole : List Char}
    (paired : b.Paired whole) {front : List Char} {depth : Nat}
    (level : b.level 0 front = depth + 1) :
    markedBy ks whole front [b.closer] = b.closing (depth + 1) := by
  obtain ⟨before, behind, rfl, early, late⟩ := unmixed.split mem
  have alone : ∀ d ∈ before, d.Free [b.closer] := fun d part => Bracket.free_closer (early d part)
  have marked : ∀ d ∈ behind, d.Free (b.closing (depth + 1)) :=
    fun d part => (Bracket.free_closeText _).append (Bracket.free_closer (late d part))
  have own : b.part whole (b.level 0 front) [b.closer] = b.closing (depth + 1) := by
    simp [Bracket.part, paired, level, Bracket.mark_closer, Bracket.closing]
  rw [markedBy_kinds_append, markedBy_of_free alone, markedBy_cons, own, markedBy_of_free marked]

end Unmixed

/-! ## 3. Marks of greater depths -/

namespace Bracket

variable {b : Bracket}

/-- The marks of one kind stay whole when others are marked. -/
theorem Marked.markedBy {ks : List Bracket} (apart : ∀ d ∈ ks, b.Disjoint d) {openers : Bool}
    {low : Nat} {u t : List Char} (h : Marked b openers low u t) (whole front : List Char) :
    ∃ t', Marked b openers low (markedBy ks whole front u) t' := by
  induction ks generalizing u t with
  | nil => exact ⟨t, h⟩
  | cons d ks ih =>
    obtain ⟨first, others⟩ := List.forall_mem_cons.1 apart
    rw [markedBy_cons]
    unfold part
    split
    · exact ih others (h.mark_other first _)
    · exact ih others h

/-- **A piece that closes no more than it opens has only marks of greater depths** than the number
of brackets that are open in front of it. -/
theorem marked_markedBy {ks : List Bracket} (unmixed : Unmixed ks) (mem : b ∈ ks)
    {whole : List Char} (paired : b.Paired whole) (front : List Char) {cs : List Char} {open' : Nat}
    (nested : b.nesting 0 cs = some open') :
    ∃ t, Marked b true (b.level 0 front) (Stencil.markedBy ks whole front cs) t := by
  obtain ⟨before, behind, rfl, -, late⟩ := unmixed.split mem
  have nested' : b.nesting 0 (Stencil.markedBy before whole front cs) = some open' := by
    rw [nesting_congr (skeleton_markedBy ..), nested]
  rw [markedBy_kinds_append, markedBy_cons, part, if_pos paired]
  exact (marked_mark nested' (b.level 0 front)).markedBy late whole front

/-- A needle that is not found at any place does not occur. -/
theorem Avoids.not_infix {needle u : List Char} (h : Avoids needle [] u) (nonempty : needle ≠ []) :
    ¬ needle <:+: u := by
  rintro ⟨front, behind, rfl⟩
  refine h (needle ++ behind) ⟨front, by rw [List.append_assoc]⟩ (by simp [nonempty]) ?_
  rw [List.append_nil]
  exact List.prefix_append needle behind

end Bracket

/-- **A piece that closes no more than it opens does not hold the mark of the closer behind it**,
nor does the mark of the opener in front of it. -/
theorem avoids_markedBy {ks : List Bracket} (unmixed : Unmixed ks) {b : Bracket} (mem : b ∈ ks)
    {whole : List Char} (paired : b.Paired whole) (front : List Char) {cs : List Char} {open' : Nat}
    (nested : b.nesting 0 cs = some open') {rest : List Char} (shut : b.Shut rest) :
    Bracket.Avoids (b.closing (b.level 0 front)) rest
      (Bracket.openText (b.level 0 front) ++ markedBy ks whole front cs) := by
  obtain ⟨t, marked⟩ := Bracket.marked_markedBy unmixed mem paired front nested
  rw [Bracket.openText_append]
  exact ((marked.avoids (Nat.le_refl _) shut).percent (marked.shut shut)).digits

/-! ## 4. The ends of regions -/

/-- The needle is found in a text behind `u`, and at no place before. -/
def FirstBehind (needle u text : List Char) : Prop :=
  ∃ more, text = u ++ (needle ++ more) ∧ Bracket.Avoids needle (needle ++ more) u

/-- The depth of an opener: one more than the number of brackets that are open in front of it. -/
def Bracket.depth (b : Bracket) (front : List Char) : Nat := b.level 0 front + 1

/-- What stands behind an opener in a text with its marks: the mark of the opener, and then a piece
`cs` of the text, which follows the opener. -/
def behindOpener (ks : List Bracket) (b : Bracket) (whole front cs : List Char) : List Char :=
  Bracket.openText (b.depth front) ++ markedBy ks whole (front ++ [b.opener]) cs

theorem Bracket.level_append_opener (b : Bracket) (front : List Char) :
    b.level 0 (front ++ [b.opener]) = b.depth front := by
  rw [level_append, level_opener, level_nil, depth]

variable {ks : List Bracket} {b : Bracket} {whole : List Char}

/-- An opener in a text with its marks. -/
theorem markedBy_behindOpener (unmixed : Unmixed ks) (mem : b ∈ ks) (paired : b.Paired whole)
    (front behind : List Char) : markedBy ks whole front (b.opener :: behind) =
      b.opener :: behindOpener ks b whole front behind := by
  rw [← List.singleton_append, markedBy_append, unmixed.markedBy_opener mem paired]
  rfl

/-- A closer in a text with its marks, behind what it matches. -/
theorem behindOpener_closer (unmixed : Unmixed ks) (mem : b ∈ ks) (paired : b.Paired whole)
    (front : List Char) {inside : List Char} (balanced : b.Balanced inside) (rest : List Char) :
    ∃ more, behindOpener ks b whole front (inside ++ b.closer :: rest) =
      behindOpener ks b whole front inside ++ (b.closing (b.depth front) ++ more) := by
  have level : b.level 0 (front ++ [b.opener] ++ inside) = b.depth front := by
    rw [Bracket.level_append, b.level_append_opener, Bracket.level_of_nesting (balanced.nesting _)]
  have closer : markedBy ks whole (front ++ [b.opener] ++ inside) [b.closer] =
      b.closing (b.depth front) := unmixed.markedBy_closer mem paired level
  have pieces : inside ++ b.closer :: rest = inside ++ ([b.closer] ++ rest) := rfl
  refine ⟨markedBy ks whole (front ++ [b.opener] ++ inside ++ [b.closer]) rest, ?_⟩
  unfold behindOpener
  rw [pieces, markedBy_append, markedBy_append, closer, ← List.append_assoc]

/-- **The first mark of an opener's depth behind it is that of the closer that matches it.**  In the
text with its marks an opener is followed by its depth.  If a closer matches the opener, what is
between them being balanced, the mark of that depth with a closer is first found at this closer;
if none does, it is not found behind the opener at all. -/
theorem regions_end (unmixed : Unmixed ks) (mem : b ∈ ks) {front behind : List Char}
    (whole_eq : whole = front ++ b.opener :: behind) (paired : b.Paired whole) :
    markPairs (ks.map Bracket.delimiters) whole =
        markedBy ks whole [] front ++ b.opener :: behindOpener ks b whole front behind ∧
      (∀ inside rest, b.Balanced inside → behind = inside ++ b.closer :: rest →
        FirstBehind (b.closing (b.depth front)) (behindOpener ks b whole front inside)
          (behindOpener ks b whole front behind)) ∧
      ((∀ inside rest, b.Balanced inside → behind ≠ inside ++ b.closer :: rest) →
        ¬ b.closing (b.depth front) <:+: behindOpener ks b whole front behind) := by
  have avoids {cs rest : List Char} {open' : Nat} (nested : b.nesting 0 cs = some open')
      (shut : b.Shut rest) :
      Bracket.Avoids (b.closing (b.depth front)) rest (behindOpener ks b whole front cs) := by
    have := avoids_markedBy unmixed mem paired (front ++ [b.opener]) nested shut
    rwa [b.level_append_opener] at this
  refine ⟨?_, fun inside rest balanced matched => ?_, fun unmatched => ?_⟩
  · rw [markPairs_eq_markedBy ks rfl]
    conv_lhs => rw [whole_eq]
    rw [markedBy_append, List.nil_append, ← whole_eq, markedBy_behindOpener unmixed mem paired]
  · obtain ⟨more, found⟩ := behindOpener_closer unmixed mem paired front balanced rest
    rw [matched]
    exact ⟨more, found, avoids balanced
      (Bracket.shut_cons isDecimal_percent b.closer_plain.2.1.symm _)⟩
  · cases nested : b.nesting 0 behind with
    | none =>
      obtain ⟨inside, rest, balanced, matched⟩ := Bracket.nesting_eq_none_iff.1 nested
      exact absurd matched (unmatched inside rest balanced)
    | some open' =>
      have none := avoids nested (by simp [Bracket.Shut] : b.Shut [])
      exact none.not_infix (by simp [Bracket.closing])

theorem unmixed_kinds : Unmixed kinds :=
  List.pairwise_cons.2 ⟨List.forall_mem_singleton.2 braces_squares, List.pairwise_singleton ..⟩

/-- Brackets that cross, with percent signs and digits among them.  The last brace is not closed. -/
def crossing : List Char := "a\x7b%1\x7b[\x7d%2]\x7d]\x7b".toList

/-- Its braces with their marks.  The region of the first one ends at the closer that matches it. -/
theorem regions_end_crossing :
    (Unmixed kinds ∧ braces ∈ kinds ∧ braces.Paired crossing) ∧
      markBrackets crossing = "a\x7b1%%1\x7b2%[1%%2\x7d%2%1]%1\x7d]\x7b1%".toList ∧
      FirstBehind "%1\x7d".toList "1%%1\x7b2%[1%%2\x7d%2%1]".toList
        "1%%1\x7b2%[1%%2\x7d%2%1]%1\x7d]\x7b1%".toList ∧
      ¬ "%1\x7d".toList <:+: "1%".toList := by
  have mem : braces ∈ kinds := List.mem_cons_self ..
  have paired : braces.Paired crossing := by decide +kernel
  have first : crossing = "a".toList ++ braces.opener :: "%1\x7b[\x7d%2]\x7d]\x7b".toList := by
    decide +kernel
  have last : crossing = "a\x7b%1\x7b[\x7d%2]\x7d]".toList ++ braces.opener :: [] := by
    decide +kernel
  obtain ⟨marked, closed, -⟩ := regions_end unmixed_kinds mem first paired
  obtain ⟨-, -, unclosed⟩ := regions_end unmixed_kinds mem last paired
  have region := closed "%1\x7b[\x7d%2]".toList "]\x7b".toList
    (by decide +kernel) (by decide +kernel)
  have none := unclosed fun inside rest _ => (List.append_ne_nil_of_right_ne_nil _ (by simp)).symm
  have texts : braces.closing (braces.depth "a".toList) = "%1\x7d".toList ∧
      behindOpener kinds braces crossing "a".toList "%1\x7b[\x7d%2]".toList =
        "1%%1\x7b2%[1%%2\x7d%2%1]".toList ∧
      behindOpener kinds braces crossing "a".toList "%1\x7b[\x7d%2]\x7d]\x7b".toList =
        "1%%1\x7b2%[1%%2\x7d%2%1]%1\x7d]\x7b1%".toList := by decide +kernel
  have texts' : braces.closing (braces.depth "a\x7b%1\x7b[\x7d%2]\x7d]".toList) = "%1\x7d".toList ∧
      behindOpener kinds braces crossing "a\x7b%1\x7b[\x7d%2]\x7d]".toList [] = "1%".toList := by
    decide +kernel
  rw [texts.1, texts.2.1, texts.2.2] at region
  rw [texts'.1, texts'.2] at none
  exact ⟨⟨unmixed_kinds, mem, paired⟩, marked.trans (by decide +kernel), region, none⟩

end Stencil
