/-
# What stands around an argument list

Blanks in front of a list and behind it belong to no slot, but for one case.  Reading goes on as
long as there is any text left, so blanks behind a last comma are read as one more slot, an unset
one, though nothing behind that comma is no slot.

* `cut_append`: what follows a list is left when its last slot is cut off, and changes no slot of
  the list itself;
* `readMarked_append`: so it is read behind the list, from its own first comma on;
* `readList_surrounded`: when blanks around a list change what is read, and what an object in front
  of a last comma becomes among the arguments of a call.
-/
import Stencil.Filter.Arguments
import Stencil.Proofs.Clauses
import Stencil.Proofs.Isolation

namespace Stencil

open Stencil.Text Stencil.Depth

namespace Slot

/-! ## 1. Margins -/

/-- A character that may stand behind the last slot of a list. -/
def isMargin (c : Char) : Bool := c == ',' || isBlank c

/-- What stands behind the first comma. -/
def beyond (cs : List Char) : List Char := (cs.dropWhile (· != ',')).drop 1

/-- What is left of a text and a margin, when `left` is left of the text alone.  A slot that ends
with the text goes on to the first comma of the margin. -/
def leftOver (cs more left : List Char) : List Char :=
  if left = [] ∧ cs.getLast? ≠ some ',' then beyond more else left ++ more

theorem isMargin_of_isBlank {c : Char} (blank : isBlank c = true) : isMargin c = true := by
  simp [isMargin, blank]

theorem beyond_blank_append {gap : List Char} (blank : ∀ c ∈ gap, isBlank c = true)
    (cs : List Char) : beyond (gap ++ cs) = beyond cs := by
  have noComma : ∀ c ∈ gap, (c != ',') = true := by
    intro c mem
    simpa using ne_of_class (blank c mem) (by decide : isBlank ',' = false)
  unfold beyond
  rw [List.dropWhile_append_of_pos noComma]

theorem beyond_blank {gap : List Char} (blank : ∀ c ∈ gap, isBlank c = true) :
    beyond gap = [] := by
  have whole := beyond_blank_append blank []
  rwa [List.append_nil] at whole

theorem getLast?_append_of_ne_nil {cs : List Char} (nonempty : cs ≠ []) (front : List Char) :
    (front ++ cs).getLast? = cs.getLast? := by
  rw [List.getLast?_append, List.getLast?_eq_some_getLast nonempty, Option.some_or]

theorem ne_comma_of_blank {gap : List Char} (blank : ∀ c ∈ gap, isBlank c = true) :
    gap.getLast? ≠ some ',' := by
  intro last
  have := blank ',' (List.mem_of_getLast? last)
  exact absurd this (by decide)

variable {more : List Char}

theorem leftOver_of_comma {cs : List Char} (comma : cs.getLast? = some ',') (left : List Char) :
    leftOver cs more left = left ++ more := by
  simp [leftOver, comma]

theorem leftOver_of_ne_nil {left : List Char} (nonempty : left ≠ []) (cs : List Char) :
    leftOver cs more left = left ++ more := by
  simp [leftOver, nonempty]

theorem leftOver_nil {cs : List Char} (noComma : cs.getLast? ≠ some ',') :
    leftOver cs more [] = beyond more := by
  simp [leftOver, noComma]

/-- Only the end of a text counts for what is left of it. -/
theorem leftOver_append {front cs : List Char} (last : cs = [] → front.getLast? ≠ some ',')
    (left : List Char) : leftOver (front ++ cs) more left = leftOver cs more left := by
  by_cases nothing : cs = []
  · have noComma := last nothing
    simp [leftOver, nothing, noComma]
  · unfold leftOver
    rw [getLast?_append_of_ne_nil nothing]

/-- A comma and what is behind it. -/
theorem leftOver_behind_comma (front behind : List Char) :
    leftOver (front ++ ',' :: behind) more behind = behind ++ more := by
  cases behind with
  | nil => exact leftOver_of_comma List.getLast?_concat []
  | cons c behind => exact leftOver_of_ne_nil (List.cons_ne_nil c behind) _

/-! ## 2. The first slot of a list with a margin -/

theorem trimStart_append_of_cons {cs rest : List Char} {c : Char} (first : trimStart cs = c :: rest)
    (more : List Char) : trimStart (cs ++ more) = c :: (rest ++ more) := by
  unfold trimStart at first ⊢
  rw [List.dropWhile_append, first]
  rfl

theorem quotedToken?_unclosed {quote : Char} {cs : List Char} (inside : quote ∉ cs) :
    quotedToken? quote (quote :: cs) = none := by
  have run : cs.takeWhile (· != quote) = cs := by
    rw [List.takeWhile_eq_self_iff]
    intro c mem
    have : c ≠ quote := fun same => inside (same ▸ mem)
    simpa using this
  simp [quotedToken?, run]

/-- A region ends here if its closing mark does and the slot with it, and else later. -/
theorem regionEnd?_cons (close passed : List Char) (c : Char) (cs : List Char) :
    regionEnd? close passed (c :: cs) =
      ((if close.isPrefixOf (c :: cs) then afterToken? (cs.drop (close.length - 1)) else none).map
        fun rest => (passed.reverse ++ close, rest)).or (regionEnd? close (c :: passed) cs) := by
  rw [regionEnd?]
  split
  · rename_i found
    rw [found, Option.map_some, Option.some_or]
  · rename_i missing
    rw [missing, Option.map_none, Option.none_or]

/-- The token of a slot behind the blanks in front of it, and the rest. -/
def tokenOf (cs : List Char) : List Char × List Char :=
  ((quotedToken? '\'' cs).or <| (quotedToken? '"' cs).or <|
    (regionToken? '{' '}' cs).or (regionToken? '[' ']' cs)).getD (bareToken cs)

theorem cut_eq (cs : List Char) : cut cs = tokenOf (trimStart cs) := rfl

/-! ### What is left behind a slot is the end of the list -/

theorem afterToken?_suffix {cs rest : List Char} (h : afterToken? cs = some rest) :
    rest <:+ cs := by
  unfold afterToken? at h
  split at h
  · cases h
    exact List.nil_suffix
  · rename_i comma
    cases h
    have behind : rest <:+ trimStart cs := comma ▸ List.suffix_cons ',' rest
    exact behind.trans (trimStart_suffix cs)
  · cases h

theorem quotedToken?_suffix {quote : Char} {cs token rest : List Char}
    (h : quotedToken? quote cs = some (token, rest)) : rest <:+ cs := by
  cases cs with
  | nil => cases h
  | cons c cs =>
    by_cases opens : c = quote
    · subst opens
      by_cases closes : c ∈ cs
      · obtain ⟨inner, tail, rfl, inside⟩ := List.eq_append_cons_of_mem closes
        rw [quotedToken?_closed inside] at h
        obtain ⟨left, after, same⟩ := Option.map_eq_some_iff.1 h
        cases same
        exact (afterToken?_suffix after).trans ⟨c :: (inner ++ [c]), by simp⟩
      · rw [quotedToken?_unclosed closes] at h
        cases h
    · rw [quotedToken?_of_stops (stops_cons.2 (beq_eq_false_iff_ne.2 opens))] at h
      cases h

theorem regionEnd?_suffix {close passed cs token rest : List Char}
    (h : regionEnd? close passed cs = some (token, rest)) : rest <:+ cs := by
  induction cs generalizing passed with
  | nil => cases h
  | cons c cs ih =>
    rw [regionEnd?_cons, Option.or_eq_some_iff] at h
    rcases h with here | ⟨-, later⟩
    · obtain ⟨left, after, same⟩ := Option.map_eq_some_iff.1 here
      cases same
      split at after
      · exact ((afterToken?_suffix after).trans (List.drop_suffix _ cs)).trans
          (List.suffix_cons c cs)
      · cases after
    · exact (ih later).trans (List.suffix_cons c cs)

theorem regionToken?_suffix {opener closer : Char} {cs token rest : List Char}
    (h : regionToken? opener closer cs = some (token, rest)) : rest <:+ cs := by
  unfold regionToken? at h
  simp only at h
  split at h
  · exact (regionEnd?_suffix h).trans (List.drop_suffix _ cs)
  · cases h

theorem cut_suffix (cs : List Char) : (cut cs).2 <:+ cs := by
  refine List.IsSuffix.trans ?_ (trimStart_suffix cs)
  rw [cut_eq, tokenOf]
  generalize whole : (quotedToken? '\'' (trimStart cs)).or _ = token?
  cases token? with
  | none => exact List.drop_suffix _ _
  | some found =>
    obtain ⟨token, rest⟩ := found
    simp only [Option.or_eq_some_iff] at whole
    rcases whole with h | ⟨_, h | ⟨_, h | ⟨_, h⟩⟩⟩
    · exact quotedToken?_suffix h
    · exact quotedToken?_suffix h
    · exact regionToken?_suffix h
    · exact regionToken?_suffix h

/-- What is left ends as the list does, if anything is left. -/
theorem getLast?_cut {cs : List Char} (left : (cut cs).2 ≠ []) :
    (cut cs).2.getLast? = cs.getLast? := by
  obtain ⟨front, whole⟩ := cut_suffix cs
  have last := getLast?_append_of_ne_nil left front
  rwa [whole, eq_comm] at last

/-! ### The margin -/

section Margin

variable (margin : ∀ c ∈ more, isMargin c = true)
include margin

theorem afterToken?_margin : afterToken? more = some (beyond more) := by
  have split : more = more.takeWhile isBlank ++ trimStart more :=
    (List.takeWhile_append_dropWhile).symm
  have blank : ∀ c ∈ more.takeWhile isBlank, isBlank c = true :=
    fun c mem => List.mem_takeWhile_imp mem
  have behind : beyond more = beyond (trimStart more) := by
    rw [split, beyond_blank_append blank, ← split]
  unfold afterToken?
  rw [behind]
  cases first : trimStart more with
  | nil => rfl
  | cons c rest =>
    have inside : c ∈ more := (trimStart_suffix more).mem (first ▸ List.mem_cons_self ..)
    have solid : isBlank c = false := by
      have stops := List.head?_dropWhile_not isBlank more
      rw [← trimStart, first] at stops
      simpa using stops
    obtain rfl : c = ',' := by simpa [isMargin, solid] using margin c inside
    rfl

/-- What follows a token. -/
theorem afterToken?_append (cs : List Char) :
    afterToken? (cs ++ more) = (afterToken? cs).map (leftOver cs more) := by
  cases first : trimStart cs with
  | nil =>
    have blank := (trimStart_eq_nil_iff cs).1 first
    have whole : afterToken? (cs ++ more) = afterToken? more := by
      unfold afterToken?
      rw [trimStart_append blank]
    have alone : afterToken? cs = some [] := by
      unfold afterToken?
      rw [first]
    rw [whole, afterToken?_margin margin, alone, Option.map_some,
      leftOver_nil (ne_comma_of_blank blank)]
  | cons c rest =>
    have whole := trimStart_append_of_cons first more
    unfold afterToken?
    rw [whole, first]
    by_cases comma : c = ','
    · obtain ⟨front, split⟩ := trimStart_suffix cs
      rw [first, comma] at split
      rw [comma]
      simp only [Option.map_some, ← split, leftOver_behind_comma]
    · split
      · rename_i none
        cases none
      · rename_i eq
        exact absurd (List.cons.inj eq).1 comma
      · split
        · rename_i none
          cases none
        · rename_i eq
          exact absurd (List.cons.inj eq).1 comma
        · rfl

/-- A text without a character that no margin holds. -/
theorem not_mem_append_margin {c : Char} (other : isMargin c = false) {cs : List Char}
    (outside : c ∉ cs) : c ∉ cs ++ more := by
  intro mem
  rcases List.mem_append.1 mem with mem | mem
  · exact outside mem
  · exact ne_of_class (margin c mem) other rfl

theorem quotedToken?_margin {quote : Char} (other : isMargin quote = false) (cs : List Char) :
    quotedToken? quote (cs ++ more) =
      (quotedToken? quote cs).map (Prod.map id (leftOver cs more)) := by
  have comma : quote ≠ ',' := (ne_of_class (by decide : isMargin ',' = true) other).symm
  cases cs with
  | nil =>
    have stops : Stops (· == quote) more := by
      intro c first
      simpa using ne_of_class (margin c (List.mem_of_mem_head? first)) other
    rw [List.nil_append, quotedToken?_of_stops stops]
    rfl
  | cons c cs =>
    by_cases opens : c = quote
    · subst opens
      by_cases closes : c ∈ cs
      · obtain ⟨inner, rest, rfl, inside⟩ := List.eq_append_cons_of_mem closes
        have same : ∀ left, leftOver (c :: (inner ++ c :: rest)) more left =
            leftOver rest more left := by
          intro left
          have split : c :: (inner ++ c :: rest) = (c :: (inner ++ [c])) ++ rest := by simp
          rw [split, leftOver_append]
          intro _
          rw [← List.cons_append, List.getLast?_concat]
          simpa using comma
        have whole : c :: (inner ++ c :: rest) ++ more = c :: (inner ++ c :: (rest ++ more)) := by
          simp
        rw [whole, quotedToken?_closed inside, quotedToken?_closed inside,
          afterToken?_append margin, Option.map_map, Option.map_map]
        refine Option.map_congr ?_
        intro left _
        simp [same]
      · rw [List.cons_append, quotedToken?_unclosed closes,
          quotedToken?_unclosed (not_mem_append_margin margin other closes)]
        rfl
    · have stops : ∀ cs, Stops (· == quote) (c :: cs) :=
        fun cs => stops_cons.2 (beq_eq_false_iff_ne.2 opens)
      rw [List.cons_append, quotedToken?_of_stops (stops _), quotedToken?_of_stops (stops _)]
      rfl

/-- A text that holds nothing of a margin is not found across its start. -/
theorem isPrefixOf_margin {needle : List Char} (other : ∀ c ∈ needle, isMargin c = false)
    (cs : List Char) : needle.isPrefixOf (cs ++ more) = needle.isPrefixOf cs := by
  rw [Bool.eq_iff_iff, List.isPrefixOf_iff_prefix, List.isPrefixOf_iff_prefix]
  refine ⟨fun found => ?_, fun found => found.trans (List.prefix_append cs more)⟩
  rcases List.prefix_or_prefix_of_prefix found (List.prefix_append cs more) with within | beyond
  · exact within
  · obtain ⟨v, rfl⟩ := beyond
    cases v with
    | nil => rw [List.append_nil]
    | cons c v =>
      obtain ⟨tail, rfl⟩ := (List.prefix_append_right_inj cs).1 found
      have inMargin := margin c (by simp)
      rw [other c (by simp)] at inMargin
      cases inMargin

/-- No region ends in a margin. -/
theorem regionEnd?_none {close : List Char} (other : ∀ c ∈ close, isMargin c = false)
    (nonempty : close ≠ []) (passed : List Char) : regionEnd? close passed more = none := by
  induction more generalizing passed with
  | nil => rfl
  | cons c more ih =>
    obtain ⟨here, later⟩ := List.forall_mem_cons.1 margin
    have missing : close.isPrefixOf (c :: more) = false := by
      have nowhere := isPrefixOf_margin margin other []
      obtain ⟨d, rest, rfl⟩ := List.exists_cons_of_ne_nil nonempty
      exact nowhere
    rw [regionEnd?_cons, missing, if_neg Bool.false_ne_true, ih later]
    rfl

/-- The end of a region is found where it is without the margin. -/
theorem regionEnd?_margin {close : List Char} (other : ∀ c ∈ close, isMargin c = false)
    (nonempty : close ≠ []) (passed cs : List Char) :
    regionEnd? close passed (cs ++ more) =
      (regionEnd? close passed cs).map (Prod.map id (leftOver cs more)) := by
  have noComma : close.getLast? ≠ some ',' := by
    intro last
    exact absurd (other ',' (List.mem_of_getLast? last)) (by decide)
  induction cs generalizing passed with
  | nil => exact regionEnd?_none margin other nonempty passed
  | cons c cs ih =>
    have later : regionEnd? close (c :: passed) (cs ++ more) =
        (regionEnd? close (c :: passed) cs).map (Prod.map id (leftOver (c :: cs) more)) := by
      rw [ih]
      cases cs with
      | nil => rfl
      | cons d cs =>
        have same : leftOver ([c] ++ d :: cs) more = leftOver (d :: cs) more := by
          funext left
          exact leftOver_append (fun no => absurd no (List.cons_ne_nil _ _)) left
        rw [← same]
        rfl
    have starts := isPrefixOf_margin margin other (c :: cs)
    rw [List.cons_append] at starts ⊢
    rw [regionEnd?_cons, regionEnd?_cons, later, Option.map_or, starts, Option.map_map]
    congr 1
    split
    · rename_i found
      obtain ⟨rest, whole⟩ := List.isPrefixOf_iff_prefix.1 found
      obtain ⟨d, close, rfl⟩ := List.exists_cons_of_ne_nil nonempty
      obtain ⟨rfl, rfl⟩ := List.cons.inj whole
      have cut : ∀ behind : List Char,
          (close ++ behind).drop ((d :: close).length - 1) = behind := by
        intro behind
        rw [List.length_cons, Nat.add_sub_cancel, List.drop_left]
      have same : ∀ left, leftOver ((d :: close) ++ rest) more left = leftOver rest more left :=
        leftOver_append fun _ => noComma
      have whole' : close.append rest ++ more = close ++ (rest ++ more) := List.append_assoc ..
      have here : (close.append rest).drop ((d :: close).length - 1) = rest := cut rest
      rw [whole', cut, here]
      refine (congrArg _ (afterToken?_append margin rest)).trans ?_
      rw [Option.map_map]
      refine Option.map_congr ?_
      intro left _
      exact congrArg (Prod.mk _) (same left).symm
    · rfl

theorem regionToken?_margin {opener closer : Char} (opens : isMargin opener = false)
    (closes : isMargin closer = false) (cs : List Char) :
    regionToken? opener closer (cs ++ more) =
      (regionToken? opener closer cs).map (Prod.map id (leftOver cs more)) := by
  have start : ∀ c ∈ [opener, '1', '%'], isMargin c = false := by
    simp only [List.mem_cons, List.not_mem_nil, or_false]
    rintro c (rfl | rfl | rfl)
    · exact opens
    · decide
    · decide
  have close : ∀ c ∈ ['%', '1', closer], isMargin c = false := by
    simp only [List.mem_cons, List.not_mem_nil, or_false]
    rintro c (rfl | rfl | rfl)
    · decide
    · decide
    · exact closes
  unfold regionToken?
  simp only [isPrefixOf_margin margin start]
  split
  · rename_i found
    obtain ⟨rest, rfl⟩ := List.isPrefixOf_iff_prefix.1 found
    have same : leftOver ([opener, '1', '%'] ++ rest) more = leftOver rest more := by
      funext left
      exact leftOver_append (fun _ => by simp) left
    have cut : ([opener, '1', '%'] ++ rest ++ more).drop [opener, '1', '%'].length =
        rest ++ more := by simp
    have cut' : ([opener, '1', '%'] ++ rest).drop [opener, '1', '%'].length = rest := by simp
    rw [cut, cut', same, regionEnd?_margin margin close (List.cons_ne_nil _ _)]
  · rfl

theorem bareToken_margin (cs : List Char) :
    bareToken (cs ++ more) = Prod.map id (leftOver cs more) (bareToken cs) := by
  by_cases comma : ',' ∈ cs
  · obtain ⟨run, rest, rfl, inside⟩ := List.eq_append_cons_of_mem comma
    have run' : ∀ behind, (run ++ ',' :: behind).takeWhile (· != ',') = run := by
      intro behind
      refine takeWhile_append_of_stops (fun c mem => ?_) (stops_cons.2 (by simp))
      have : c ≠ ',' := fun same => inside (same ▸ mem)
      simpa using this
    have cut : ∀ behind, (run ++ ',' :: behind).drop (run.length + 1) = behind := by
      intro behind
      rw [← List.drop_drop, List.drop_left]
      rfl
    simp only [bareToken, List.append_assoc, List.cons_append, run', cut, Prod.map, id,
      leftOver_behind_comma]
  · have inside : ∀ c ∈ cs, (c != ',') = true := by
      intro c mem
      have : c ≠ ',' := fun same => comma (same ▸ mem)
      simpa using this
    have gap : ∀ c ∈ more.takeWhile (· != ','), isBlank c = true := by
      intro c mem
      have other : c ≠ ',' := by simpa using List.mem_takeWhile_imp mem
      simpa [isMargin, other] using margin c ((List.takeWhile_prefix _).mem mem)
    have noComma : cs.getLast? ≠ some ',' := fun last => comma (List.mem_of_getLast? last)
    have run : cs.takeWhile (· != ',') = cs := List.takeWhile_eq_self_iff.2 inside
    have whole : (cs ++ more).takeWhile (· != ',') = cs ++ more.takeWhile (· != ',') :=
      List.takeWhile_append_of_pos inside
    have rest : (cs ++ more).drop ((cs ++ more.takeWhile (· != ',')).length + 1) =
        beyond more := by
      rw [List.length_append, Nat.add_assoc, ← List.drop_drop, List.drop_left, ← List.drop_drop,
        drop_takeWhile]
      rfl
    simp only [bareToken, run, whole, rest, trimEnd_append gap, Prod.map, id,
      List.drop_eq_nil_of_le (Nat.le_succ cs.length), leftOver_nil noComma]

theorem tokenOf_margin (cs : List Char) :
    tokenOf (cs ++ more) = Prod.map id (leftOver cs more) (tokenOf cs) := by
  unfold tokenOf
  rw [quotedToken?_margin margin (by decide), quotedToken?_margin margin (by decide),
    regionToken?_margin margin (by decide) (by decide),
    regionToken?_margin margin (by decide) (by decide), bareToken_margin margin,
    ← Option.map_or, ← Option.map_or, ← Option.map_or, Option.getD_map]

/-- **A margin changes nothing about the first slot**, but for what is left behind it. -/
theorem cut_append (cs : List Char) :
    cut (cs ++ more) = Prod.map id (leftOver cs more) (cut cs) := by
  rw [cut_eq, cut_eq]
  obtain ⟨gap, split⟩ := trimStart_suffix cs
  cases first : trimStart cs with
  | nil =>
    have blank := (trimStart_eq_nil_iff cs).1 first
    have margin' : ∀ c ∈ trimStart more, isMargin c = true :=
      fun c mem => margin c ((trimStart_suffix more).mem mem)
    have alone : tokenOf [] = ([], []) := rfl
    have whole := tokenOf_margin margin' []
    have behind : beyond (trimStart more) = beyond more := by
      have gap : ∀ c ∈ more.takeWhile isBlank, isBlank c = true :=
        fun c mem => List.mem_takeWhile_imp mem
      conv_rhs => rw [← @List.takeWhile_append_dropWhile _ isBlank more]
      exact (beyond_blank_append gap _).symm
    rw [List.nil_append, alone, Prod.map_apply, leftOver_nil (by simp), behind] at whole
    rw [trimStart_append blank, whole, alone, Prod.map_apply,
      leftOver_nil (ne_comma_of_blank blank)]
  | cons c rest =>
    have same : leftOver cs more = leftOver (c :: rest) more := by
      funext left
      rw [first] at split
      rw [← split]
      exact leftOver_append (fun no => absurd no (List.cons_ne_nil _ _)) left
    rw [trimStart_append_of_cons first, same, ← List.cons_append, tokenOf_margin margin]

/-! ## 3. All the slots -/

omit margin in
theorem readMarked_ne_nil {cs : List Char} (nonempty : cs ≠ []) :
    readMarked cs = ofToken (cut cs).1 :: readMarked (cut cs).2 := by
  rw [readMarked, dif_neg nonempty]

/-- **A margin is read behind the slots of a list.**  Each slot leaves a shorter text; what the last
one leaves of the margin depends on whether the list ends with a comma. -/
theorem readMarked_append {cs : List Char} (nonempty : cs ≠ []) :
    readMarked (cs ++ more) =
      readMarked cs ++ readMarked (if cs.getLast? = some ',' then more else beyond more) := by
  induction length : cs.length using Nat.strong_induction_on generalizing cs with
  | _ n ih =>
    have nonempty' : cs ++ more ≠ [] := List.append_ne_nil_of_left_ne_nil nonempty more
    rw [readMarked_ne_nil nonempty', readMarked_ne_nil nonempty, cut_append margin,
      Prod.map_fst, Prod.map_snd, id, List.cons_append]
    congr 1
    by_cases done : (cut cs).2 = []
    · rw [done, readMarked_nil, List.nil_append]
      split
      · rename_i comma
        rw [leftOver_of_comma comma, List.nil_append]
      · rename_i noComma
        rw [leftOver_nil noComma]
    · rw [leftOver_of_ne_nil done, ih _ (length ▸ cut_length nonempty) done rfl,
        getLast?_cut done]

end Margin

/-- Blanks alone are one unset slot. -/
theorem readMarked_blank {gap : List Char} (blank : ∀ c ∈ gap, isBlank c = true) :
    readMarked gap = if gap = [] then [] else [none] := by
  split
  · rename_i nothing
    rw [nothing, readMarked_nil]
  · rename_i nonempty
    have cutOff : cut gap = ([], []) := by
      rw [cut_eq, (trimStart_eq_nil_iff gap).2 blank]
      rfl
    have unset : ofToken [] = none := rfl
    rw [readMarked_ne_nil nonempty, cutOff, readMarked_nil, unset]

theorem readMarked_blank_append {gap : List Char} (blank : ∀ c ∈ gap, isBlank c = true)
    {cs : List Char} (nonempty : cs ≠ []) : readMarked (gap ++ cs) = readMarked cs := by
  rw [readMarked_ne_nil nonempty,
    readMarked_ne_nil (List.append_ne_nil_of_right_ne_nil gap nonempty), cut_eq,
    trimStart_append blank, ← cut_eq]

/-! ## 4. Blanks around a list -/

theorem isBracket_of_isMargin {c : Char} (h : isMargin c = true) : isBracket c = false :=
  isBracket_of_class h (by decide) (by decide)

/-- What holds no brackets changes no mark of a text that it stands around. -/
theorem markBrackets_between {before more : List Char}
    (free : ∀ c ∈ before, isBracket c = false) (free' : ∀ c ∈ more, isBracket c = false)
    (raw : List Char) :
    markBrackets (before ++ (raw ++ more)) = before ++ (markBrackets raw ++ more) := by
  have front : ∀ b ∈ kinds, b.Free before := forall_kinds.2 (free_of_isBracket free)
  have last : ∀ b ∈ kinds, b.Free more := forall_kinds.2 (free_of_isBracket free')
  have paired : ∀ b ∈ kinds, (b.Paired (before ++ (raw ++ more)) ↔ b.Paired raw) := by
    intro b kind
    have behind := (last b kind).paired_append raw []
    rw [List.append_nil, List.append_nil] at behind
    exact ((front b kind).paired_append [] _).trans behind
  have level : ∀ b ∈ kinds, b.level 0 ([] ++ before) = b.level 0 [] := by
    intro b kind
    rw [List.nil_append, (front b kind).level, Bracket.level_nil]
  rw [markBrackets_eq_markedIn, markedIn_append, markedIn_append, markedIn_of_free free,
    markedIn_of_free free', markedIn_congr paired level, ← markBrackets_eq_markedIn]

/-- A marked text ends with a comma if the text does. -/
theorem getLast?_markBrackets (cs : List Char) :
    (markBrackets cs).getLast? = some ',' ↔ cs.getLast? = some ',' := by
  rcases List.eq_nil_or_concat cs with rfl | ⟨front, c, rfl⟩
  · rw [markBrackets_eq_markedIn, markedIn_nil]
  · rw [List.concat_eq_append, markBrackets_eq_markedIn, markedIn_append, List.getLast?_concat,
      List.nil_append]
    by_cases bracket : isBracket c = true
    · have other : c ≠ ',' := ne_of_class bracket (by decide)
      refine iff_of_false (fun last => ?_) (by simpa using other)
      -- the bracket is followed by nothing but its mark
      rw [markedIn_singleton, ← List.append_assoc,
        getLast?_append_of_ne_nil (List.cons_ne_nil _ _)] at last
      rcases List.mem_cons.1 (List.mem_of_getLast? last) with same | mark
      · exact other same.symm
      · rcases List.mem_append.1 mark with mark | mark
        · exact absurd (Bracket.isMark_behind _ mark) (by decide)
        · exact absurd (Bracket.isMark_behind _ mark) (by decide)
    · have free : ∀ d ∈ [c], isBracket d = false :=
        List.forall_mem_singleton.2 (Bool.eq_false_iff.2 bracket)
      rw [markedIn_of_free free, List.getLast?_concat]

theorem markBrackets_ne_nil {cs : List Char} (nonempty : cs ≠ []) : markBrackets cs ≠ [] := by
  obtain ⟨c, rest, rfl⟩ := List.exists_cons_of_ne_nil nonempty
  rw [markBrackets_eq_markedIn, ← List.singleton_append, markedIn_append, markedIn_singleton]
  simp

theorem readList_of_blank {cs : List Char} (blank : ∀ c ∈ cs, isBlank c = true) :
    readList cs = [] := by
  simp [readList, trim_of_blank blank]

/-- **Blanks in front of a list change nothing, and a margin is read behind its slots.** -/
theorem readList_margin {before more raw : List Char} (blank : ∀ c ∈ before, isBlank c = true)
    (margin : ∀ c ∈ more, isMargin c = true) (visible : ∃ c ∈ raw, isBlank c = false) :
    readList (before ++ (raw ++ more)) =
      readList raw ++ readMarked (if raw.getLast? = some ',' then more else beyond more) := by
  have visible' : ∃ c ∈ before ++ (raw ++ more), isBlank c = false := by
    obtain ⟨c, mem, solid⟩ := visible
    exact ⟨c, by simp [mem], solid⟩
  have nonempty : markBrackets raw ≠ [] := by
    obtain ⟨c, mem, -⟩ := visible
    exact markBrackets_ne_nil (List.ne_nil_of_mem mem)
  have marked := markBrackets_between
    (fun c mem => isBracket_of_isBlank (blank c mem))
    (fun c mem => isBracket_of_isMargin (margin c mem)) raw
  have last := getLast?_markBrackets raw
  rw [readList_of_visible visible', readList_of_visible visible, marked,
    readMarked_blank_append blank (List.append_ne_nil_of_left_ne_nil nonempty more),
    readMarked_append margin nonempty]
  simp only [last]

/-- Blanks behind a list are an unset slot if the list ends with a comma, and else nothing. -/
theorem readList_blanks {before behind : List Char} (blank : ∀ c ∈ before, isBlank c = true)
    (blank' : ∀ c ∈ behind, isBlank c = true) (raw : List Char) :
    readList (before ++ (raw ++ behind)) =
      readList raw ++ if raw.getLast? = some ',' ∧ behind ≠ [] then [none] else [] := by
  by_cases visible : ∃ c ∈ raw, isBlank c = false
  · have margin : ∀ c ∈ behind, isMargin c = true :=
      fun c mem => isMargin_of_isBlank (blank' c mem)
    rw [readList_margin blank margin visible]
    by_cases comma : raw.getLast? = some ','
    · simp [comma, readMarked_blank blank']
    · simp [comma, beyond_blank blank', readMarked_nil]
  · have blanks : ∀ c ∈ raw, isBlank c = true := by simpa using visible
    have whole : ∀ c ∈ before ++ (raw ++ behind), isBlank c = true :=
      List.forall_mem_append.2 ⟨blank, List.forall_mem_append.2 ⟨blanks, blank'⟩⟩
    simp [readList_of_blank whole, readList_of_blank blanks, ne_comma_of_blank blanks]

/-- A comma behind a list adds no slot, but blanks behind the comma do. -/
theorem readList_comma {before behind raw : List Char} (blank : ∀ c ∈ before, isBlank c = true)
    (blank' : ∀ c ∈ behind, isBlank c = true) (visible : ∃ c ∈ raw, isBlank c = false)
    (noComma : raw.getLast? ≠ some ',') :
    readList (before ++ (raw ++ ',' :: behind)) =
      readList raw ++ if behind = [] then [] else [none] := by
  have margin : ∀ c ∈ ',' :: behind, isMargin c = true :=
    List.forall_mem_cons.2 ⟨by decide, fun c mem => isMargin_of_isBlank (blank' c mem)⟩
  have rest : beyond (',' :: behind) = behind := rfl
  rw [readList_margin blank margin visible, if_neg noComma, rest, readMarked_blank blank']

/-- Of two slots, the second one unset, the first goes to the first declared name. -/
theorem ofCall_unset (v : Value) (parameters : Option (List String)) :
    Arguments.ofCall parameters [some v, none] =
      ((parameters.getD []).take 1).map fun name => (name, v) := by
  unfold Arguments.ofCall
  split
  · rename_i eq
    simp at eq
  · rcases parameters.getD [] with _ | ⟨name, _ | ⟨other, names⟩⟩
    · rfl
    · rfl
    · simp [Keyed.ofList, Keyed.merge, Keyed.insert]

/-- **When blanks around a list change nothing.**  It does not end with a comma, or no blank is
behind it.  Otherwise there is one more slot, an unset one.  So an object is no longer the only slot
when a comma and a blank follow it: with the comma alone its members are the arguments, with the
blank the object as a whole is the first of them. -/
theorem readList_surrounded {before behind : List Char}
    (blank : ∀ c ∈ before, isBlank c = true) (blank' : ∀ c ∈ behind, isBlank c = true)
    (raw : List Char) :
    (readList (before ++ (raw ++ behind)) = readList raw ↔
        raw.getLast? ≠ some ',' ∨ behind = []) ∧
      (raw.getLast? = some ',' → behind ≠ [] →
        readList (before ++ (raw ++ behind)) = readList raw ++ [none]) ∧
      ∀ fields, readList raw = [some (.object fields)] → raw.getLast? ≠ some ',' →
        ∀ parameters, Arguments.ofCall parameters (readList (before ++ (raw ++ ',' :: behind))) =
          if behind = [] then fields
          else ((parameters.getD []).take 1).map fun name => (name, .object fields) := by
  have whole := readList_blanks blank blank' raw
  refine ⟨?_, ?_, ?_⟩
  · rw [whole, List.append_right_eq_self]
    split
    · rename_i added
      simpa using added
    · rename_i none
      simpa [or_iff_not_imp_left] using none
  · intro comma some'
    rw [whole, if_pos ⟨comma, some'⟩]
  · intro fields single noComma parameters
    have visible : ∃ c ∈ raw, isBlank c = false := by
      by_contra blanks
      rw [readList_of_blank (by simpa using blanks)] at single
      cases single
    rw [readList_comma blank blank' visible noComma, single]
    split
    · rfl
    · exact ofCall_unset (.object fields) parameters

/-- The blanks around an object in brackets, and behind a comma. -/
theorem readList_surrounded_object :
    (∀ c ∈ "\t ".toList, isBlank c = true) ∧ (∀ c ∈ "  ".toList, isBlank c = true) ∧
      readList "\t \x7ba:1\x7d  ".toList = readList "\x7ba:1\x7d".toList ∧
      readList "\t \x7ba:1\x7d,  ".toList = [some (.object [("a", .ofInt 1)]), none] ∧
      Arguments.ofCall (some ["x", "y"]) (readList "\t \x7ba:1\x7d,  ".toList) =
        [("x", .object [("a", .ofInt 1)])] := by
  have blank : ∀ c ∈ "\t ".toList, isBlank c = true :=
    List.all_eq_true.1 (by decide +kernel)
  have blank' : ∀ c ∈ "  ".toList, isBlank c = true := List.all_eq_true.1 (by decide +kernel)
  have alone : readList "\x7ba:1\x7d".toList = [some (.object [("a", .ofInt 1)])] := by
    with_unfolding_all rfl
  have comma : readList "\x7ba:1\x7d,".toList = [some (.object [("a", .ofInt 1)])] := by
    with_unfolding_all rfl
  have around := (readList_surrounded blank blank' "\x7ba:1\x7d".toList).1.2 (Or.inl (by decide))
  have behind := (readList_surrounded blank blank' "\x7ba:1\x7d,".toList).2.1 rfl (by decide)
  have merged := (readList_surrounded blank blank' "\x7ba:1\x7d".toList).2.2 _ alone (by decide)
    (some ["x", "y"])
  rw [comma] at behind
  exact ⟨blank, blank', around, behind, merged⟩

/-- A blank behind a last comma is read as a slot, though the comma alone adds none. -/
theorem readList_blank_behind_comma :
    readList "\x7ba:1\x7d,".toList = [some (.object [("a", .ofInt 1)])] ∧
      readList "\x7ba:1\x7d, ".toList = [some (.object [("a", .ofInt 1)]), none] ∧
      readList ([] ++ ("\x7ba:1\x7d,".toList ++ [' '])) ≠ readList "\x7ba:1\x7d,".toList := by
  have comma : readList "\x7ba:1\x7d,".toList = [some (.object [("a", .ofInt 1)])] := by
    with_unfolding_all rfl
  have blank : readList "\x7ba:1\x7d, ".toList = [some (.object [("a", .ofInt 1)]), none] := by
    with_unfolding_all rfl
  refine ⟨comma, blank, fun same => ?_⟩
  have text : [] ++ ("\x7ba:1\x7d,".toList ++ [' ']) = "\x7ba:1\x7d, ".toList := rfl
  rw [text, comma, blank] at same
  cases same

end Slot

end Stencil
