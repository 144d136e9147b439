/-
# Splitting, joining and replacing

Three operations have to do with the occurrences of a text in another one (the needle): two search
for them, each with a scan of its own, and one puts the needle back.  What they have in common is
how a text is parted.  From left to right, every part ends where the needle occurs first, and the
next one begins behind that occurrence (`Parted`).

* `parted_iff`: each text is parted in one way, and this is how it is split;
* `Parted.intercalate_eq`: the parts with the needle between them are the text again;
* `Parted.replaceAll_eq`: with another text between them, they are what replacing the needle by that
  text gives;
* `split_join_replace`: so joining undoes splitting for every separator, and replacing is splitting
  and joining.

The empty separator parts a text into its characters; it is no needle of the scans.
-/
import Mathlib
import Stencil.Operation.Table

namespace Stencil

/-! ## 1. Parted texts -/

namespace Text

/-- The needle occurs at no position of the front of a text. -/
def FreeUpTo (needle : List Char) (front : Nat) (cs : List Char) : Prop :=
  ∀ i < front, ¬ needle <+: cs.drop i

/-- A text parted at the occurrences of a needle, from left to right: each part ends where the
needle occurs first, and in the last part it does not occur. -/
inductive Parted (needle : List Char) : List Char → List (List Char) → Prop
  | last {cs : List Char} (absent : FreeUpTo needle cs.length cs) : Parted needle cs [cs]
  | part {part behind : List Char} {parts : List (List Char)}
      (first : FreeUpTo needle part.length (part ++ (needle ++ behind)))
      (rest : Parted needle behind parts) :
      Parted needle (part ++ (needle ++ behind)) (part :: parts)

variable {needle cs : List Char} {parts : List (List Char)}

theorem Parted.ne_nil (h : Parted needle cs parts) : parts ≠ [] := by
  cases h <;> exact List.cons_ne_nil _ _

/-- Every text can be parted: what is left behind the first occurrence is shorter. -/
theorem exists_parted (nonempty : needle ≠ []) (cs : List Char) :
    ∃ parts, Parted needle cs parts := by
  by_cases occurs : ∃ i, i < cs.length ∧ needle <+: cs.drop i
  · classical
    obtain ⟨inside, behind, here⟩ := Nat.find_spec occurs
    have eq : cs = cs.take (Nat.find occurs) ++ (needle ++ behind) := by
      rw [here, List.take_append_drop]
    have shorter : behind.length < cs.length := by
      have := List.length_pos_of_ne_nil nonempty
      rw [eq]
      simp only [List.length_append]
      omega
    obtain ⟨parts, rest⟩ := exists_parted nonempty behind
    refine ⟨cs.take (Nat.find occurs) :: parts, ?_⟩
    have first : FreeUpTo needle (cs.take (Nat.find occurs)).length
        (cs.take (Nat.find occurs) ++ (needle ++ behind)) := by
      intro i early at'
      rw [← eq] at at'
      rw [List.length_take, Nat.lt_min] at early
      exact Nat.find_min occurs early.1 ⟨early.2, at'⟩
    have parted := Parted.part first rest
    rwa [← eq] at parted
  · exact ⟨[cs], .last fun i inside at' => occurs ⟨i, inside, at'⟩⟩
termination_by cs.length

theorem intercalate_cons (separator part : List Char) (nonempty : parts ≠ []) :
    separator.intercalate (part :: parts) = part ++ (separator ++ separator.intercalate parts) := by
  obtain ⟨next, parts, rfl⟩ := List.exists_cons_of_ne_nil nonempty
  rw [List.intercalate_cons_cons, List.append_assoc]

/-- **The parts with the needle between them are the text.** -/
theorem Parted.intercalate_eq (h : Parted needle cs parts) : needle.intercalate parts = cs := by
  induction h with
  | last absent => exact List.intercalate_singleton
  | part first rest ih => rw [intercalate_cons _ _ rest.ne_nil, ih]

/-! ## 2. The two scans -/

theorem FreeUpTo.tail {front : Nat} {c : Char} (h : FreeUpTo needle (front + 1) (c :: cs)) :
    FreeUpTo needle front cs := by
  intro i early
  exact h (i + 1) (Nat.succ_lt_succ early)

theorem FreeUpTo.not_isPrefixOf {front : Nat} {c : Char}
    (h : FreeUpTo needle (front + 1) (c :: cs)) : ¬ needle.isPrefixOf (c :: cs) = true := by
  intro here
  exact h 0 (Nat.succ_pos _) (List.isPrefixOf_iff_prefix.1 here)

theorem isPrefixOf_append_self (needle behind : List Char) :
    needle.isPrefixOf (needle ++ behind) = true :=
  List.isPrefixOf_iff_prefix.2 (List.prefix_append ..)

theorem splitFrom_absent (absent : FreeUpTo needle cs.length cs) (part : List Char)
    (parts : List (List Char)) :
    splitFrom needle part parts cs = parts.reverse ++ [part.reverse ++ cs] := by
  induction cs generalizing part with
  | nil => simp [splitFrom]
  | cons c cs ih =>
    rw [splitFrom, if_neg absent.not_isPrefixOf, ih absent.tail]
    simp

theorem splitFrom_first (nonempty : needle ≠ []) {front behind : List Char}
    (first : FreeUpTo needle front.length (front ++ (needle ++ behind))) (part : List Char)
    (parts : List (List Char)) :
    splitFrom needle part parts (front ++ (needle ++ behind)) =
      splitFrom needle [] ((part.reverse ++ front) :: parts) behind := by
  induction front generalizing part with
  | nil =>
    have here := isPrefixOf_append_self needle behind
    obtain ⟨c, needle, rfl⟩ := List.exists_cons_of_ne_nil nonempty
    rw [List.cons_append] at here
    rw [List.nil_append, List.cons_append, splitFrom, if_pos here]
    simp
  | cons c front ih =>
    rw [List.cons_append] at first ⊢
    rw [splitFrom, if_neg first.not_isPrefixOf, ih first.tail]
    simp

/-- A text is split into its parts. -/
theorem Parted.splitFrom_eq (nonempty : needle ≠ []) (h : Parted needle cs parts)
    (passed : List (List Char)) : splitFrom needle [] passed cs = passed.reverse ++ parts := by
  induction h generalizing passed with
  | last absent => exact splitFrom_absent absent [] passed
  | part first rest ih =>
    rw [splitFrom_first nonempty first, ih]
    simp

theorem parted_splitOn (nonempty : needle ≠ []) (cs : List Char) :
    Parted needle cs (splitOn needle cs) := by
  obtain ⟨parts, parted⟩ := exists_parted nonempty cs
  have split : splitOn needle cs = parts := parted.splitFrom_eq nonempty []
  rwa [split]

/-- **Splitting gives the parts of a text, and there are no other ones.** -/
theorem parted_iff (nonempty : needle ≠ []) :
    Parted needle cs parts ↔ splitOn needle cs = parts := by
  constructor
  · intro parted
    exact parted.splitFrom_eq nonempty []
  · rintro rfl
    exact parted_splitOn nonempty cs

theorem replaceFrom_absent (absent : FreeUpTo needle cs.length cs)
    (replacement passed : List Char) :
    replaceFrom needle replacement passed cs = passed.reverse ++ cs := by
  induction cs generalizing passed with
  | nil => simp [replaceFrom]
  | cons c cs ih =>
    rw [replaceFrom, if_neg absent.not_isPrefixOf, ih absent.tail]
    simp

theorem replaceFrom_first (nonempty : needle ≠ []) {front behind : List Char}
    (first : FreeUpTo needle front.length (front ++ (needle ++ behind)))
    (replacement passed : List Char) :
    replaceFrom needle replacement passed (front ++ (needle ++ behind)) =
      replaceFrom needle replacement (replacement.reverse ++ (front.reverse ++ passed)) behind := by
  induction front generalizing passed with
  | nil =>
    have here := isPrefixOf_append_self needle behind
    obtain ⟨c, needle, rfl⟩ := List.exists_cons_of_ne_nil nonempty
    rw [List.cons_append] at here
    rw [List.nil_append, List.cons_append, replaceFrom, if_pos here]
    simp
  | cons c front ih =>
    rw [List.cons_append] at first ⊢
    rw [replaceFrom, if_neg first.not_isPrefixOf, ih first.tail]
    simp

/-- **Replacing puts the replacement between the parts.** -/
theorem Parted.replaceFrom_eq (nonempty : needle ≠ []) (h : Parted needle cs parts)
    (replacement passed : List Char) :
    replaceFrom needle replacement passed cs =
      passed.reverse ++ replacement.intercalate parts := by
  induction h generalizing passed with
  | last absent =>
    rw [replaceFrom_absent absent, List.intercalate_singleton]
  | part first rest ih =>
    rw [replaceFrom_first nonempty first, ih, intercalate_cons _ _ rest.ne_nil]
    simp

/-- Replacing a text is splitting and joining. -/
theorem replaceAll_eq (nonempty : needle ≠ []) (replacement cs : List Char) :
    replaceAll needle replacement cs = replacement.intercalate (splitOn needle cs) := by
  have parted := parted_splitOn nonempty cs
  exact parted.replaceFrom_eq nonempty replacement []

end Text

/-! ## 3. The operations -/

namespace Operation

open Stencil.Text

/-- What a separator parts a text into. -/
def partsOf (separator cs : List Char) : List (List Char) :=
  if separator.isEmpty then cs.map ([·]) else splitOn separator cs

theorem partsOf_of_ne_nil {separator : List Char} (nonempty : separator ≠ []) (cs : List Char) :
    partsOf separator cs = splitOn separator cs :=
  if_neg (by simpa using nonempty)

theorem intercalate_empty (parts : List (List Char)) : [].intercalate parts = parts.flatten := by
  induction parts with
  | nil => rfl
  | cons part parts ih =>
    rcases parts with _ | ⟨next, parts⟩
    · simp
    · rw [List.intercalate_cons_cons, ih, List.append_nil]
      rfl

/-- The parts with their separator between them are the text. -/
theorem intercalate_partsOf (separator cs : List Char) :
    separator.intercalate (partsOf separator cs) = cs := by
  by_cases empty : separator = []
  · subst empty
    have characters : partsOf [] cs = cs.map ([·]) := rfl
    rw [intercalate_empty, characters, ← List.flatMap_def, List.flatMap_singleton']
  · have parted : Parted separator cs (splitOn separator cs) := (parted_iff empty).2 rfl
    rw [partsOf_of_ne_nil empty, parted.intercalate_eq]

theorem join_ofChars (parts : List (List Char)) (args : Arguments) :
    join (parts.map Value.ofChars) args =
      .ok (.ofChars (((text? args 0).getD [',']).intercalate parts)) := by
  simp [join, Function.comp_def]

/-- A text split with one separator and joined with another. -/
theorem split_join (s : String) (splitting joining : Arguments) :
    (do let parts ← apply "split" (.string s) splitting; apply "join" parts joining) =
      .ok (.ofChars (((text? joining 0).getD [',']).intercalate
        (partsOf ((text? splitting 0).getD [',']) s.toList))) :=
  join_ofChars _ joining

theorem apply_replace (s : String) {args : Arguments} {pattern replacement : List Char}
    (found : text? args 0 = some pattern) (nonempty : pattern ≠ [])
    (put : text? args 1 = some replacement) :
    apply "replace" (.string s) args =
      .ok (.ofChars (replacement.intercalate (partsOf pattern s.toList))) := by
  have visible : ¬ pattern.isEmpty = true := by simpa using nonempty
  have applied : apply "replace" (.string s) args = replace s.toList args := rfl
  simp only [applied, replace, found, if_neg visible, put, Option.getD_some, replaceAll_eq nonempty,
    partsOf_of_ne_nil nonempty]

/-- **Joining undoes splitting, and replacing is splitting and joining.**  The first holds for each
separator that both calls have in their slot, or neither; the second for each pattern that is not
rendered as the empty text. -/
theorem split_join_replace (s : String) :
    (∀ splitting joining : Arguments, splitting.slot? 0 = joining.slot? 0 →
        (do let parts ← apply "split" (.string s) splitting; apply "join" parts joining) =
          .ok (.string s)) ∧
      ∀ (replacing splitting joining : Arguments) (pattern replacement : Value),
        replacing.slot? 0 = some pattern → pattern.render ≠ "" →
        replacing.slot? 1 = some replacement → splitting.slot? 0 = some pattern →
        joining.slot? 0 = some replacement →
        apply "replace" (.string s) replacing =
          (do let parts ← apply "split" (.string s) splitting; apply "join" parts joining) := by
  constructor
  · intro splitting joining same
    have separator_eq : text? splitting 0 = text? joining 0 := by rw [text?, text?, same]
    rw [split_join, separator_eq, intercalate_partsOf, Value.ofChars, String.ofList_toList]
  · intro replacing splitting joining pattern replacement found visible put parted joined
    have nonempty : pattern.render.toList ≠ [] := by simpa using visible
    rw [split_join, text?_of_slot? parted, text?_of_slot? joined,
      apply_replace s (text?_of_slot? found) nonempty (text?_of_slot? put)]
    rfl

/-- Occurrences that overlap: the second one begins behind the first. -/
theorem split_join_replace_overlapping :
    (Value.string "aa").render ≠ "" ∧
      apply "split" (.string "aaaba") { positional := [some (.string "aa")] } =
        .ok (.array [.string "", .string "aba"]) ∧
      (do
        let parts ← apply "split" (.string "aaaba") { positional := [some (.string "aa")] }
        apply "join" parts { positional := [some (.string "aa")] }) = .ok (.string "aaaba") ∧
      apply "replace" (.string "aaaba")
          { positional := [some (.string "aa"), some (.ofInt 7)] } =
        (do
          let parts ← apply "split" (.string "aaaba") { positional := [some (.string "aa")] }
          apply "join" parts { positional := [some (.ofInt 7)] }) := by
  obtain ⟨restored, replaced⟩ := split_join_replace "aaaba"
  have visible : (Value.string "aa").render ≠ "" := by decide
  refine ⟨visible, by with_unfolding_all rfl, restored _ _ rfl, ?_⟩
  exact replaced _ _ _ _ _ rfl visible rfl rfl rfl

end Operation

end Stencil
