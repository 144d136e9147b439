/-
# The limit on generated text

Repeating and padding refuse to generate too much text.  The limit is one of bytes.  Repeating
compares the bytes of its result with it, exactly.  Padding compares the width that it is asked for,
which counts characters, and a character may take up to four bytes.

* `repeat_eq_ok_iff`: when repeating succeeds, and with what;
* `padded_eq_ok_iff`, `mem_cycle`: when padding succeeds, and which characters it adds;
* `generated_bounded_iff`: repeated text keeps to the limit; padded text keeps to it, whatever the
  width is, exactly for the texts and fills whose characters take one byte each, and where there is
  nothing to pad.
-/
import Mathlib
import Stencil.Operation.Table

namespace Stencil.Operation

open Stencil.Text

/-! ## 1. Counts within the limit -/

/-- What is made with a count, if what the count asks for is within the limit. -/
theorem limited_eq_ok_iff {α : Type} {args : Arguments} {index : Nat} {what : Count}
    {amount : Nat → Nat} {fault : Nat → Fault} {result : Nat → α} {a : α} :
    ((count args index what).bind fun n =>
        if outputLimit < amount n then .error (fault n) else .ok (result n)) = .ok a ↔
      ∃ n : Nat, integer? args index = some (n : Int) ∧ amount n ≤ outputLimit ∧ a = result n := by
  constructor
  · intro succeeds
    cases counted : count args index what with
    | error fault => simp [counted, Except.bind] at succeeds
    | ok n =>
      rw [counted] at succeeds
      simp only [Except.bind] at succeeds
      split at succeeds
      · cases succeeds
      · rename_i within
        cases succeeds
        exact ⟨n, count_eq_ok_iff.1 counted, Nat.le_of_not_lt within, rfl⟩
  · rintro ⟨n, given, within, rfl⟩
    have counted : count args index what = .ok n := count_eq_ok_iff.2 given
    simp only [counted, Except.bind]
    rw [if_neg (Nat.not_lt.2 within)]

/-- **Repeating succeeds exactly** if a count is given that is not negative, and the result is
within the limit. -/
theorem repeat_eq_ok_iff {cs : List Char} {args : Arguments} {v : Value} :
    «repeat» cs args = .ok v ↔
      ∃ times : Nat, integer? args 0 = some (times : Int) ∧
        byteLength cs * times ≤ outputLimit ∧ v = .ofChars (List.replicate times cs).flatten := by
  have unfolded : «repeat» cs args =
      (count args 0 .repetitions).bind fun times =>
        if outputLimit < byteLength cs * times then
          .error (.repeatTooLong (byteLength cs) times)
        else .ok (.ofChars (List.replicate times cs).flatten) := by
    unfold «repeat»
    congr 1
    funext times
    cases cs <;> simp
  rw [unfolded]
  exact limited_eq_ok_iff

/-- The text that a call pads with: its second argument, or else a blank. -/
def fillOf (args : Arguments) : List Char := (text? args 1).getD [' ']

/-- When something is added to a text by padding, and what is made of it. -/
theorem map_padding_eq_ok_iff {cs : List Char} {args : Arguments} {place : List Char → List Char}
    {v : Value} :
    ((padding cs args).map fun pad => Value.ofChars (place pad)) = .ok v ↔
      ∃ width : Nat, integer? args 0 = some (width : Int) ∧ width ≤ outputLimit ∧
        v = .ofChars (place (cycle (fillOf args) (width - cs.length))) := by
  have limited : ((padding cs args).map fun pad => Value.ofChars (place pad)) =
      (count args 0 .padWidth).bind fun width =>
        if outputLimit < width then .error (.padTooWide width)
        else .ok (.ofChars (place (cycle (fillOf args) (width - cs.length)))) := by
    unfold padding
    cases count args 0 .padWidth with
    | error fault => rfl
    | ok width =>
      simp only [bind, Except.bind]
      split <;> rfl
  rw [limited]
  exact limited_eq_ok_iff

theorem map_eq_bind {α : Type} {f : List Char → α} (e : Except Fault (List Char)) :
    (do let pad ← e; .ok (f pad)) = e.map f := by
  cases e <;> rfl

/-- Padding at the start puts what is missing in front of the text. -/
theorem apply_pad_start (s : String) (args : Arguments) : apply "pad_start" (.string s) args =
    (padding s.toList args).map fun pad => .ofChars (pad ++ s.toList) :=
  map_eq_bind _

/-- Padding at the end puts it behind the text. -/
theorem apply_pad_end (s : String) (args : Arguments) : apply "pad_end" (.string s) args =
    (padding s.toList args).map fun pad => .ofChars (s.toList ++ pad) :=
  map_eq_bind _

/-- **Padding succeeds exactly** if a width is given that is not negative, and is itself within the
limit.  What is added is put at one end of the text. -/
theorem padded_eq_ok_iff {name : String} (pads : name ∈ ["pad_start", "pad_end"]) (s : String) :
    ∃ place : List Char → List Char,
      (∀ pad, byteLength (place pad) = byteLength pad + byteLength s.toList) ∧
        ∀ args v, apply name (.string s) args = .ok v ↔
          ∃ width : Nat, integer? args 0 = some (width : Int) ∧ width ≤ outputLimit ∧
            v = .ofChars (place (cycle (fillOf args) (width - s.toList.length))) := by
  simp only [List.mem_cons, List.not_mem_nil, or_false] at pads
  rcases pads with rfl | rfl
  · refine ⟨fun pad => pad ++ s.toList, fun pad => byteLength_append .., fun args v => ?_⟩
    rw [apply_pad_start]
    exact map_padding_eq_ok_iff
  · refine ⟨fun pad => s.toList ++ pad, fun pad => ?_, fun args v => ?_⟩
    · rw [byteLength_append, Nat.add_comm]
    · rw [apply_pad_end]
      exact map_padding_eq_ok_iff

/-! ## 2. The text that is added -/

theorem cycle_nil (n : Nat) : cycle [] n = [] := rfl

theorem cycle_zero (fill : List Char) : cycle fill 0 = [] := by
  simp [cycle]

theorem length_cycle {fill : List Char} (nonempty : fill ≠ []) (n : Nat) :
    (cycle fill n).length = n := by
  have positive : 0 < fill.length := List.length_pos_of_ne_nil nonempty
  have enough : n ≤ (n / fill.length + 1) * fill.length := by
    rw [Nat.mul_comm]
    exact (Nat.lt_mul_div_succ n positive).le
  rw [cycle, if_neg (by simpa using nonempty), List.length_take]
  simpa using enough

/-- The added characters are those that the first round of the fill takes. -/
theorem mem_cycle {fill : List Char} {n : Nat} {c : Char} :
    c ∈ cycle fill n ↔ c ∈ fill.take n := by
  by_cases empty : fill = []
  · subst empty
    simp [cycle_nil]
  · have rounds : cycle fill n =
        (fill ++ (List.replicate (n / fill.length) fill).flatten).take n := by
      rw [cycle, if_neg (by simpa using empty), List.replicate_succ, List.flatten_cons]
    rw [rounds]
    by_cases short : n ≤ fill.length
    · rw [List.take_append_of_le_length short]
    · have whole : fill.take n = fill := List.take_of_length_le (Nat.le_of_not_le short)
      rw [whole]
      constructor
      · intro mem
        rcases List.mem_append.1 (List.mem_of_mem_take mem) with mem | mem
        · exact mem
        · obtain ⟨round, one, inside⟩ := List.mem_flatten.1 mem
          exact List.eq_of_mem_replicate one ▸ inside
      · intro mem
        rw [List.take_append, whole]
        exact List.mem_append_left _ mem

/-! ## 3. Where the limit is kept -/

/-- The bytes of a list of characters are those of the text it makes. -/
theorem utf8ByteSize_ofList (cs : List Char) :
    (String.ofList cs).utf8ByteSize = byteLength cs := by
  rw [String.utf8ByteSize_ofList]
  induction cs with
  | nil => rfl
  | cons c cs ih => rw [String.utf8Len_cons, ih, byteLength_cons, Nat.add_comm]

/-- A value is a text that keeps to the limit, or is no longer than the text it was made of. -/
def KeepsLimit (s : String) (v : Value) : Prop :=
  ∃ t : String, v = .string t ∧ t.utf8ByteSize ≤ max outputLimit s.utf8ByteSize

theorem keepsLimit_ofChars {s : String} {cs : List Char} :
    KeepsLimit s (.ofChars cs) ↔ byteLength cs ≤ max outputLimit s.utf8ByteSize := by
  unfold KeepsLimit
  constructor
  · rintro ⟨t, same, within⟩
    cases same
    rwa [utf8ByteSize_ofList] at within
  · intro within
    exact ⟨String.ofList cs, rfl, by rwa [utf8ByteSize_ofList]⟩

/-- Padding never adds anything, or the text and what is added to it have one byte for each
character, up to the width that is the limit. -/
def Padded.Single (limit : Nat) (fill cs : List Char) : Prop :=
  limit ≤ cs.length ∨ fill = [] ∨
    (∀ c ∈ cs, c.utf8Size = 1) ∧ ∀ c ∈ fill.take (limit - cs.length), c.utf8Size = 1

/-- If even the greatest width keeps the bytes within the limit, they are as many as the
characters. -/
theorem Padded.single_of_greatest {limit : Nat} {fill cs : List Char}
    (greatest : byteLength (cycle fill (limit - cs.length)) + byteLength cs ≤
      max limit (byteLength cs)) : Padded.Single limit fill cs := by
  by_cases long : limit ≤ cs.length
  · exact Or.inl long
  by_cases empty : fill = []
  · exact Or.inr (Or.inl empty)
  have added := length_cycle empty (limit - cs.length)
  have added_le := length_le_byteLength (cycle fill (limit - cs.length))
  have cs_le := length_le_byteLength cs
  have single : byteLength cs = cs.length := by omega
  have single' : byteLength (cycle fill (limit - cs.length)) =
      (cycle fill (limit - cs.length)).length := by omega
  refine Or.inr (Or.inr ⟨byteLength_eq_length_iff.1 single, ?_⟩)
  intro c mem
  exact byteLength_eq_length_iff.1 single' c (mem_cycle.2 mem)

/-- With one byte for each character, no width up to the limit exceeds it in bytes. -/
theorem Padded.Single.within {limit : Nat} {fill cs : List Char}
    (h : Padded.Single limit fill cs) {width : Nat} (width_le : width ≤ limit) :
    byteLength (cycle fill (width - cs.length)) + byteLength cs ≤ max limit (byteLength cs) := by
  rcases h with long | rfl | ⟨single, single'⟩
  · have nothing : width - cs.length = 0 := by omega
    rw [nothing, cycle_zero, byteLength_nil]
    omega
  · rw [cycle_nil, byteLength_nil]
    omega
  · have cs_eq := byteLength_eq_length_iff.2 single
    have added_eq : byteLength (cycle fill (width - cs.length)) =
        (cycle fill (width - cs.length)).length := by
      refine byteLength_eq_length_iff.2 ?_
      intro c mem
      exact single' c (List.take_subset_take_left fill (by omega) (mem_cycle.1 mem))
    have added_le : (cycle fill (width - cs.length)).length ≤ width - cs.length := by
      by_cases empty : fill = []
      · subst empty
        exact Nat.zero_le _
      · exact (length_cycle empty _).le
    omega

theorem integer?_outputLimit (slots : List Slot) :
    integer? { positional := some (.ofInt outputLimit) :: slots } 0 = some (outputLimit : Int) :=
  congrArg some (by decide +kernel : (Binary64.ofInt outputLimit).toInteger = outputLimit)

/-- **Where the limit on generated text is kept.**  Repeating succeeds exactly when its result is
within the limit.  Padding a text with a given fill keeps to the limit for every width exactly if
the text is longer than any width, the fill is empty, or each character of the text and of the
fill, as far as it is used, takes one byte. -/
theorem generated_bounded_iff (s : String) :
    (∀ args, (∃ v, apply "repeat" (.string s) args = .ok v) ↔
        ∃ n : Int, integer? args 0 = some n ∧ 0 ≤ n ∧ s.utf8ByteSize * n ≤ outputLimit) ∧
      (∀ args v, apply "repeat" (.string s) args = .ok v → KeepsLimit s v) ∧
      ∀ name ∈ ["pad_start", "pad_end"], ∀ fill : List Char,
        (∀ args v, fillOf args = fill → apply name (.string s) args = .ok v → KeepsLimit s v) ↔
          outputLimit ≤ s.length ∨ fill = [] ∨
            (∀ c ∈ s.toList, c.utf8Size = 1) ∧
              ∀ c ∈ fill.take (outputLimit - s.length), c.utf8Size = 1 := by
  have size : s.utf8ByteSize = byteLength s.toList := by
    rw [← utf8ByteSize_ofList, String.ofList_toList]
  have repeats (args : Arguments) : apply "repeat" (.string s) args = «repeat» s.toList args := rfl
  refine ⟨?_, ?_, ?_⟩
  · intro args
    simp only [repeats, repeat_eq_ok_iff, size]
    constructor
    · rintro ⟨v, times, given, within, rfl⟩
      exact ⟨times, given, Int.natCast_nonneg _, by exact_mod_cast within⟩
    · rintro ⟨n, given, nonneg, within⟩
      obtain ⟨times, rfl⟩ := Int.eq_ofNat_of_zero_le nonneg
      exact ⟨_, times, given, by exact_mod_cast within, rfl⟩
  · intro args v succeeds
    rw [repeats, repeat_eq_ok_iff] at succeeds
    obtain ⟨times, -, within, rfl⟩ := succeeds
    rw [keepsLimit_ofChars, byteLength_flatten_replicate]
    exact le_max_of_le_left within
  · intro name pads fill
    obtain ⟨place, place_size, succeeds_iff⟩ := padded_eq_ok_iff pads s
    rw [← String.length_toList]
    constructor
    · intro bounded
      -- the call that asks for the greatest width
      let args : Arguments := { positional := [some (.ofInt outputLimit), some (.ofChars fill)] }
      have filled : fillOf args = fill := Value.toList_render_ofChars fill
      have succeeds := (succeeds_iff args _).2
        ⟨outputLimit, integer?_outputLimit _, Nat.le_refl _, rfl⟩
      have kept := bounded args _ filled succeeds
      rw [filled, keepsLimit_ofChars, place_size, size] at kept
      exact Padded.single_of_greatest kept
    · rintro single args v rfl succeeds
      obtain ⟨width, -, width_le, rfl⟩ := (succeeds_iff args v).1 succeeds
      rw [keepsLimit_ofChars, place_size, size]
      exact Padded.Single.within single width_le

/-- A text of two bytes, padded with blanks to the greatest width, is one byte too long. -/
theorem padded_beyond_limit :
    ∃ v, apply "pad_end" (.string "é") { positional := [some (.ofInt 1048576)] } = .ok v ∧
      ¬ KeepsLimit "é" v := by
  obtain ⟨place, place_size, succeeds_iff⟩ :=
    padded_eq_ok_iff (by simp : "pad_end" ∈ ["pad_start", "pad_end"]) "é"
  refine ⟨_, (succeeds_iff _ _).2
    ⟨1048576, integer?_outputLimit [], Nat.le_refl _, rfl⟩, ?_⟩
  intro kept
  have added := length_cycle (List.cons_ne_nil ' ' []) (1048576 - 1)
  have added_le := length_le_byteLength (cycle [' '] (1048576 - 1))
  have text : byteLength "é".toList = 2 := by decide
  have size : "é".utf8ByteSize = 2 := by decide
  have filled : cycle (fillOf { positional := [some (.ofInt 1048576)] })
      (1048576 - "é".toList.length) = cycle [' '] (1048576 - 1) := rfl
  have limit : outputLimit = 1048576 := rfl
  rw [keepsLimit_ofChars, place_size, filled, text, size, limit] at kept
  omega

end Stencil.Operation
