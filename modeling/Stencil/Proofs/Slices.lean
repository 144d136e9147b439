/-
# Slices

A slice of a list or of a text is given by two offsets, either of which may be missing, negative,
beyond the end or behind the other.

* `slice_eq_within`: whatever the offsets are, the slice has the items at the positions from the one
  offset to the other, both clamped to the length (`position`, `within`);
* `slice?_eq_some`: no step on the way leaves the signed words of 64 bits, and no item is asked for
  that is not there, so that the computation that checks both (`slice?`) never fails;
* `slice_append_slice`: two slices that meet are the whole;
* `slice_operations`: this is what the operation does to lists and to texts, and to a text as to the
  list of its characters.
-/
import Stencil.Proofs.Separators

namespace Stencil.Operation

/-! ## 1. Offsets in words -/

/-- The integer is a signed word of 64 bits. -/
def IsWord (i : Int) : Prop := Binary64.leastInteger ≤ i ∧ i ≤ Binary64.greatestInteger

instance (i : Int) : Decidable (IsWord i) := inferInstanceAs (Decidable (_ ∧ _))

theorem isWord_toInteger (x : Binary64) : IsWord x.toInteger := by
  have least : Binary64.leastInteger ≤ 0 := by decide
  have greatest : 0 ≤ Binary64.greatestInteger := by decide
  cases x with
  | nan => exact ⟨least, greatest⟩
  | infinite negative => cases negative <;> simp only [Binary64.toInteger, IsWord] <;> decide
  | finite negative mantissa exponent =>
    simp only [Binary64.toInteger, Binary64.truncated?, IsWord]
    omega

/-- What a call gives as an offset is a word. -/
theorem isWord_of_integer? {args : Arguments} {index : Nat} {i : Int}
    (h : integer? args index = some i) : IsWord i := by
  obtain ⟨x, -, rfl⟩ := Option.map_eq_some_iff.1 h
  exact isWord_toInteger x

/-- An integer, if it is a word. -/
def word? (i : Int) : Option Int := if IsWord i then some i else none

theorem word?_of_isWord {i : Int} (h : IsWord i) : word? i = some i := if_pos h

/-- An offset into something of a given length, if all that is computed for it are words. -/
def offset? (length : Nat) (i : Int) : Option Nat :=
  if i < 0 then do
    let size ← word? length
    let sum ← word? (size + i)
    some (max sum 0).toNat
  else some (min i.toNat length)

theorem offset?_eq_some {length : Nat} (fits : (length : Int) ≤ Binary64.greatestInteger)
    {i : Int} (word : IsWord i) : offset? length i = some (offset length i) := by
  have least : Binary64.leastInteger ≤ 0 := by decide
  unfold offset? offset
  split
  · have size : word? length = some (length : Int) := word?_of_isWord ⟨by omega, fits⟩
    have sum : word? (length + i) = some (length + i) :=
      word?_of_isWord ⟨by have := word.1; omega, by omega⟩
    simp only [size, sum, Option.bind_eq_bind, Option.bind_some, Option.some_inj]
    omega
  · rfl

/-! ## 2. Clamped positions -/

/-- The position that an offset points to, counted from the end if it is negative, and clamped to
the length. -/
def position (length : Nat) (i : Int) : Nat :=
  (max 0 (min (length : Int) (if i < 0 then length + i else i))).toNat

theorem offset_eq_position (length : Nat) (i : Int) : offset length i = position length i := by
  unfold offset position
  split <;> omega

theorem offset_le (length : Nat) (i : Int) : offset length i ≤ length := by
  unfold offset
  split <;> omega

variable {α β : Type}

/-- The items whose positions are between the places of two offsets, without offsets between the
start and the end. -/
def within (items : List α) (start stop : Option Int) : List α :=
  let first := (start.map (position items.length)).getD 0
  let last := (stop.map (position items.length)).getD items.length
  (items.zipIdx.filter fun item => first ≤ item.2 ∧ item.2 < last).map Prod.fst

theorem map_fst_filter_zipIdx (items : List α) (first last start : Nat) :
    ((items.zipIdx start).filter fun item => first ≤ item.2 ∧ item.2 < last).map Prod.fst =
      (items.drop (first - start)).take (last - max first start) := by
  induction items generalizing start with
  | nil => simp
  | cons item items ih =>
    rw [List.zipIdx_cons, List.filter_cons]
    by_cases early : start < first
    · -- in front of the slice
      have skipped : first - start = first - (start + 1) + 1 := by omega
      have later : max first (start + 1) = max first start := by omega
      rw [if_neg (by simp [early]), ih, skipped, List.drop_succ_cons, later]
    · have start_eq : first - start = 0 := by omega
      have start_eq' : first - (start + 1) = 0 := by omega
      have latest : max first start = start := by omega
      have latest' : max first (start + 1) = start + 1 := by omega
      rw [start_eq, latest, List.drop_zero]
      by_cases inside : start < last
      · have taken : last - start = last - (start + 1) + 1 := by omega
        have selected : first ≤ start ∧ start < last := ⟨Nat.le_of_not_lt early, inside⟩
        rw [if_pos (decide_eq_true selected), List.map_cons, ih, start_eq', latest', taken,
          List.take_succ_cons, List.drop_zero]
      · -- behind the slice
        have nothing : last - start = 0 := by omega
        have nothing' : last - (start + 1) = 0 := by omega
        rw [if_neg (by simp [inside]), ih, latest', nothing, nothing', List.take_zero,
          List.take_zero]

theorem slice_eq (items : List α) (start stop : Option Int) :
    slice items start stop =
      let first := (start.map (offset items.length)).getD 0
      let last := (stop.map (offset items.length)).getD items.length
      (items.drop first).take (last - first) := by
  simp only [slice, span]
  congr 1
  omega

/-- **A slice has exactly the items between its offsets**, clamped. -/
theorem slice_eq_within (items : List α) (start stop : Option Int) :
    slice items start stop = within items start stop := by
  have same : offset items.length = position items.length :=
    funext fun i => offset_eq_position items.length i
  rw [slice_eq, within, map_fst_filter_zipIdx]
  simp [same]

/-- An offset that may be missing, computed with checks. -/
theorem elim_offset? {length : Nat} (fits : (length : Int) ≤ Binary64.greatestInteger)
    (default : Nat) {i? : Option Int} (word : ∀ i ∈ i?, IsWord i) :
    i?.elim (some default) (offset? length) = some ((i?.map (offset length)).getD default) := by
  cases i? with
  | none => rfl
  | some i => exact offset?_eq_some fits (word i rfl)

theorem getD_offset_le {length default : Nat} (le : default ≤ length) (i? : Option Int) :
    (i?.map (offset length)).getD default ≤ length := by
  cases i? with
  | none => exact le
  | some i => exact offset_le length i

/-- A slice computed with checks: every offset in words, and the items taken from positions that are
in order and within the list. -/
def slice? (items : List α) (start stop : Option Int) : Option (List α) := do
  let first ← start.elim (some 0) (offset? items.length)
  let last ← stop.elim (some items.length) (offset? items.length)
  let last := max last first
  if first ≤ last ∧ last ≤ items.length then some ((items.drop first).take (last - first))
  else none

/-- **No check of a slice fails**, if the offsets are words and so is the length. -/
theorem slice?_eq_some {items : List α} (fits : (items.length : Int) ≤ Binary64.greatestInteger)
    {start stop : Option Int} (start_word : ∀ i ∈ start, IsWord i)
    (stop_word : ∀ i ∈ stop, IsWord i) :
    slice? items start stop = some (slice items start stop) := by
  have first := elim_offset? fits 0 start_word
  have last := elim_offset? fits items.length stop_word
  have first_le := getD_offset_le (Nat.zero_le items.length) start
  have last_le := getD_offset_le (Nat.le_refl items.length) stop
  simp only [slice?, first, last, Option.bind_eq_bind, Option.bind_some]
  rw [if_pos ⟨Nat.le_max_right .., Nat.max_le.2 ⟨last_le, first_le⟩⟩]
  rfl

/-! ## 3. Slices of slices and of images -/

/-- **Two slices that meet are the whole.** -/
theorem slice_append_slice (items : List α) (i : Int) :
    slice items (some 0) (some i) ++ slice items (some i) none = items := by
  have front : slice items (some 0) (some i) = items.take (offset items.length i) := by
    simp [slice_eq, offset]
  have behind : slice items (some i) none = items.drop (offset items.length i) := by
    simp [slice_eq, List.take_of_length_le]
  rw [front, behind, List.take_append_drop]

theorem slice_map (f : α → β) (items : List α) (start stop : Option Int) :
    slice (items.map f) start stop = (slice items start stop).map f := by
  simp only [slice, List.length_map, List.map_drop, List.map_take]

/-! ## 4. The operations -/

theorem apply_slice_array (items : List Value) (args : Arguments) :
    apply "slice" (.array items) args =
      .ok (.array (slice items (integer? args 0) (integer? args 1))) := rfl

theorem apply_slice_string (s : String) (args : Arguments) :
    apply "slice" (.string s) args =
      .ok (.ofChars (slice s.toList (integer? args 0) (integer? args 1))) := rfl

/-- The arguments of a call with the empty text in its only slot. -/
def emptySeparator : Arguments := { positional := [some (.string "")] }

/-- A text sliced as the list of its characters. -/
theorem slice_characters (s : String) (args : Arguments) :
    (do
      let characters ← apply "split" (.string s) emptySeparator
      let part ← apply "slice" characters args
      apply "join" part emptySeparator) = apply "slice" (.string s) args := by
  have characters : apply "split" (.string s) emptySeparator =
      .ok (.array ((s.toList.map ([·])).map Value.ofChars)) := rfl
  have part : apply "slice" (.array ((s.toList.map ([·])).map Value.ofChars)) args =
      .ok (.array
        (((slice s.toList (integer? args 0) (integer? args 1)).map ([·])).map Value.ofChars)) := by
    rw [apply_slice_array, slice_map, slice_map]
  have joined (parts : List (List Char)) :
      apply "join" (.array (parts.map Value.ofChars)) emptySeparator =
        .ok (.ofChars ([].intercalate parts)) :=
    join_ofChars parts emptySeparator
  simp only [characters, part, joined, bind, Except.bind]
  rw [intercalate_empty, ← List.flatMap_def, List.flatMap_singleton', apply_slice_string]

theorem toInteger_zero : (Binary64.ofInt 0).toInteger = 0 := by
  decide +kernel

/-- The start of a call that gives zero and an end. -/
theorem integer?_zero (cut : Value) :
    integer? { positional := [some (.ofInt 0), some cut] } 0 = some 0 :=
  congrArg some toInteger_zero

/-- **What slicing does.**  For any two offsets it gives the items, or the characters, at the
positions between them, and the computation in words of 64 bits does not fail.  A slice of a text is
that of the list of its characters, and the slices up to an offset and from it on are the whole. -/
theorem slice_operations (items : List Value) (s : String) (args : Arguments) :
    let start := integer? args 0
    let stop := integer? args 1
    apply "slice" (.array items) args = .ok (.array (within items start stop)) ∧
      apply "slice" (.string s) args = .ok (.ofChars (within s.toList start stop)) ∧
      ((items.length : Int) ≤ Binary64.greatestInteger →
        slice? items start stop = some (within items start stop)) ∧
      ((s.toList.length : Int) ≤ Binary64.greatestInteger →
        slice? s.toList start stop = some (within s.toList start stop)) ∧
      (do
        let characters ← apply "split" (.string s) emptySeparator
        let part ← apply "slice" characters args
        apply "join" part emptySeparator) = apply "slice" (.string s) args ∧
      ∀ cut i, integer? { positional := [some cut] } 0 = some i →
        (∃ front behind,
          apply "slice" (.array items) { positional := [some (.ofInt 0), some cut] } =
              .ok (.array front) ∧
            apply "slice" (.array items) { positional := [some cut] } = .ok (.array behind) ∧
            front ++ behind = items) ∧
          ∃ front behind,
            apply "slice" (.string s) { positional := [some (.ofInt 0), some cut] } =
                .ok (.string front) ∧
              apply "slice" (.string s) { positional := [some cut] } = .ok (.string behind) ∧
              front ++ behind = s := by
  intro start stop
  have words : (∀ i ∈ start, IsWord i) ∧ ∀ i ∈ stop, IsWord i :=
    ⟨fun _ => isWord_of_integer?, fun _ => isWord_of_integer?⟩
  refine ⟨?_, ?_, ?_, ?_, slice_characters s args, ?_⟩
  · rw [apply_slice_array, slice_eq_within]
  · rw [apply_slice_string, slice_eq_within]
  · intro fits
    rw [slice?_eq_some fits words.1 words.2, slice_eq_within]
  · intro fits
    rw [slice?_eq_some fits words.1 words.2, slice_eq_within]
  · intro cut i at'
    have second : integer? { positional := [some (.ofInt 0), some cut] } 1 = some i := at'
    have missing : integer? { positional := [some cut] } 1 = none := rfl
    refine ⟨⟨_, _, apply_slice_array _ _, apply_slice_array _ _, ?_⟩,
      ⟨_, _, apply_slice_string _ _, apply_slice_string _ _, ?_⟩⟩
    · rw [integer?_zero, second, at', missing, slice_append_slice]
    · rw [integer?_zero, second, at', missing, ← String.ofList_append, slice_append_slice,
        String.ofList_toList]

/-- The least word as the start, and an end counted from the end. -/
theorem slice_operations_extreme :
    let items := [Value.null, .bool true, .bool false]
    let args : Arguments :=
      { positional := [some (.ofInt (-9223372036854775808)), some (.ofInt (-1))] }
    integer? args 0 = some Binary64.leastInteger ∧ integer? args 1 = some (-1) ∧
      apply "slice" (.array items) args = .ok (.array [.null, .bool true]) ∧
      (items.length : Int) ≤ Binary64.greatestInteger ∧
      slice? items (integer? args 0) (integer? args 1) = some [.null, .bool true] ∧
      integer? { positional := [some (.ofInt (-1))] } 0 = some (-1) ∧
      ∃ front behind,
        apply "slice" (.array items) { positional := [some (.ofInt 0), some (.ofInt (-1))] } =
            .ok (.array front) ∧
          apply "slice" (.array items) { positional := [some (.ofInt (-1))] } =
            .ok (.array behind) ∧
          front ++ behind = items := by
  intro items args
  have start : integer? args 0 = some Binary64.leastInteger :=
    congrArg some (by decide +kernel : (Binary64.ofInt _).toInteger = Binary64.leastInteger)
  have one : (Binary64.ofInt (-1)).toInteger = -1 := by decide +kernel
  have stop : integer? args 1 = some (-1) := congrArg some one
  have fits : (items.length : Int) ≤ Binary64.greatestInteger := by decide
  obtain ⟨sliced, -, checked, -, -, cut⟩ := slice_operations items "" args
  rw [start, stop] at sliced checked
  have part : within items (some Binary64.leastInteger) (some (-1)) = [.null, .bool true] := rfl
  rw [part] at sliced checked
  have last : integer? { positional := [some (.ofInt (-1))] } 0 = some (-1) := congrArg some one
  refine ⟨start, stop, sliced, fits, ?_, last, (cut _ _ last).1⟩
  rw [start, stop]
  exact checked fits

end Stencil.Operation
