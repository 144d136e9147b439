/-
# Sections of the configuration

A filter finds its section under a dotted path.  The path is handed on as a pointer, in which a
slash separates steps as the dot does, and `~0` and `~1` are escapes.  Nobody escapes the keys, so a
key with one of these is not looked up as it is written.

* `section?_eq_under?`: in objects, a section is found by following the steps that the keys are
  read as (`steps`), one after another;
* `flatMap_steps_eq_iff`: these are the keys themselves exactly if no key has a slash or an escape
  (`Verbatim`);
* `section?_eq_under?_iff`: exactly then each configuration gives what it holds under the keys.
-/
import Stencil.Engine.Options
import Stencil.Proofs.Separators

namespace Stencil

/-! ## 1. Splitting at a character -/

namespace Text

theorem freeUpTo_singleton {c : Char} {front behind : List Char} :
    FreeUpTo [c] front.length (front ++ behind) ↔ c ∉ front := by
  constructor
  · intro free mem
    obtain ⟨i, inside, rfl⟩ := List.mem_iff_getElem.1 mem
    refine free i inside ?_
    rw [List.drop_append_of_le_length inside.le, List.drop_eq_getElem_cons inside]
    exact List.prefix_append [_] _
  · intro absent i inside at'
    rw [List.drop_append_of_le_length inside.le, List.drop_eq_getElem_cons inside,
      List.cons_append, List.cons_prefix_cons] at at'
    exact absent (at'.1 ▸ List.getElem_mem inside)

theorem freeUpTo_length_singleton {c : Char} {cs : List Char} :
    FreeUpTo [c] cs.length cs ↔ c ∉ cs := by
  have appended := @freeUpTo_singleton c cs []
  rwa [List.append_nil] at appended

/-- The parts of two texts with a separator between them. -/
theorem Parted.append {c : Char} {front behind : List Char} {parts later : List (List Char)}
    (h : Parted [c] front parts) (h' : Parted [c] behind later) :
    Parted [c] (front ++ ([c] ++ behind)) (parts ++ later) := by
  induction h with
  | last absent =>
    exact .part (freeUpTo_singleton.2 (freeUpTo_length_singleton.1 absent)) h'
  | @part part behind parts first rest ih =>
    rw [List.append_assoc, List.append_assoc]
    exact .part (freeUpTo_singleton.2 (freeUpTo_singleton.1 first)) ih

theorem splitOn_append (c : Char) (front behind : List Char) :
    splitOn [c] (front ++ ([c] ++ behind)) = splitOn [c] front ++ splitOn [c] behind := by
  have nonempty : [c] ≠ [] := List.cons_ne_nil _ _
  exact (parted_iff nonempty).1
    ((parted_splitOn nonempty front).append (parted_splitOn nonempty behind))

/-- **Texts that are joined are split one by one.** -/
theorem splitOn_intercalate (c : Char) {parts : List (List Char)} (nonempty : parts ≠ []) :
    splitOn [c] ([c].intercalate parts) = parts.flatMap (splitOn [c]) := by
  induction parts with
  | nil => exact absurd rfl nonempty
  | cons part parts ih =>
    cases parts with
    | nil => simp
    | cons next parts =>
      have later := List.cons_ne_nil next parts
      rw [intercalate_cons _ _ later, splitOn_append, ih later, ← List.flatMap_cons]

/-! ## 2. Replacing by something shorter -/

variable {needle replacement cs : List Char}

/-- Each replacement makes a text shorter. -/
theorem Parted.length_le {parts : List (List Char)} (shorter : replacement.length < needle.length)
    (h : Parted needle cs parts) :
    (replacement.intercalate parts).length + parts.length ≤ cs.length + 1 := by
  induction h with
  | last absent => simp
  | part first rest ih =>
    rw [intercalate_cons _ _ rest.ne_nil]
    simp only [List.length_append, List.length_cons]
    omega

theorem length_replaceAll_le (shorter : replacement.length < needle.length) :
    (replaceAll needle replacement cs).length ≤ cs.length := by
  have nonempty : needle ≠ [] := by
    rintro rfl
    simp at shorter
  have parted := parted_splitOn nonempty cs
  have bound := parted.length_le shorter
  have positive := List.length_pos_of_ne_nil parted.ne_nil
  rw [replaceAll_eq nonempty]
  omega

theorem freeUpTo_length_iff (nonempty : needle ≠ []) :
    FreeUpTo needle cs.length cs ↔ ¬ needle <:+: cs := by
  constructor
  · rintro free ⟨front, behind, rfl⟩
    have := List.length_pos_of_ne_nil nonempty
    refine free front.length (by simp; omega) ?_
    rw [List.append_assoc, List.drop_left]
    exact List.prefix_append ..
  · intro absent i inside at'
    exact absent (at'.isInfix.trans (List.drop_suffix i cs).isInfix)

/-- **A text does not get shorter exactly if there is nothing to replace**, and then it stays as it
is. -/
theorem le_length_replaceAll_iff (shorter : replacement.length < needle.length) :
    cs.length ≤ (replaceAll needle replacement cs).length ↔ ¬ needle <:+: cs := by
  have nonempty : needle ≠ [] := by
    rintro rfl
    simp at shorter
  have parted := parted_splitOn nonempty cs
  rw [← freeUpTo_length_iff nonempty]
  constructor
  · intro long
    have bound := parted.length_le shorter
    rw [replaceAll_eq nonempty] at long
    generalize splitOn needle cs = parts at parted bound long
    cases parted with
    | last absent => exact absent
    | part first rest =>
      have := List.length_pos_of_ne_nil rest.ne_nil
      simp only [List.length_cons] at bound
      omega
  · intro absent
    rw [replaceAll, replaceFrom_absent absent]
    simp

theorem replaceAll_of_absent (nonempty : needle ≠ []) (absent : ¬ needle <:+: cs) :
    replaceAll needle replacement cs = cs := by
  rw [replaceAll, replaceFrom_absent ((freeUpTo_length_iff nonempty).2 absent)]
  rfl

end Text

namespace Value

open Stencil.Text

/-! ## 3. Keys as steps -/

theorem length_unescapeStep_le (step : List Char) : (unescapeStep step).length ≤ step.length :=
  Nat.le_trans (length_replaceAll_le (by decide)) (length_replaceAll_le (by decide))

/-- A step without escapes is what it is. -/
theorem unescapeStep_eq_iff {step : List Char} :
    unescapeStep step = step ↔ ¬ ['~', '0'] <:+: step ∧ ¬ ['~', '1'] <:+: step := by
  constructor
  · intro same
    have long : (unescapeStep step).length ≤ (replaceAll ['~', '1'] ['/'] step).length :=
      length_replaceAll_le (by simp)
    rw [same] at long
    have noSlash : ¬ ['~', '1'] <:+: step := (le_length_replaceAll_iff (by simp)).1 long
    rw [unescapeStep, replaceAll_of_absent (by simp) noSlash] at same
    have long' : step.length ≤ (replaceAll ['~', '0'] ['~'] step).length := by rw [same]
    exact ⟨(le_length_replaceAll_iff (by simp)).1 long', noSlash⟩
  · rintro ⟨noTilde, noSlash⟩
    rw [unescapeStep, replaceAll_of_absent (by simp) noSlash,
      replaceAll_of_absent (by simp) noTilde]

/-- The steps that a key is read as. -/
def steps (key : String) : List String :=
  (splitOn ['/'] key.toList).map fun step => String.ofList (unescapeStep step)

/-- A key without slashes and escapes. -/
def Verbatim (key : String) : Prop :=
  '/' ∉ key.toList ∧ ¬ ['~', '0'] <:+: key.toList ∧ ¬ ['~', '1'] <:+: key.toList

instance : DecidablePred Verbatim := fun key =>
  inferInstanceAs (Decidable ('/' ∉ key.toList ∧ _ ∧ _))

theorem Verbatim.steps_eq {key : String} (h : Verbatim key) : steps key = [key] := by
  have whole : splitOn ['/'] key.toList = [key.toList] :=
    (parted_iff (List.cons_ne_nil _ _)).1 (.last (freeUpTo_length_singleton.2 h.1))
  rw [steps, whole, List.map_singleton, unescapeStep_eq_iff.2 h.2, String.ofList_toList]

/-- A key that is its own first step has no other ones: the steps of a key are not longer than the
parts between its slashes. -/
theorem verbatim_of_head?_steps {key : String} (first : (steps key).head? = some key) :
    Verbatim key := by
  have parted := parted_splitOn (List.cons_ne_nil '/' []) key.toList
  have same : (splitOn ['/'] key.toList).head?.map unescapeStep = some key.toList := by
    rw [steps, List.head?_map, Option.map_eq_some_iff] at first
    obtain ⟨part, head, eq⟩ := first
    rw [head, Option.map_some, ← eq, String.toList_ofList]
  unfold Verbatim
  generalize key.toList = cs, splitOn ['/'] key.toList = parts at parted same ⊢
  cases parted with
  | last absent =>
    exact ⟨freeUpTo_length_singleton.1 absent, unescapeStep_eq_iff.1 (Option.some.inj same)⟩
  | @part part behind parts free rest =>
    have bound := length_unescapeStep_le part
    rw [Option.some.inj same] at bound
    simp only [List.length_append, List.length_cons] at bound
    omega

theorem flatMap_steps_eq_iff {keys : List String} :
    keys.flatMap steps = keys ↔ ∀ key ∈ keys, Verbatim key := by
  induction keys with
  | nil => simp
  | cons key keys ih =>
    rw [List.forall_mem_cons, ← ih, List.flatMap_cons]
    constructor
    · intro same
      have first : (steps key).head? = some key := by
        have nonempty : steps key ≠ [] := by
          have parted := parted_splitOn (List.cons_ne_nil '/' []) key.toList
          simpa [steps] using parted.ne_nil
        rw [← List.head?_append_of_ne_nil _ nonempty, same, List.head?_cons]
      have verbatim := verbatim_of_head?_steps first
      rw [verbatim.steps_eq] at same
      exact ⟨verbatim, (List.cons.inj same).2⟩
    · rintro ⟨verbatim, same⟩
      rw [verbatim.steps_eq, same, List.singleton_append]

/-! ## 4. Looking up in objects -/

/-- What a value holds under keys that are followed one after another. -/
def under? (v : Value) : (keys : List String) → Option Value
  | [] => some v
  | key :: keys => (v.fields?.bind (Keyed.find? key)).bind fun inner => inner.under? keys

/-- A value made of objects and scalars, without lists. -/
inductive Listless : Value → Prop
  | null : Listless .null
  | bool (value : Bool) : Listless (.bool value)
  | number (value : Number) : Listless (.number value)
  | string (text : String) : Listless (.string text)
  | object {fields : Fields} (ordered : Keyed.Ordered fields)
      (inner : ∀ member ∈ fields, Listless member.2) : Listless (.object fields)

/-- In objects, steps are followed as keys. -/
theorem follow_eq_under? {v : Value} (h : v.Listless) (path : List (List Char)) :
    v.follow path = v.under? (path.map fun step => String.ofList (unescapeStep step)) := by
  induction path generalizing v with
  | nil => rfl
  | cons step path ih =>
    cases h with
    | object ordered inner =>
      rename_i fields
      rw [follow, List.map_cons, under?, fields?, Option.bind_some]
      cases found : Keyed.find? (String.ofList (unescapeStep step)) fields with
      | none => rfl
      | some v => exact ih (inner _ (Keyed.mem_of_find? found))
    | _ => rfl

/-- A dotted path with slashes for its dots. -/
theorem map_intercalate_dot {parts : List (List Char)} (undotted : ∀ part ∈ parts, '.' ∉ part) :
    (['.'].intercalate parts).map (fun c => if c == '.' then '/' else c) =
      ['/'].intercalate parts := by
  have unchanged : ∀ part : List Char, '.' ∉ part →
      part.map (fun c => if c == '.' then '/' else c) = part := by
    intro part absent
    refine (List.map_congr_left fun c mem => ?_).trans (List.map_id part)
    exact if_neg (by simpa using fun same : c = '.' => absent (same ▸ mem))
  induction parts with
  | nil => rfl
  | cons part parts ih =>
    obtain ⟨here, later⟩ := List.forall_mem_cons.1 undotted
    cases parts with
    | nil => simpa using unchanged part here
    | cons next parts =>
      have nonempty := List.cons_ne_nil next parts
      rw [intercalate_cons _ _ nonempty, intercalate_cons _ _ nonempty, List.map_append,
        List.map_append, unchanged part here, ih later]
      rfl

/-- **A section is found by following the steps of its keys.** -/
theorem section?_eq_under? {config : Value} (h : config.Listless) {keys : List String}
    (nonempty : keys ≠ []) (components : ∀ key ∈ keys, key ≠ "" ∧ '.' ∉ key.toList) :
    config.section? (".".intercalate keys) = config.under? (keys.flatMap steps) := by
  have visible : (".".intercalate keys).isEmpty = false := by
    obtain ⟨key, later, rfl⟩ := List.exists_cons_of_ne_nil nonempty
    have first : key ≠ "" := (components key (List.mem_cons_self ..)).1
    rw [String.isEmpty_eq_false_iff, ← String.toList_inj.ne, String.toList_intercalate]
    cases later with
    | nil => simpa using first
    | cons next later => simp [List.intercalate_cons_cons, first]
  have undotted : ∀ part ∈ keys.map String.toList, '.' ∉ part := by
    intro part mem
    obtain ⟨key, inside, rfl⟩ := List.mem_map.1 mem
    exact (components key inside).2
  have path : (".".intercalate keys).toList.map (fun c => if c == '.' then '/' else c) =
      ['/'].intercalate (keys.map String.toList) := by
    rw [String.toList_intercalate]
    exact map_intercalate_dot undotted
  rw [section?, visible, if_neg Bool.false_ne_true]
  simp only [path]
  rw [splitOn_intercalate _ (by simpa using nonempty), follow_eq_under? h, List.map_flatMap,
    List.flatMap_map]
  rfl

/-! ## 5. Telling keys apart -/

/-- An object that holds nothing but null, under keys that are followed one after another. -/
def nested (keys : List String) : Value :=
  keys.foldr (fun key inner => .object [(key, inner)]) .null

theorem listless_nested (keys : List String) : (nested keys).Listless := by
  induction keys with
  | nil => exact .null
  | cons key keys ih =>
    refine .object (List.pairwise_singleton _ _) fun member mem => ?_
    cases List.mem_singleton.1 mem
    exact ih

/-- It is null under these keys only. -/
theorem under?_nested {keys path : List String} :
    (nested keys).under? path = some .null ↔ path = keys := by
  induction keys generalizing path with
  | nil =>
    cases path with
    | nil => simp [nested, under?]
    | cons step path => simp [nested, under?, fields?]
  | cons key keys ih =>
    cases path with
    | nil => simp [nested, under?]
    | cons step path =>
      have inner : (nested (key :: keys)).fields? = some [(key, nested keys)] := rfl
      rw [under?, inner, Option.bind_some, List.cons.injEq]
      by_cases here : key = step
      · simp [Keyed.find?, here, ih]
      · simp [Keyed.find?, here, Ne.symm here]

/-- **A dotted path finds what the configuration holds under its keys**, in every configuration of
objects and scalars, exactly if no key has a slash or an escape of pointers.  The keys are any
others that are not empty and have no dot. -/
theorem section?_eq_under?_iff {keys : List String} (nonempty : keys ≠ [])
    (components : ∀ key ∈ keys, key ≠ "" ∧ '.' ∉ key.toList) :
    (∀ config : Value, config.Listless →
        config.section? (".".intercalate keys) = config.under? keys) ↔
      ∀ key ∈ keys, Verbatim key := by
  rw [← flatMap_steps_eq_iff]
  constructor
  · intro found
    have here := found (nested keys) (listless_nested keys)
    rw [section?_eq_under? (listless_nested keys) nonempty components,
      under?_nested.2 rfl, under?_nested] at here
    exact here
  · intro same config listless
    rw [section?_eq_under? listless nonempty components, same]

/-- Keys with a blank, a tilde that escapes nothing, and a character of two bytes. -/
theorem section?_eq_under?_tilde :
    let keys := ["a b", "~2~", "é"]
    let config : Value := .object [("a b", .object [("~2~", .object [("é", .bool true)])])]
    keys ≠ [] ∧ (∀ key ∈ keys, key ≠ "" ∧ '.' ∉ key.toList) ∧ config.Listless ∧
      (∀ key ∈ keys, Verbatim key) ∧
      config.section? (".".intercalate keys) = some (.bool true) := by
  intro keys config
  have components : ∀ key ∈ keys, key ≠ "" ∧ '.' ∉ key.toList := by decide
  have verbatim : ∀ key ∈ keys, Verbatim key := by decide
  have single {key : String} {v : Value} (h : v.Listless) : (Value.object [(key, v)]).Listless :=
    .object (List.pairwise_singleton _ _) fun _ mem => List.mem_singleton.1 mem ▸ h
  have listless : config.Listless := single (single (single (.bool true)))
  have held : config.under? keys = some (.bool true) := rfl
  refine ⟨List.cons_ne_nil _ _, components, listless, verbatim, ?_⟩
  rw [(section?_eq_under?_iff (List.cons_ne_nil _ _) components).2 verbatim config listless, held]

/-- A key with a slash is looked up as two. -/
theorem slash_divides :
    let config : Value := .object [("a/b", .bool true)]
    config.Listless ∧ config.section? (".".intercalate ["a/b"]) = none ∧
      config.under? ["a/b"] = some (.bool true) := by
  intro config
  have listless : config.Listless :=
    .object (List.pairwise_singleton _ _) fun _ mem => List.mem_singleton.1 mem ▸ .bool true
  exact ⟨listless, by with_unfolding_all rfl, rfl⟩

end Value

end Stencil
