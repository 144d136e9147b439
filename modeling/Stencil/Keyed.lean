/-
# Entries in the order of their keys

An association list whose keys increase strictly.  Members of an object and the filters of an engine
are kept this way: writing an entry replaces the one with the same key, and listing the entries
gives them sorted by key.

The laws of `insert`, `erase` and `adjust` are stated through `find?` (section 2), and each of them
keeps the keys in order (section 3).  Behind a `merge` a key holds what was written last under it
(section 4).
-/

namespace Stencil

/-- Entries by key, in increasing order of the keys. -/
abbrev Keyed (α : Type) := List (String × α)

namespace Keyed

variable {α : Type}

/-! ## 1. Operations -/

/-- The keys in order. -/
def keys (entries : Keyed α) : List String := entries.map Prod.fst

/-- The keys increase strictly. -/
def Ordered (entries : Keyed α) : Prop := entries.keys.Pairwise (· < ·)

/-- The value at a key. -/
def find? (key : String) : Keyed α → Option α
  | [] => none
  | (k, v) :: rest => if k = key then some v else find? key rest

/-- The entries with one more, which takes the place of an entry with the same key. -/
def insert (key : String) (value : α) : Keyed α → Keyed α
  | [] => [(key, value)]
  | (k, v) :: rest =>
    if k = key then (key, value) :: rest
    else if key < k then (key, value) :: (k, v) :: rest
    else (k, v) :: insert key value rest

/-- The entries without the one at a key. -/
def erase (key : String) : Keyed α → Keyed α
  | [] => []
  | (k, v) :: rest => if k = key then rest else (k, v) :: erase key rest

/-- The entries with the value at a key changed, if there is one. -/
def adjust (key : String) (change : α → α) : Keyed α → Keyed α
  | [] => []
  | (k, v) :: rest =>
    if k = key then (k, change v) :: rest else (k, v) :: adjust key change rest

/-- The entries of two lists; where both have a key, the second decides. -/
def merge (entries later : Keyed α) : Keyed α :=
  later.foldl (fun all entry => insert entry.1 entry.2 all) entries

/-- Pairs put in order; of two with the same key, the later one stays. -/
def ofList (pairs : List (String × α)) : Keyed α := merge [] pairs

/-! ## 2. What a look-up finds -/

@[simp] theorem find?_nil (key : String) : find? key ([] : Keyed α) = none := rfl

/-- **The last write wins**, and other keys keep their values. -/
theorem find?_insert (key key' : String) (value : α) (entries : Keyed α) :
    find? key' (insert key value entries) =
      if key = key' then some value else find? key' entries := by
  induction entries with
  | nil => simp [insert, find?]
  | cons entry rest ih =>
    obtain ⟨k, v⟩ := entry
    unfold insert
    split
    · subst_vars
      unfold find?
      split <;> rfl
    · split
      · rename_i other _
        simp only [find?]
      · rename_i other _
        simp only [find?, ih]
        by_cases here : k = key'
        · subst here
          simp [Ne.symm other]
        · simp [here]

/-- Changing the value at a key. -/
theorem find?_adjust (key key' : String) (change : α → α) (entries : Keyed α) :
    find? key' (adjust key change entries) =
      if key = key' then (find? key' entries).map change else find? key' entries := by
  induction entries with
  | nil => simp [adjust, find?]
  | cons entry rest ih =>
    obtain ⟨k, v⟩ := entry
    unfold adjust
    split
    · subst_vars
      simp only [find?]
      split <;> simp
    · rename_i other
      simp only [find?, ih]
      by_cases here : k = key'
      · subst here
        simp [Ne.symm other]
      · simp [here]

/-- What is found is an entry. -/
theorem mem_of_find? {entries : Keyed α} {key : String} {a : α}
    (h : entries.find? key = some a) : (key, a) ∈ entries := by
  induction entries with
  | nil => cases h
  | cons entry rest ih =>
    simp only [find?] at h
    split at h
    · rename_i same
      cases h
      exact same ▸ List.mem_cons_self
    · exact List.mem_cons_of_mem _ (ih h)

/-! ## 3. The keys stay in order -/

@[simp] theorem keys_cons (entry : String × α) (rest : Keyed α) :
    keys (entry :: rest) = entry.1 :: keys rest := rfl

@[simp] theorem ordered_nil : Ordered ([] : Keyed α) := List.Pairwise.nil

theorem ordered_cons {entry : String × α} {rest : Keyed α} :
    Ordered (entry :: rest) ↔ (∀ k ∈ keys rest, entry.1 < k) ∧ Ordered rest :=
  List.pairwise_cons

theorem mem_keys_insert {key k : String} {value : α} {entries : Keyed α} :
    k ∈ keys (insert key value entries) ↔ k = key ∨ k ∈ keys entries := by
  induction entries with
  | nil => simp [insert, keys]
  | cons entry rest ih =>
    unfold insert
    split
    · subst_vars
      simp
    · split <;> simp [ih, or_left_comm]

theorem ordered_insert {key : String} {value : α} {entries : Keyed α} (h : entries.Ordered) :
    (insert key value entries).Ordered := by
  induction entries with
  | nil => simp [insert, ordered_cons, keys]
  | cons entry rest ih =>
    obtain ⟨below, ordered⟩ := ordered_cons.1 h
    unfold insert
    split
    · rename_i same
      exact ordered_cons.2 ⟨same ▸ below, ordered⟩
    · split
      · rename_i less
        refine ordered_cons.2 ⟨fun k member => ?_, h⟩
        rcases List.mem_cons.1 member with rfl | member
        · exact less
        · exact String.lt_trans less (below k member)
      · rename_i other notLess
        refine ordered_cons.2 ⟨fun k member => ?_, ih ordered⟩
        rcases mem_keys_insert.1 member with rfl | member
        · have atMost := String.not_lt.1 notLess
          exact Decidable.byContradiction fun notBelow =>
            other (String.le_antisymm atMost (String.not_lt.1 notBelow))
        · exact below k member

theorem mem_keys_of_mem_keys_erase {key k : String} {entries : Keyed α}
    (h : k ∈ keys (erase key entries)) : k ∈ keys entries := by
  induction entries with
  | nil => exact h
  | cons entry rest ih =>
    unfold erase at h
    split at h
    · exact List.mem_cons_of_mem _ h
    · rcases List.mem_cons.1 h with rfl | h
      · exact List.mem_cons_self
      · exact List.mem_cons_of_mem _ (ih h)

theorem ordered_erase {key : String} {entries : Keyed α} (h : entries.Ordered) :
    (erase key entries).Ordered := by
  induction entries with
  | nil => exact h
  | cons entry rest ih =>
    obtain ⟨below, ordered⟩ := ordered_cons.1 h
    unfold erase
    split
    · exact ordered
    · exact ordered_cons.2
        ⟨fun k member => below k (mem_keys_of_mem_keys_erase member), ih ordered⟩

@[simp] theorem keys_adjust (key : String) (change : α → α) (entries : Keyed α) :
    keys (adjust key change entries) = keys entries := by
  induction entries with
  | nil => rfl
  | cons entry rest ih =>
    unfold adjust
    split <;> simp [ih]

theorem ordered_adjust {key : String} {change : α → α} {entries : Keyed α} (h : entries.Ordered) :
    (adjust key change entries).Ordered := by
  unfold Ordered
  rwa [keys_adjust]

theorem ordered_merge {entries later : Keyed α} (h : entries.Ordered) :
    (merge entries later).Ordered := by
  unfold merge
  induction later generalizing entries with
  | nil => exact h
  | cons entry rest ih => exact ih (ordered_insert h)

theorem find?_eq_none {key : String} {entries : Keyed α} :
    find? key entries = none ↔ key ∉ keys entries := by
  induction entries with
  | nil => simp [keys]
  | cons entry rest ih =>
    unfold find?
    split
    · subst_vars
      simp
    · rename_i other
      simp [ih, Ne.symm other]

/-- Taking an entry away takes away no other one; where the keys are in order, none is left. -/
theorem find?_erase {key key' : String} {entries : Keyed α} (h : entries.Ordered) :
    find? key' (erase key entries) = if key = key' then none else find? key' entries := by
  induction entries with
  | nil => simp [erase]
  | cons entry rest ih =>
    obtain ⟨below, ordered⟩ := ordered_cons.1 h
    unfold erase
    split
    · rename_i same
      split
      · rename_i here
        exact find?_eq_none.2 fun member =>
          String.lt_irrefl _ (below _ (by rwa [same, here]))
      · rename_i other
        simp [find?, same, other]
    · rename_i different
      simp only [find?, ih ordered]
      by_cases here : entry.1 = key'
      · subst here
        simp [Ne.symm different]
      · simp [here]

/-! ## 4. Look-ups in merged entries -/

theorem find?_append (key : String) (front behind : Keyed α) :
    find? key (front ++ behind) = (find? key front).or (find? key behind) := by
  induction front with
  | nil => rfl
  | cons entry front ih =>
    obtain ⟨k, v⟩ := entry
    simp only [List.cons_append, find?]
    split
    · rfl
    · exact ih

/-- **The last write to a key wins**; a key that is not written keeps what it had. -/
theorem find?_merge (key : String) (entries later : Keyed α) :
    find? key (merge entries later) = (find? key later.reverse).or (find? key entries) := by
  unfold merge
  induction later generalizing entries with
  | nil => rfl
  | cons entry later ih =>
    obtain ⟨k, v⟩ := entry
    rw [List.foldl_cons, ih, find?_insert, List.reverse_cons, find?_append, Option.or_assoc]
    congr 1
    by_cases here : k = key <;> simp [find?, here]

/-- Where each key stands once, it does not matter from which end it is looked up. -/
theorem find?_reverse {entries : Keyed α} (ordered : entries.Ordered) (key : String) :
    find? key entries.reverse = find? key entries := by
  induction entries with
  | nil => rfl
  | cons entry entries ih =>
    obtain ⟨k, v⟩ := entry
    obtain ⟨below, ordered⟩ := ordered_cons.1 ordered
    rw [List.reverse_cons, find?_append, ih ordered]
    by_cases here : k = key
    · have once : find? key entries = none :=
        find?_eq_none.2 fun member => String.lt_irrefl _ (here ▸ below key member)
      simp [find?, here, once]
    · simp [find?, here]

theorem mem_keys_iff {entries : Keyed α} {key : String} :
    key ∈ entries.keys ↔ (find? key entries).isSome := by
  rw [← Decidable.not_iff_not, ← find?_eq_none, Option.not_isSome_iff_eq_none]

end Keyed

end Stencil
