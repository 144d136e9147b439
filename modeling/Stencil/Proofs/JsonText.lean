/-
# JSON texts are read back

The compact text of a value is read as that value, if the value is one that JSON can hold as it is:
its integers fit, no double is among its numbers, and the members of its objects are in order
(`Value.Plain`).

* `readString_flatMap`: a string is read to its closing quote, whatever it holds;
* `readValue_text`: a value is read from the start of a text, and the rest is left alone;
* `read?_text`: so a whole text gives its value, if it nests no deeper than the reader goes.

The lists and objects of a text are runs of items behind the first one, each with its comma in
front.  So the readers of such runs are shown to read them, for any reader of the items.
-/
import Stencil.Proofs.Numerals

namespace Stencil

open Stencil.Text

/-- A value whose JSON text keeps all of it, and in which lists and objects nest at most `depth`
levels.  Its texts, keys included, are those that `ok` admits. -/
inductive Value.Plain (ok : String → Prop) : (depth : Nat) → Value → Prop
  | null (depth : Nat) : Plain ok depth .null
  | bool (depth : Nat) (value : Bool) : Plain ok depth (.bool value)
  | integer (depth : Nat) {value : Int} (fits : Number.isInteger value = true) :
      Plain ok depth (.ofInt value)
  | string (depth : Nat) {text : String} (admitted : ok text) : Plain ok depth (.string text)
  | array {depth : Nat} {items : List Value} (plain : ∀ v ∈ items, Plain ok depth v) :
      Plain ok (depth + 1) (.array items)
  | object {depth : Nat} {fields : Fields} (ordered : Keyed.Ordered fields)
      (admitted : ∀ m ∈ fields, ok m.1) (plain : ∀ m ∈ fields, Plain ok depth m.2) :
      Plain ok (depth + 1) (.object fields)

theorem Value.Plain.mono {ok : String → Prop} {depth limit : Nat} {v : Value}
    (h : v.Plain ok depth) (le : depth ≤ limit) : v.Plain ok limit := by
  induction h generalizing limit with
  | null depth => exact .null limit
  | bool depth value => exact .bool limit value
  | integer depth fits => exact .integer limit fits
  | string depth admitted => exact .string limit admitted
  | array plain ih =>
    obtain ⟨limit, rfl⟩ := Nat.exists_eq_add_of_le' (Nat.le_trans (Nat.le_add_left 1 _) le)
    exact .array fun v mem => ih v mem (Nat.le_of_succ_le_succ le)
  | object ordered admitted plain ih =>
    obtain ⟨limit, rfl⟩ := Nat.exists_eq_add_of_le' (Nat.le_trans (Nat.le_add_left 1 _) le)
    exact .object ordered admitted fun m mem => ih m mem (Nat.le_of_succ_le_succ le)

/-- A key behind all others goes to the end. -/
theorem Keyed.insert_last {α : Type} {key : String} {entries : Keyed α}
    (last : ∀ k ∈ entries.keys, k < key) (value : α) :
    entries.insert key value = entries ++ [(key, value)] := by
  induction entries with
  | nil => rfl
  | cons entry entries ih =>
    obtain ⟨k, v⟩ := entry
    rw [keys_cons] at last
    obtain ⟨before, last⟩ := List.forall_mem_cons.1 last
    have other : k ≠ key := ne_of_lt before
    have notBehind : ¬ key < k := not_lt_of_gt before
    simp [insert, other, notBehind, ih last]

namespace Json

/-! ## 1. Strings -/

theorem hexValue?_hexDigit : ∀ n < 16, hexValue? (hexDigit n) = some n := by
  decide

theorem four_le_byteLength (a b c d : Char) (rest : List Char) :
    4 ≤ byteLength (a :: b :: c :: d :: rest) := by
  have := a.utf8Size_pos
  have := b.utf8Size_pos
  have := c.utf8Size_pos
  have := d.utf8Size_pos
  simp only [byteLength_cons]
  omega

/-- The four digits of a control character. -/
theorem readUnicode_control {n : Nat} (control : n < 0x20) (rest : List Char) :
    readUnicode ('0' :: '0' :: hexDigit (n / 16) :: hexDigit (n % 16) :: rest) =
      .ok (Char.ofNat n, rest) := by
  have long : ¬ byteLength ('0' :: '0' :: hexDigit (n / 16) :: hexDigit (n % 16) :: rest) < 4 :=
    Nat.not_lt.2 (four_le_byteLength ..)
  have zero : hexValue? '0' = some 0 := by decide
  have value : ((0 * 16 + 0) * 16 + n / 16) * 16 + n % 16 = n := by omega
  have hex : readHex ('0' :: '0' :: hexDigit (n / 16) :: hexDigit (n % 16) :: rest) =
      .ok (n, rest) := by
    unfold readHex
    rw [if_neg long]
    simp only [zero, hexValue?_hexDigit (n / 16) (by omega), hexValue?_hexDigit (n % 16) (by omega),
      value]
  have noLow : (0xDC00 ≤ n && n ≤ 0xDFFF) = false := by
    simp only [Bool.and_eq_false_iff, decide_eq_false_iff_not]
    omega
  have noHigh : (n < 0xD800 || 0xDBFF < n) = true := by
    simp only [Bool.or_eq_true, decide_eq_true_eq]
    omega
  simp only [readUnicode, hex, bind, Except.bind]
  simp_all

/-- **An escaped character is read as that character.** -/
theorem readStringFrom_escape (steps : Nat) (passed : List Char) (c : Char) (rest : List Char) :
    readStringFrom (steps + 1) passed (escape c ++ rest) =
      readStringFrom steps (c :: passed) rest := by
  unfold escape
  split
  · simp [readStringFrom, readEscape, bind, Except.bind]
  · simp [readStringFrom, readEscape, bind, Except.bind]
  · simp [readStringFrom, readEscape, bind, Except.bind]
  · simp [readStringFrom, readEscape, bind, Except.bind]
  · simp [readStringFrom, readEscape, bind, Except.bind]
  · simp [readStringFrom, readEscape, bind, Except.bind]
  · simp [readStringFrom, readEscape, bind, Except.bind]
  · split
    · rename_i control
      have control' : c.toNat < 0x20 := control
      simp [readStringFrom, readEscape, bind, Except.bind, readUnicode_control control']
    · rename_i noQuote noBackslash _ _ _ _ _ noControl
      have quote : c ≠ '"' := noQuote
      have backslash : c ≠ '\\' := noBackslash
      simp [readStringFrom, quote, backslash, noControl]

theorem readStringFrom_flatMap {steps : Nat} {cs : List Char} (enough : cs.length < steps)
    (passed rest : List Char) :
    readStringFrom steps passed (cs.flatMap escape ++ '"' :: rest) =
      .ok (String.ofList (passed.reverse ++ cs), rest) := by
  induction cs generalizing steps passed with
  | nil =>
    obtain ⟨steps, rfl⟩ := Nat.exists_eq_add_of_le' enough
    simp [readStringFrom]
  | cons c cs ih =>
    obtain ⟨steps, rfl⟩ := Nat.exists_eq_add_of_le' (Nat.le_trans (Nat.le_add_left 1 _) enough)
    rw [List.flatMap_cons, List.append_assoc, readStringFrom_escape,
      ih (Nat.lt_of_succ_lt_succ enough)]
    simp

theorem one_le_length_escape (c : Char) : 1 ≤ (escape c).length := by
  unfold escape
  split <;> try decide
  split <;> simp

theorem length_le_flatMap {α : Type} {f : α → List Char} (nonempty : ∀ a, 1 ≤ (f a).length)
    (items : List α) : items.length ≤ (items.flatMap f).length := by
  induction items with
  | nil => exact Nat.le_refl 0
  | cons a items ih =>
    have := nonempty a
    simp only [List.flatMap_cons, List.length_append, List.length_cons]
    omega

/-- A string is read to its closing quote. -/
theorem readString_flatMap (s : String) (rest : List Char) :
    readString (s.toList.flatMap escape ++ '"' :: rest) = .ok (s, rest) := by
  have enough : s.toList.length < (s.toList.flatMap escape ++ '"' :: rest).length + 1 := by
    have := length_le_flatMap one_le_length_escape s.toList
    simp only [List.length_append, List.length_cons]
    omega
  rw [readString, readStringFrom_flatMap enough]
  simp

/-- A string in front of a rest. -/
theorem stringText_append (s : String) (rest : List Char) :
    stringText s ++ rest = '"' :: (s.toList.flatMap escape ++ '"' :: rest) := by
  simp [stringText]

/-! ## 2. Runs of items -/

/-- The text of a member of an object. -/
def memberText (m : String × Value) : List Char := stringText m.1 ++ ':' :: text m.2

theorem itemsText_cons (v : Value) (items : List Value) :
    itemsText (v :: items) = text v ++ items.flatMap fun w => ',' :: text w := by
  induction items generalizing v with
  | nil => simp [itemsText]
  | cons w items ih => simp [itemsText, ih w]

theorem fieldsText_cons (m : String × Value) (fields : Fields) :
    fieldsText (m :: fields) = memberText m ++ fields.flatMap fun m => ',' :: memberText m := by
  induction fields generalizing m with
  | nil =>
    obtain ⟨k, v⟩ := m
    simp [fieldsText, memberText]
  | cons m' fields ih =>
    obtain ⟨k, v⟩ := m
    have first : fieldsText ((k, v) :: m' :: fields) =
        memberText (k, v) ++ ',' :: fieldsText (m' :: fields) := by
      simp [fieldsText, memberText]
    rw [first, ih m', List.flatMap_cons, List.cons_append]

/-- What a value starts with. -/
def startsValue (c : Char) : Bool :=
  c == '"' || c == '[' || c == '{' || c == 'n' || c == 't' || c == 'f' || c == '-' || c.isDigit

theorem startsValue_of_digit {c : Char} (h : c.isDigit = true) : startsValue c = true := by
  simp [startsValue, h]

/-- A value starts at once, with no space. -/
theorem text_starts {ok : String → Prop} {depth : Nat} {v : Value} (h : v.Plain ok depth) :
    ∃ c cs, text v = c :: cs ∧ startsValue c = true := by
  cases h with
  | null => exact ⟨'n', _, by simp [text]; rfl, by decide⟩
  | bool _ value =>
    cases value with
    | true => exact ⟨'t', _, by simp [text]; rfl, by decide⟩
    | false => exact ⟨'f', _, by simp [text]; rfl, by decide⟩
  | @integer _ i fits =>
    by_cases negative : i < 0
    · exact ⟨'-', decimalDigits i.natAbs,
        by simp [Value.ofInt, text, numberText, integerText, Binary64.signText, negative],
        by decide⟩
    · cases first : decimalDigits i.natAbs with
      | nil => exact absurd first (decimalDigits_ne_nil _)
      | cons c ds =>
        refine ⟨c, ds, ?_, startsValue_of_digit (isDigit_of_mem_decimalDigits
          (first ▸ @List.mem_cons_self _ c ds))⟩
        simp [Value.ofInt, text, numberText, integerText, Binary64.signText, negative, first]
  | string _ _ => exact ⟨'"', _, by simp [text, stringText]; rfl, by decide⟩
  | array _ => exact ⟨'[', _, by simp [text]; rfl, by decide⟩
  | object _ _ _ => exact ⟨'{', _, by simp [text]; rfl, by decide⟩

theorem skipSpace_cons {c : Char} (h : isSpace c = false) (cs : List Char) :
    skipSpace (c :: cs) = c :: cs :=
  skipSpace_of_stops (stops_cons.2 h)

theorem isSpace_of_startsValue {c : Char} (h : startsValue c = true) : isSpace c = false := by
  have other : ∀ d, startsValue d = false → c ≠ d := fun d => ne_of_class h
  simp [isSpace, other ' ' (by decide), other '\n' (by decide), other '\t' (by decide),
    other '\r' (by decide)]

theorem ne_square_of_startsValue {c : Char} (h : startsValue c = true) : c ≠ ']' :=
  ne_of_class h (by decide)

/-- A number does not go on behind a run, whatever its items are. -/
theorem stops_run {α : Type} (print : α → List Char) (items : List α) {closer : Char}
    (closes : inNumber closer = false) (rest : List Char) :
    Stops inNumber ((items.flatMap fun v => ',' :: print v) ++ closer :: rest) := by
  cases items with
  | nil => exact stops_cons.2 closes
  | cons v items => exact stops_cons.2 (by decide)

theorem readItems_comma (item : Reader Value) (steps : Nat) (done : List Value) {c : Char}
    (noSpace : isSpace c = false) (noClose : c ≠ ']') (cs : List Char) :
    readItems item (steps + 1) done (',' :: c :: cs) =
      (item (c :: cs)).bind fun r => readItems item steps (r.1 :: done) r.2 := by
  simp only [readItems, skipSpace_cons (by decide : isSpace ',' = false), skipSpace_cons noSpace]
  split
  · rename_i none
    cases none
  · rename_i closes
    exact absurd (List.cons.inj closes).1 noClose
  · rfl

/-- **The items of a list are read one after another**, by any reader that reads each of them. -/
theorem readItems_flatMap {item : Reader Value} {items : List Value}
    (starts : ∀ v ∈ items, ∃ c cs, text v = c :: cs ∧ startsValue c = true)
    (reads : ∀ v ∈ items, ∀ rest, Stops inNumber rest → item (text v ++ rest) = .ok (v, rest))
    {steps : Nat} (enough : items.length < steps) (done : List Value) (rest : List Char) :
    readItems item steps done ((items.flatMap fun v => ',' :: text v) ++ ']' :: rest) =
      .ok (.array (done.reverse ++ items), rest) := by
  induction items generalizing steps done with
  | nil =>
    obtain ⟨steps, rfl⟩ := Nat.exists_eq_add_of_le' enough
    simp [readItems, skipSpace, isSpace]
  | cons v items ih =>
    obtain ⟨steps, rfl⟩ := Nat.exists_eq_add_of_le' (Nat.le_trans (Nat.le_add_left 1 _) enough)
    obtain ⟨⟨c, cs, first, start⟩, starts⟩ := List.forall_mem_cons.1 starts
    obtain ⟨here, reads⟩ := List.forall_mem_cons.1 reads
    have read := here _ (stops_run text items (by decide : inNumber ']' = false) rest)
    rw [first, List.cons_append] at read
    rw [List.flatMap_cons, first, List.cons_append, List.cons_append, List.append_assoc,
      List.cons_append, readItems_comma item steps done (isSpace_of_startsValue start)
        (ne_square_of_startsValue start), read]
    refine (ih starts reads (Nat.lt_of_succ_lt_succ enough) (v :: done)).trans ?_
    simp

theorem enough_for_run {α : Type} (print : α → List Char) (items : List α) (rest : List Char) :
    items.length < ((items.flatMap fun v => ',' :: print v) ++ rest).length.succ := by
  have := length_le_flatMap (fun v => (by simp : 1 ≤ (',' :: print v).length)) items
  rw [List.length_append]
  omega

theorem readList_cons (item : Reader Value) {c : Char} (noSpace : isSpace c = false)
    (noClose : c ≠ ']') (cs : List Char) : readList item (c :: cs) =
      (item (c :: cs)).bind fun r => readItems item r.2.length.succ [r.1] r.2 := by
  simp only [readList, skipSpace_cons noSpace]
  split
  · rename_i none
    cases none
  · rename_i closes
    exact absurd (List.cons.inj closes).1 noClose
  · rfl

/-- A list behind its bracket. -/
theorem readList_itemsText {item : Reader Value} {items : List Value}
    (starts : ∀ v ∈ items, ∃ c cs, text v = c :: cs ∧ startsValue c = true)
    (reads : ∀ v ∈ items, ∀ rest, Stops inNumber rest → item (text v ++ rest) = .ok (v, rest))
    (rest : List Char) :
    readList item (itemsText items ++ ']' :: rest) = .ok (.array items, rest) := by
  cases items with
  | nil => rfl
  | cons v items =>
    obtain ⟨⟨c, cs, first, start⟩, starts⟩ := List.forall_mem_cons.1 starts
    obtain ⟨here, reads⟩ := List.forall_mem_cons.1 reads
    have read := here _ (stops_run text items (by decide : inNumber ']' = false) rest)
    rw [first, List.cons_append] at read
    rw [itemsText_cons, first, List.append_assoc, List.cons_append,
      readList_cons item (isSpace_of_startsValue start) (ne_square_of_startsValue start), read]
    exact readItems_flatMap starts reads (enough_for_run text items _) [v] rest

/-! ## 3. Runs of members -/

/-- A member behind the opening quote of its key. -/
theorem readMember_memberText {item : Reader Value} {m : String × Value} {rest : List Char}
    (read : item (text m.2 ++ rest) = .ok (m.2, rest)) :
    readMember item (m.1.toList.flatMap escape ++ '"' :: ':' :: (text m.2 ++ rest)) =
      .ok (m, rest) := by
  simp [readMember, readString_flatMap, skipSpace_cons (by decide : isSpace ':' = false), bind,
    Except.bind, read]

theorem memberText_append (m : String × Value) (rest : List Char) :
    memberText m ++ rest =
      '"' :: (m.1.toList.flatMap escape ++ '"' :: ':' :: (text m.2 ++ rest)) := by
  simp [memberText, stringText]

theorem readMembers_comma (item : Reader Value) (steps : Nat) (done : Fields) (cs : List Char) :
    readMembers item (steps + 1) done (',' :: '"' :: cs) =
      (readMember item cs).bind fun r =>
        readMembers item steps (done.insert r.1.1 r.1.2) r.2 := by
  simp only [readMembers, skipSpace_cons (by decide : isSpace ',' = false),
    skipSpace_cons (by decide : isSpace '"' = false)]
  rfl

/-- **The members of an object are read one after another**, and as they are in order each of them
is put behind those before it. -/
theorem readMembers_flatMap {item : Reader Value} {fields : Fields}
    (reads : ∀ m ∈ fields, ∀ rest, Stops inNumber rest →
      item (text m.2 ++ rest) = .ok (m.2, rest))
    {done : Fields} (ordered : Keyed.Ordered (done ++ fields)) {steps : Nat}
    (enough : fields.length < steps) (rest : List Char) :
    readMembers item steps done ((fields.flatMap fun m => ',' :: memberText m) ++ '}' :: rest) =
      .ok (.object (done ++ fields), rest) := by
  induction fields generalizing steps done with
  | nil =>
    obtain ⟨steps, rfl⟩ := Nat.exists_eq_add_of_le' enough
    simp [readMembers, skipSpace, isSpace]
  | cons m fields ih =>
    obtain ⟨steps, rfl⟩ := Nat.exists_eq_add_of_le' (Nat.le_trans (Nat.le_add_left 1 _) enough)
    obtain ⟨here, reads⟩ := List.forall_mem_cons.1 reads
    have read := here _ (stops_run memberText fields (by decide : inNumber '}' = false) rest)
    have last : ∀ k ∈ Keyed.keys done, k < m.1 := by
      unfold Keyed.Ordered Keyed.keys at ordered
      rw [List.map_append, List.pairwise_append] at ordered
      exact fun k mem => ordered.2.2 k mem m.1 (List.mem_cons_self ..)
    have ordered' : Keyed.Ordered ((done ++ [m]) ++ fields) := by
      rwa [List.append_assoc, List.singleton_append]
    rw [List.flatMap_cons, List.cons_append, List.cons_append, List.append_assoc,
      memberText_append, readMembers_comma, readMember_memberText read]
    refine Eq.trans ?_ ((ih reads ordered' (Nat.lt_of_succ_lt_succ enough)).trans ?_)
    · rw [← Keyed.insert_last last m.2]
      rfl
    · simp

/-- An object behind its brace. -/
theorem readObject_fieldsText {item : Reader Value} {fields : Fields}
    (reads : ∀ m ∈ fields, ∀ rest, Stops inNumber rest →
      item (text m.2 ++ rest) = .ok (m.2, rest))
    (ordered : Keyed.Ordered fields) (rest : List Char) :
    readObject item (fieldsText fields ++ '}' :: rest) = .ok (.object fields, rest) := by
  cases fields with
  | nil => rfl
  | cons m fields =>
    obtain ⟨here, reads⟩ := List.forall_mem_cons.1 reads
    have read := here _ (stops_run memberText fields (by decide : inNumber '}' = false) rest)
    have start : ∀ cs, readObject item ('"' :: cs) = (readMember item cs).bind fun r =>
        readMembers item r.2.length.succ [(r.1.1, r.1.2)] r.2 := by
      intro cs
      simp only [readObject, skipSpace_cons (by decide : isSpace '"' = false)]
      rfl
    rw [fieldsText_cons, List.append_assoc, memberText_append, start, readMember_memberText read]
    exact readMembers_flatMap reads ordered (enough_for_run memberText fields _) rest

/-! ## 4. Values -/

/-- **A value is read from the start of a text** that does not go on with a number. -/
theorem readValue_text {ok : String → Prop} {depth : Nat} {v : Value} (h : v.Plain ok depth)
    {rest : List Char} (stops : Stops inNumber rest) :
    readValue depth (text v ++ rest) = .ok (v, rest) := by
  induction h generalizing rest with
  | null depth =>
    unfold readValue
    rfl
  | bool depth value =>
    unfold readValue
    cases value with
    | true => rfl
    | false => rfl
  | @integer depth i fits => exact readValue_integerText depth fits stops
  | @string depth s admitted =>
    have quote : ∀ cs, readValue depth ('"' :: cs) =
        (readString cs).bind fun r => .ok (.string r.1, r.2) := by
      intro cs
      unfold readValue
      rfl
    rw [text, stringText_append, quote, readString_flatMap]
    rfl
  | @array depth items plain ih =>
    have bracket : ∀ cs, readValue (depth + 1) ('[' :: cs) = readList (readValue depth) cs := by
      intro cs
      unfold readValue
      rfl
    have whole : text (.array items) ++ rest = '[' :: (itemsText items ++ ']' :: rest) := by
      simp [text]
    rw [whole, bracket]
    exact readList_itemsText (fun v mem => text_starts (plain v mem))
      (fun v mem rest stops => ih v mem stops) rest
  | @object depth fields ordered admitted plain ih =>
    have brace : ∀ cs, readValue (depth + 1) ('{' :: cs) = readObject (readValue depth) cs := by
      intro cs
      unfold readValue
      rfl
    have whole : text (.object fields) ++ rest = '{' :: (fieldsText fields ++ '}' :: rest) := by
      simp [text]
    rw [whole, brace]
    exact readObject_fieldsText (fun m mem rest stops => ih m mem stops) ordered rest

/-- **A whole text gives its value**, up to the depth that is read. -/
theorem read?_text {ok : String → Prop} {v : Value} (h : v.Plain ok depthLimit) :
    read? (text v) = some v := by
  have whole := readValue_text h (by simp [Stops] : Stops inNumber [])
  rw [List.append_nil] at whole
  simp [read?, read, whole, bind, Except.bind, skipSpace, Except.toOption]

end Json

end Stencil
