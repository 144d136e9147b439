/-
# The two spellings of an option

An option takes its value from the next argument, or has it behind an equals sign.  In the second
spelling the option and the sign may stand several times in front of the value, and all of them are
taken off, so a value that itself begins with them does not survive.

* `whole_or_stopped`: where an option may stand is everywhere but behind `--` and in the place of a
  value;
* `Whole.readFrom_congr`: what is read behind whole arguments depends on them through the
  configuration only;
* `readFrom_separate`, `readFrom_joined`: either spelling sets the option and goes on;
* `read_joined_iff`: the two agree everywhere exactly for the values that do not begin with the
  option and the sign, and for those that `--named` refuses in the same words with and without
  them (`Valued.Alike`); where they agree, the whole command does the same (`run_joined`).
-/
import Mathlib
import Stencil.Cli.Run

namespace Stencil.Cli

/-! ## 1. Arguments in front of others -/

/-- Arguments behind which an option may stand: `--` is not among them, unless as the value of an
option, and none of them waits for its value. -/
inductive Whole : List String → Prop
  | nil : Whole []
  | single {arg : String} {rest : List String} (open' : arg ≠ "--") (alone : separate? arg = none)
      (h : Whole rest) : Whole (arg :: rest)
  | valued {arg value : String} {option : Valued} {rest : List String}
      (takes : separate? arg = some option) (h : Whole rest) : Whole (arg :: value :: rest)

/-- Nothing else may stand in front: arguments that are not whole have `--` behind whole ones, or
end in an option that has no value. -/
theorem whole_or_stopped : (args : List String) → Whole args ∨
    ∃ front stop, Whole front ∧ args = front ++ stop ∧
      ((∃ behind, stop = "--" :: behind) ∨ ∃ arg, (separate? arg).isSome ∧ stop = [arg])
  | [] => .inl .nil
  | arg :: rest => by
    by_cases ends : arg = "--"
    · subst ends
      exact .inr ⟨[], _, .nil, rfl, .inl ⟨rest, rfl⟩⟩
    cases takes : separate? arg with
    | none =>
      obtain whole | ⟨front, stop, whole, rfl, stopped⟩ := whole_or_stopped rest
      · exact .inl (.single ends takes whole)
      · exact .inr ⟨arg :: front, stop, .single ends takes whole, rfl, stopped⟩
    | some option =>
      match rest with
      | [] => exact .inr ⟨[], _, .nil, rfl, .inr ⟨arg, by rw [takes]; rfl, rfl⟩⟩
      | value :: rest =>
        obtain whole | ⟨front, stop, whole, rfl, stopped⟩ := whole_or_stopped rest
        · exact .inl (.valued takes whole)
        · exact .inr ⟨arg :: value :: front, stop, .valued takes whole, rfl, stopped⟩

/-- The arguments that are known as they stand and have no value. -/
def plainSpellings : List String :=
  ["-h", "--help", "-V", "--version", "--color", "--no-color", "--explain", "--"]

theorem not_mem_plainSpellings {arg : String} {option : Valued}
    (takes : separate? arg = some option) : arg ∉ plainSpellings := by
  have none : ∀ plain ∈ plainSpellings, separate? plain = none := by decide
  intro mem
  rw [none arg mem] at takes
  cases takes

/-- **An option takes the next argument.** -/
theorem readFrom_separate {arg : String} {option : Valued} (takes : separate? arg = some option)
    (config : Config) (value : String) (rest : List String) :
    readFrom config (arg :: value :: rest) =
      (setOption config option value).bind fun config => readFrom config rest := by
  have other := not_mem_plainSpellings takes
  simp only [plainSpellings, List.mem_cons, List.not_mem_nil, or_false, not_or] at other
  simp only [readFrom, other, decide_false, Bool.or_self, Bool.false_eq_true, if_false, takes]
  cases setOption config option value <;> rfl

/-- **Behind whole arguments, what reads alike reads alike.** -/
theorem Whole.readFrom_congr {front : List String} (whole : Whole front) {rest rest' : List String}
    (same : ∀ config, readFrom config rest = readFrom config rest') (config : Config) :
    readFrom config (front ++ rest) = readFrom config (front ++ rest') := by
  induction whole generalizing config with
  | nil => exact same config
  | single open' alone h ih =>
    simp only [List.cons_append, readFrom, alone, if_neg open', ih]
  | valued takes h ih =>
    simp only [List.cons_append, readFrom_separate takes, ih]

/-! ## 2. Leads -/

section Leads

variable {lead cs : List Char}

theorem dropLeads_append (nonempty : lead ≠ []) (cs : List Char) :
    dropLeads lead (lead ++ cs) = dropLeads lead cs := by
  have here : lead.isPrefixOf (lead ++ cs) = true :=
    List.isPrefixOf_iff_prefix.2 (List.prefix_append ..)
  rw [dropLeads, if_neg (by simp [here, nonempty]), List.drop_left]

theorem length_dropLeads_le (lead cs : List Char) : (dropLeads lead cs).length ≤ cs.length := by
  fun_induction dropLeads lead cs with
  | case1 => exact Nat.le_refl _
  | case2 cs more ih =>
    rw [List.length_drop] at ih
    omega

theorem dropLeads_eq_self_iff (nonempty : lead ≠ []) : dropLeads lead cs = cs ↔ ¬ lead <+: cs := by
  constructor
  · rintro same ⟨behind, rfl⟩
    have bound := length_dropLeads_le lead behind
    rw [← dropLeads_append nonempty, same, List.length_append] at bound
    have := List.length_pos_of_ne_nil nonempty
    omega
  · intro other
    have here : lead.isPrefixOf cs = false := by
      rwa [← Bool.not_eq_true, List.isPrefixOf_iff_prefix]
    rw [dropLeads, if_pos (by simp [here])]

end Leads

/-- What stands in front of a value in the same argument. -/
def Valued.lead (option : Valued) : List Char := (option.spelling ++ "=").toList

theorem Valued.lead_ne_nil (option : Valued) : option.lead ≠ [] := by
  cases option <;> simp [lead, spelling]

/-- A value without the leads that it begins with. -/
def Valued.stripped (option : Valued) (value : String) : String :=
  String.ofList (dropLeads option.lead value.toList)

/-- An option and its value in one argument. -/
def Valued.joined (option : Valued) (value : String) : String := option.spelling ++ "=" ++ value

theorem Valued.toList_joined (option : Valued) (value : String) :
    (option.joined value).toList = option.lead ++ value.toList := by
  rw [joined, String.toList_append, lead]

/-- No other argument has an equals sign. -/
theorem Valued.joined_not_mem (option : Valued) (value : String) {others : List String}
    (none : ∀ other ∈ others, '=' ∉ other.toList) : option.joined value ∉ others := by
  intro mem
  refine none _ mem ?_
  rw [toList_joined]
  exact List.mem_append_left _ (by simp [lead])

theorem separate?_joined (option : Valued) (value : String) :
    separate? (option.joined value) = none := by
  have other : option.joined value ∉ ["--named", "-n", "--missing", "--template", "-t"] :=
    option.joined_not_mem value (by decide)
  simp only [List.mem_cons, List.not_mem_nil, or_false, not_or] at other
  simp [separate?, other]

theorem separate?_spelling (option : Valued) : separate? option.spelling = some option := by
  cases option <;> rfl

/-- The leads tell the options apart. -/
theorem Valued.isPrefixOf_lead (other option : Valued) (cs : List Char) :
    other.lead.isPrefixOf (option.lead ++ cs) = decide (other = option) := by
  cases other <;> cases option <;> rfl

theorem joined?_joined (option : Valued) (value : String) :
    joined? (option.joined value) = some (option, option.stripped value) := by
  have stripped : String.ofList (dropLeads option.lead (option.lead ++ value.toList)) =
      option.stripped value := by
    rw [dropLeads_append option.lead_ne_nil, Valued.stripped]
  have found (other : Valued) :
      (if other.lead.isPrefixOf (option.joined value).toList then
        some (other, String.ofList (dropLeads other.lead (option.joined value).toList))
      else none) = if other = option then some (option, option.stripped value) else none := by
    rw [option.toList_joined, other.isPrefixOf_lead]
    by_cases same : other = option
    · subst same
      simp [stripped]
    · simp [same]
  have leads : joined? (option.joined value) =
      [Valued.named, .missing, .template].findSome? fun other =>
        if other = option then some (option, option.stripped value) else none :=
    congrArg (fun f => [Valued.named, .missing, .template].findSome? f) (funext found)
  rw [leads]
  cases option <;> rfl

/-- **An option and its value may stand in one argument.** -/
theorem readFrom_joined (option : Valued) (config : Config) (value : String)
    (rest : List String) :
    readFrom config (option.joined value :: rest) =
      (setOption config option (option.stripped value)).bind fun config =>
        readFrom config rest := by
  have other : option.joined value ∉ plainSpellings := option.joined_not_mem value (by decide)
  simp only [plainSpellings, List.mem_cons, List.not_mem_nil, or_false, not_or] at other
  simp only [readFrom, other, decide_false, Bool.or_self, Bool.false_eq_true, if_false,
    separate?_joined, joined?_joined]
  cases setOption config option (option.stripped value) <;> rfl

/-! ## 3. What an option is set to -/

theorem Valued.stripped_eq_iff {option : Valued} {value : String} :
    option.stripped value = value ↔ ¬ option.lead <+: value.toList := by
  rw [← dropLeads_eq_self_iff option.lead_ne_nil, stripped, ← String.toList_inj,
    String.toList_ofList]

/-- A value that begins with the lead of an option begins with two dashes. -/
theorem Valued.dashes_of_prefix {option : Valued} {cs : List Char} (h : option.lead <+: cs) :
    ∃ rest, cs = '-' :: '-' :: rest := by
  obtain ⟨behind, rfl⟩ := h
  cases option <;> exact ⟨_, rfl⟩

/-- A mode is refused with its own text. -/
theorem readMissing_error {text : String} {e : UsageError} (h : readMissing text = .error e) :
    e = .invalidMissing text := by
  unfold readMissing at h
  simp only at h
  split_ifs at h
  · exact (Except.error.inj h).symm

theorem readMissing_of_dashes {text : String} {rest : List Char}
    (dashes : text.toList = '-' :: '-' :: rest) :
    readMissing text = .error (.invalidMissing text) := by
  have word (word : String) (other : word.toList.head? ≠ some '-') : text ≠ word := by
    rintro rfl
    simp [dashes] at other
  have noText : ("with:".toList.isPrefixOf text.toList) = false := by
    rw [dashes]
    rfl
  rw [readMissing, if_neg (word _ (by decide)), if_neg (word _ (by decide))]
  simp only [noText, Bool.false_eq_true, if_false]

/-- The refusal of two dashes as a number. -/
def notANumber : UsageError := .invalidJson "invalid number at line 1 column 2"

/-- Two dashes are no number, whatever is behind them. -/
theorem readNamed_of_dashes {text : String} {rest : List Char}
    (dashes : text.toList = '-' :: '-' :: rest) : readNamed text = .error notANumber := by
  have fault : Json.read text.toList = .error (.at .invalidNumber ('-' :: rest)) := by
    rw [dashes]
    rfl
  have unread : Text.byteLength text.toList - (Json.Fault.at .invalidNumber ('-' :: rest)).unread
      = 2 := by
    rw [dashes]
    have : Char.utf8Size '-' = 1 := rfl
    simp only [Json.Fault.at, Text.byteLength_cons]
    omega
  have place : Json.position 2 text.toList = (1, 2) := by
    rw [dashes]
    cases rest with
    | nil => rfl
    | cons c rest =>
      show Json.position.go 0 1 2 (c :: rest) = (1, 2)
      rw [Json.position.go, if_pos c.utf8Size_pos]
  simp only [readNamed, fault, Json.Fault.describe, unread, place]
  rfl

/-- What only sets a field fails with what it was given. -/
theorem eq_error_of_bind {α β : Type} {x : Except UsageError α} {f : α → β} {e : UsageError}
    (h : (x >>= fun a => .ok (f a)) = Except.error e) : x = .error e := by
  cases x with
  | error e' => exact congrArg Except.error (Except.error.inj h)
  | ok a => cases h

/-- And what it sets comes from what it was given. -/
theorem exists_of_bind {α β : Type} {x : Except UsageError α} {f : α → β} {b : β}
    (h : (x >>= fun a => .ok (f a)) = Except.ok b) : ∃ a, x = .ok a ∧ f a = b := by
  cases x with
  | error e => cases h
  | ok a => exact ⟨a, rfl, Except.ok.inj h⟩

/-- An option leaves the operands alone. -/
theorem positional_of_setOption {config config' : Config} {option : Valued} {value : String}
    (h : setOption config option value = .ok config') :
    config'.positional = config.positional := by
  cases option with
  | template =>
    simp only [setOption] at h
    split_ifs at h
    cases h
    rfl
  | named =>
    obtain ⟨fields, -, rfl⟩ := exists_of_bind h
    rfl
  | missing =>
    obtain ⟨mode, -, rfl⟩ := exists_of_bind h
    rfl

/-- The values that an option does not tell from what is left of them: those that do not begin with
the lead, and those of `--named` that are refused in the same words without it. -/
def Valued.Alike (option : Valued) (value : String) : Prop :=
  ¬ option.lead <+: value.toList ∨
    option = .named ∧ readNamed (option.stripped value) = .error notANumber

theorem setOption_stripped {option : Valued} {value : String} (alike : option.Alike value)
    (config : Config) :
    setOption config option (option.stripped value) = setOption config option value := by
  by_cases leads : option.lead <+: value.toList
  · obtain ⟨rfl, refused⟩ := alike.resolve_left (not_not_intro leads)
    obtain ⟨rest, dashes⟩ := Valued.dashes_of_prefix leads
    simp only [setOption, refused, readNamed_of_dashes dashes]
  · rw [Valued.stripped_eq_iff.2 leads]

/-- A template without its leads is another one, and a mode is refused with its own text; only
`--named` can refuse a value in the same words with and without them. -/
theorem alike_of_setOption {config : Config} {option : Valued} {value : String}
    (fresh : config.template = none)
    (same : setOption config option (option.stripped value) = setOption config option value) :
    option.Alike value := by
  by_cases leads : option.lead <+: value.toList
  · obtain ⟨rest, dashes⟩ := Valued.dashes_of_prefix leads
    have other : option.stripped value ≠ value := fun same => Valued.stripped_eq_iff.1 same leads
    cases option with
    | template =>
      simp only [setOption, fresh, Option.isSome_none, Bool.false_eq_true, if_false,
        Except.ok.injEq, Config.mk.injEq, Option.some.injEq, other, false_and] at same
    | named =>
      simp only [setOption, readNamed_of_dashes dashes] at same
      exact .inr ⟨rfl, eq_error_of_bind same⟩
    | missing =>
      simp only [setOption, readMissing_of_dashes dashes] at same
      have refused := readMissing_error (eq_error_of_bind same)
      exact absurd (UsageError.invalidMissing.inj refused).symm other
  · exact .inl leads

/-! ## 4. The two spellings -/

/-- An option alone asks for a template to be filled. -/
theorem read_of_setOption {terminal : Bool} {args : List String} {option : Valued} {value : String}
    (sets : readFrom { color := terminal } args =
      (setOption { color := terminal } option value).bind fun config => readFrom config []) :
    read terminal args = (setOption { color := terminal } option value).map Request.fill := by
  rw [read, sets]
  cases set : setOption { color := terminal } option value with
  | error e => rfl
  | ok config => simp [positional_of_setOption set, readFrom, bind, Except.bind, Except.map]

theorem map_fill_inj {x y : Except UsageError Config}
    (h : x.map Request.fill = y.map Request.fill) : x = y := by
  cases x <;> cases y <;> cases h <;> rfl

section Spellings

variable {option : Valued} {value : String} {front : List String}

/-- Wherever an option may stand, such a value may stand behind an equals sign. -/
theorem read_joined (alike : option.Alike value) (whole : Whole front) (terminal : Bool)
    (behind : List String) :
    read terminal (front ++ option.joined value :: behind) =
      read terminal (front ++ option.spelling :: value :: behind) := by
  have same (config : Config) : readFrom config (option.joined value :: behind) =
      readFrom config (option.spelling :: value :: behind) := by
    rw [readFrom_joined, readFrom_separate (separate?_spelling option), setOption_stripped alike]
  rw [read, read, whole.readFrom_congr same]

/-- So the command leaves the same behind. -/
theorem run_joined (alike : option.Alike value) (whole : Whole front) (terminal : Bool)
    (behind : List String) (input : String) :
    run terminal (front ++ option.joined value :: behind) input =
      run terminal (front ++ option.spelling :: value :: behind) input := by
  rw [run, run, read_joined alike whole]

end Spellings

/-- **The two spellings of an option agree up to the leads of its value.**  Wherever an option may
stand, its value may stand behind an equals sign, exactly for the values that do not begin with the
option and the sign and for those that `--named` refuses in the same words without them. -/
theorem read_joined_iff (option : Valued) (value : String) :
    (∀ terminal front behind, Whole front →
        read terminal (front ++ option.joined value :: behind) =
          read terminal (front ++ option.spelling :: value :: behind)) ↔ option.Alike value := by
  constructor
  · intro agree
    have alone := agree false [] [] .nil
    rw [List.nil_append, List.nil_append, read_of_setOption (readFrom_joined ..),
      read_of_setOption (readFrom_separate (separate?_spelling option) ..)] at alone
    exact alike_of_setOption rfl (map_fill_inj alone)
  · intro alike terminal front behind whole
    exact read_joined alike whole terminal behind

/-- A template that begins with the option and the sign loses them. -/
theorem lead_repeated :
    read false ["--template=--template=x"] = .ok (.fill { template := some "x" }) ∧
      read false ["--template", "--template=x"] =
        .ok (.fill { template := some "--template=x" }) := by
  have stripped : Valued.template.stripped "--template=x" = "x" := by
    have nonempty := Valued.template.lead_ne_nil
    have lead : "--template=x".toList = Valued.template.lead ++ ['x'] := rfl
    rw [Valued.stripped, lead, dropLeads_append nonempty,
      (dropLeads_eq_self_iff nonempty).2 (by decide)]
  constructor
  · have joined := read_of_setOption
      (readFrom_joined .template { color := false } "--template=x" [])
    rw [stripped] at joined
    exact joined
  · exact read_of_setOption
      (readFrom_separate (separate?_spelling .template) { color := false } "--template=x" [])

end Stencil.Cli
