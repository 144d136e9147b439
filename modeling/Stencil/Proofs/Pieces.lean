/-
# The pieces of a marked text

A text comes back from marking and unmarking when each of its pieces between two neighbouring
brackets does, and for a piece it depends on what is at its two ends.

* `Edge`: what is at an end of a piece.  At a `bare` one the piece loses what looks like a mark; at
  one that is `marked` it loses just the mark.
* `Edge.stripEnd_stripStart_iff`, `Edge.stripStart_stripEnd_iff`: which pieces come back.  The
  braces are unmarked first, so which end is looked at first depends on the kinds of the two
  brackets.
* `StartKept`, `EndKept`: the same, said of what stands around the piece (`piece_kept_iff`).
-/
import Stencil.Proofs.Unmarking

namespace Stencil

open Stencil.Text Stencil.Depth

/-! ## 1. The ends of a piece -/

theorem stripStart_openText (n : Nat) (cs : List Char) :
    stripStart (Bracket.openText n ++ cs) = cs := by
  rw [Bracket.openText_append, stripStart_append (digits_decimalDigits n)]

theorem stripEnd_closeText (n : Nat) (cs : List Char) :
    stripEnd (cs ++ Bracket.closeText n) = cs :=
  stripEnd_append (digits_decimalDigits n) cs

/-- In front of a mark digits lose the percent sign of the mark. -/
theorem stripEnd_stripStart_closeText (n : Nat) (cs : List Char) :
    stripEnd (stripStart (cs ++ Bracket.closeText n)) = cs ↔
      ¬ StartsMarked cs ∧ (Digits cs → cs = decimalDigits n) := by
  by_cases starts : StartsMarked cs
  · obtain ⟨ds, rest, digits, rfl⟩ := starts
    have whole : ds ++ '%' :: rest ++ Bracket.closeText n =
        ds ++ '%' :: (rest ++ Bracket.closeText n) := by simp
    rw [whole, stripStart_append digits, stripEnd_closeText]
    refine iff_of_false (fun same => ?_) (fun h => h.1 ⟨ds, rest, digits, rfl⟩)
    have := congrArg List.length same
    simp at this
    omega
  · by_cases digits : Digits cs
    · have plain := (digits_decimalDigits n).not_endsMarked
      rw [Bracket.closeText, stripStart_append digits, stripEnd_of_not plain]
      exact ⟨fun same => ⟨starts, fun _ => same.symm⟩, fun h => (h.2 digits).symm⟩
    · have other : ¬ StartsMarked (cs ++ Bracket.closeText n) := by
        rw [Bracket.closeText, startsMarked_append_percent]
        exact not_or.2 ⟨starts, digits⟩
      rw [stripStart_of_not other, stripEnd_closeText]
      exact iff_of_true rfl ⟨starts, fun h => absurd h digits⟩

/-- Behind a mark digits lose its percent sign. -/
theorem stripStart_stripEnd_openText (n : Nat) (cs : List Char) :
    stripStart (stripEnd (Bracket.openText n ++ cs)) = cs ↔
      ¬ EndsMarked cs ∧ (Digits cs → cs = decimalDigits n) := by
  by_cases ends : EndsMarked cs
  · obtain ⟨front, ds, digits, rfl⟩ := ends
    rw [← List.append_assoc, stripEnd_append digits, stripStart_openText]
    refine iff_of_false (fun same => ?_) (fun h => h.1 ⟨front, ds, digits, rfl⟩)
    have := congrArg List.length same
    simp at this
  · by_cases digits : Digits cs
    · have plain := (digits_decimalDigits n).not_startsMarked
      rw [Bracket.openText_append, stripEnd_append digits, stripStart_of_not plain]
      exact ⟨fun same => ⟨ends, fun _ => same.symm⟩, fun h => (h.2 digits).symm⟩
    · have other : ¬ EndsMarked (Bracket.openText n ++ cs) := by
        rw [Bracket.openText_append, endsMarked_append_percent]
        exact not_or.2 ⟨ends, digits⟩
      rw [stripEnd_of_not other, stripStart_openText]
      exact iff_of_true rfl ⟨ends, fun h => absurd h digits⟩

/-- What is at an end of a piece between brackets. -/
inductive Edge
  /-- nothing that would have a mark on this side -/
  | plain
  /-- a bracket without its mark -/
  | bare
  /-- a bracket with its mark -/
  | marked (n : Nat)

namespace Edge

/-- The mark at the start of a piece. -/
def opening : Edge → List Char
  | marked n => Bracket.openText n
  | _ => []

/-- The mark at the end of a piece. -/
def closing : Edge → List Char
  | marked n => Bracket.closeText n
  | _ => []

theorem isMark_opening (l : Edge) : ∀ c ∈ l.opening, isMark c = true := by
  cases l with
  | marked n => exact Bracket.isMark_openText n
  | plain => exact fun c no => absurd no List.not_mem_nil
  | bare => exact fun c no => absurd no List.not_mem_nil

theorem isMark_closing (r : Edge) : ∀ c ∈ r.closing, isMark c = true := by
  cases r with
  | marked n => exact Bracket.isMark_closeText n
  | plain => exact fun c no => absurd no List.not_mem_nil
  | bare => exact fun c no => absurd no List.not_mem_nil

/-- A piece without what looks like a mark at its start. -/
def stripStart : Edge → List Char → List Char
  | plain, cs => cs
  | _, cs => Stencil.stripStart cs

/-- A piece without what looks like a mark at its end. -/
def stripEnd : Edge → List Char → List Char
  | plain, cs => cs
  | _, cs => Stencil.stripEnd cs

/-- **What a piece loses when the opener takes its mark first.**  Between a bare opener and a marked
closer digits are taken for the mark of the opener. -/
theorem stripEnd_stripStart_iff (l r : Edge) (cs : List Char) :
    r.stripEnd (l.stripStart (l.opening ++ (cs ++ r.closing))) = cs ↔
      (l = bare → ¬ StartsMarked cs) ∧ (r = bare → ¬ EndsMarked cs) ∧
        ∀ n, l = bare → r = marked n → Digits cs → cs = decimalDigits n := by
  cases l with
  | plain =>
    cases r with
    | plain => simp [stripEnd, stripStart, opening, closing]
    | bare => simp [stripEnd, stripStart, opening, closing, stripEnd_eq_iff]
    | marked m => simp [stripEnd, stripStart, opening, closing, stripEnd_closeText]
  | bare =>
    cases r with
    | plain => simp [stripEnd, stripStart, opening, closing, stripStart_eq_iff]
    | bare => simp [stripEnd, stripStart, opening, closing, stripEnd_stripStart_eq_iff]
    | marked m => simp [stripEnd, stripStart, opening, closing, stripEnd_stripStart_closeText]
  | marked n =>
    cases r with
    | plain => simp [stripEnd, stripStart, opening, closing, stripStart_openText]
    | bare => simp [stripEnd, stripStart, opening, closing, stripStart_openText, stripEnd_eq_iff]
    | marked m =>
      simp [stripEnd, stripStart, opening, closing, stripStart_openText, stripEnd_closeText]

/-- **What it loses when the closer does.**  Between a marked opener and a bare closer digits are
taken for the mark of the closer. -/
theorem stripStart_stripEnd_iff (l r : Edge) (cs : List Char) :
    l.stripStart (r.stripEnd (l.opening ++ (cs ++ r.closing))) = cs ↔
      (l = bare → ¬ StartsMarked cs) ∧ (r = bare → ¬ EndsMarked cs) ∧
        ∀ n, l = marked n → r = bare → Digits cs → cs = decimalDigits n := by
  cases r with
  | plain =>
    cases l with
    | plain => simp [stripEnd, stripStart, opening, closing]
    | bare => simp [stripEnd, stripStart, opening, closing, stripStart_eq_iff]
    | marked m => simp [stripEnd, stripStart, opening, closing, stripStart_openText]
  | bare =>
    cases l with
    | plain => simp [stripEnd, stripStart, opening, closing, stripEnd_eq_iff]
    | bare => simp [stripEnd, stripStart, opening, closing, stripStart_stripEnd_eq_iff]
    | marked m => simp [stripEnd, stripStart, opening, closing, stripStart_stripEnd_openText]
  | marked n =>
    have assoc : ∀ l : Edge, l.opening ++ (cs ++ Bracket.closeText n) =
        (l.opening ++ cs) ++ Bracket.closeText n := fun l => (List.append_assoc ..).symm
    have ended : ∀ l : Edge, (marked n).stripEnd (l.opening ++ (cs ++ (marked n).closing)) =
        l.opening ++ cs := by
      intro l
      rw [closing, stripEnd, assoc, stripEnd_closeText]
      all_goals simp
    rw [ended]
    cases l with
    | plain => simp [stripStart, opening]
    | bare => simp [stripStart, opening, stripStart_eq_iff]
    | marked m => simp [stripStart, opening, stripStart_openText]

end Edge

/-! ## 2. The pieces of a text -/

namespace Bracket

variable {b : Bracket}

/-- A closer behind `front` has a mark: one is open, and both brackets occur. -/
def Closes (b : Bracket) (whole front : List Char) : Prop := b.Paired whole ∧ 0 < b.level 0 front

instance (whole front : List Char) : Decidable (b.Closes whole front) :=
  inferInstanceAs (Decidable (b.Paired whole ∧ 0 < b.level 0 front))

/-- The start of the piece behind `front`, for one kind of brackets. -/
def leftEdge (b : Bracket) (whole front : List Char) : Edge :=
  if front.getLast? = some b.opener then
    if b.Paired whole then .marked (b.level 0 front) else .bare
  else .plain

/-- The end of the piece behind `front`, when `right` is what follows it. -/
def rightEdge (b : Bracket) (whole front : List Char) (right : Option Char) : Edge :=
  if right = some b.closer then
    if b.Closes whole front then .marked (b.level 0 front) else .bare
  else .plain

theorem leftEdge_eq_bare (whole front : List Char) : b.leftEdge whole front = .bare ↔
    front.getLast? = some b.opener ∧ ¬ b.Paired whole := by
  unfold leftEdge
  split
  · split <;> simp_all
  · simp_all

theorem leftEdge_eq_marked (whole front : List Char) (n : Nat) :
    b.leftEdge whole front = .marked n ↔
      front.getLast? = some b.opener ∧ b.Paired whole ∧ b.level 0 front = n := by
  unfold leftEdge
  split
  · split <;> simp_all
  · simp_all

theorem leftEdge_of_ne {front : List Char} (other : front.getLast? ≠ some b.opener)
    (whole : List Char) : b.leftEdge whole front = .plain := if_neg other

theorem rightEdge_eq_bare (whole front : List Char) (right : Option Char) :
    b.rightEdge whole front right = .bare ↔ right = some b.closer ∧ ¬ b.Closes whole front := by
  unfold rightEdge
  split
  · split <;> simp_all
  · simp_all

theorem rightEdge_eq_marked (whole front : List Char) (right : Option Char) (n : Nat) :
    b.rightEdge whole front right = .marked n ↔
      right = some b.closer ∧ b.Closes whole front ∧ b.level 0 front = n := by
  unfold rightEdge
  split
  · split <;> simp_all
  · simp_all

theorem rightEdge_of_ne {right : Option Char} (other : right ≠ some b.closer)
    (whole front : List Char) : b.rightEdge whole front right = .plain := if_neg other

theorem closes_append {cs : List Char} (free : b.Free cs) (whole front : List Char) :
    b.Closes whole (front ++ cs) ↔ b.Closes whole front := by
  unfold Closes
  rw [level_append, free.level]

theorem rightEdge_append {cs : List Char} (free : b.Free cs) (whole front : List Char)
    (right : Option Char) :
    b.rightEdge whole (front ++ cs) right = b.rightEdge whole front right := by
  simp only [rightEdge, closes_append free, level_append, free.level]

/-- Where a closer has its mark, so have the openers of its kind. -/
theorem leftEdge_ne_bare {whole front : List Char} {right : Option Char} {n : Nat}
    (h : b.rightEdge whole front right = .marked n) : b.leftEdge whole front ≠ .bare := by
  intro bare
  obtain ⟨-, closes, -⟩ := (rightEdge_eq_marked whole front right n).1 h
  exact ((leftEdge_eq_bare whole front).1 bare).2 closes.1

theorem behind_eq_opening (whole front : List Char) (c : Char) :
    b.behind whole (b.level 0 front) c = (b.leftEdge whole (front ++ [c])).opening := by
  have last : (front ++ [c]).getLast? = some b.opener ↔ c = b.opener := by simp
  unfold behind leftEdge
  by_cases opens : c = b.opener
  · have deeper : b.level 0 (front ++ [c]) = b.level 0 front + 1 := by
      rw [level_append, opens, level_opener, level_nil]
    by_cases paired : b.Paired whole
    · rw [if_pos ⟨opens, paired⟩, if_pos (last.2 opens), if_pos paired, deeper]
      rfl
    · rw [if_neg fun h => paired h.2, if_pos (last.2 opens), if_neg paired]
      rfl
  · rw [if_neg fun h => opens h.1, if_neg (mt last.1 opens)]
    rfl

theorem before_eq_closing (whole front : List Char) (c : Char) :
    b.before whole (b.level 0 front) c = (b.rightEdge whole front (some c)).closing := by
  unfold before rightEdge
  by_cases closes : c = b.closer
  · by_cases marks : b.Closes whole front
    · rw [if_pos ⟨closes, marks⟩, if_pos (congrArg some closes), if_pos marks]
      rfl
    · rw [if_neg fun h => marks h.2, if_pos (congrArg some closes), if_neg marks]
      rfl
  · rw [if_neg fun h => closes h.1, if_neg fun h => closes (Option.some.inj h)]
    rfl

theorem stripLeft_eq (whole front cs : List Char) :
    b.stripLeft front.getLast? cs = (b.leftEdge whole front).stripStart cs := by
  unfold stripLeft leftEdge
  split
  · split <;> rfl
  · rfl

theorem stripRight_eq (whole front : List Char) (right : Option Char) (cs : List Char) :
    b.stripRight right cs = (b.rightEdge whole front right).stripEnd cs := by
  unfold stripRight rightEdge
  split
  · split <;> rfl
  · rfl

end Bracket

/-- The marks at the start of the piece behind `front`. -/
def opening (whole front : List Char) : List Char :=
  (squares.leftEdge whole front).opening ++ (braces.leftEdge whole front).opening

/-- The marks at its end. -/
def closing (whole front : List Char) (right : Option Char) : List Char :=
  (braces.rightEdge whole front right).closing ++ (squares.rightEdge whole front right).closing

/-- What follows `front` does not look like what is behind a mark, if the piece starts without
one.  With digits alone up to a closer it depends on whether they are those of the other mark. -/
structure StartKept (whole front cs : List Char) : Prop where
  bare : ∀ b ∈ kinds, b.leftEdge whole front = .bare → ¬ StartsMarked cs
  braceSquare : ∀ ds tail n, cs = ds ++ tail → Digits ds → braces.leftEdge whole front = .bare →
    squares.rightEdge whole front tail.head? = .marked n → ds = decimalDigits n
  squareBrace : ∀ ds tail n, cs = ds ++ tail → Digits ds →
    squares.leftEdge whole front = .marked n →
    braces.rightEdge whole front tail.head? = .bare → ds = decimalDigits n

/-- What stands in front of a closer does not look like what is in front of a mark, if the closer
has none. -/
def EndKept (whole front : List Char) (right : Option Char) : Prop :=
  ∀ b ∈ kinds, b.rightEdge whole front right = .bare → ¬ EndsMarked front

theorem strip_eq (whole front : List Char) (right : Option Char) (cs : List Char) :
    strip front.getLast? right cs =
      (squares.rightEdge whole front right).stripEnd
        ((squares.leftEdge whole front).stripStart
          ((braces.rightEdge whole front right).stripEnd
            ((braces.leftEdge whole front).stripStart cs))) := by
  unfold strip
  rw [Bracket.stripLeft_eq whole, Bracket.stripRight_eq whole front, Bracket.stripLeft_eq whole,
    Bracket.stripRight_eq whole front]

/-- **A piece comes back from between its marks** if nothing at its ends looks like one more, and if
no mark looks like one of the other bracket. -/
theorem strip_piece_iff (whole front : List Char) (right : Option Char) (cs : List Char) :
    strip front.getLast? right (opening whole front ++ (cs ++ closing whole front right)) = cs ↔
      (∀ b ∈ kinds, b.leftEdge whole front = .bare → ¬ StartsMarked cs) ∧
      (∀ b ∈ kinds, b.rightEdge whole front right = .bare → ¬ EndsMarked cs) ∧
      (∀ n, braces.leftEdge whole front = .bare →
        squares.rightEdge whole front right = .marked n → Digits cs → cs = decimalDigits n) ∧
      ∀ n, squares.leftEdge whole front = .marked n →
        braces.rightEdge whole front right = .bare → Digits cs → cs = decimalDigits n := by
  have brace : ∀ n, braces.leftEdge whole front = .bare →
      braces.rightEdge whole front right ≠ .marked n :=
    fun n bare marked => Bracket.leftEdge_ne_bare marked bare
  have square : ∀ n, squares.leftEdge whole front = .bare →
      squares.rightEdge whole front right ≠ .marked n :=
    fun n bare marked => Bracket.leftEdge_ne_bare marked bare
  have apart : ∀ {l r : Edge}, (∀ n, l = .bare → r ≠ .marked n) →
      ((∀ n, l = .bare → r = .marked n → Digits cs → cs = decimalDigits n) ↔ True) :=
    fun h => iff_true_intro fun n bare marked => absurd marked (h n bare)
  rw [strip_eq, forall_kinds, forall_kinds]
  unfold opening closing
  -- a piece has one bracket at each end, so each end is plain to one of the two kinds
  by_cases opens : front.getLast? = some '['
  · have plain : braces.leftEdge whole front = .plain :=
      Bracket.leftEdge_of_ne (by rw [opens]; decide) whole
    rw [plain] at brace ⊢
    by_cases closes : right = some '}'
    · have plain' : squares.rightEdge whole front right = .plain :=
        Bracket.rightEdge_of_ne (by rw [closes]; decide) whole front
      rw [plain']
      have := Edge.stripStart_stripEnd_iff (squares.leftEdge whole front)
        (braces.rightEdge whole front right) cs
      simpa [Edge.stripStart, Edge.stripEnd, Edge.opening, Edge.closing] using this
    · have plain' : braces.rightEdge whole front right = .plain :=
        Bracket.rightEdge_of_ne closes whole front
      rw [plain']
      have := Edge.stripEnd_stripStart_iff (squares.leftEdge whole front)
        (squares.rightEdge whole front right) cs
      rw [apart square] at this
      simpa [Edge.stripStart, Edge.stripEnd, Edge.opening, Edge.closing] using this
  · have plain : squares.leftEdge whole front = .plain := Bracket.leftEdge_of_ne opens whole
    rw [plain] at square ⊢
    by_cases closes : right = some '}'
    · have plain' : squares.rightEdge whole front right = .plain :=
        Bracket.rightEdge_of_ne (by rw [closes]; decide) whole front
      rw [plain']
      have := Edge.stripEnd_stripStart_iff (braces.leftEdge whole front)
        (braces.rightEdge whole front right) cs
      rw [apart brace] at this
      simpa [Edge.stripStart, Edge.stripEnd, Edge.opening, Edge.closing] using this
    · have plain' : braces.rightEdge whole front right = .plain :=
        Bracket.rightEdge_of_ne closes whole front
      rw [plain']
      have := Edge.stripEnd_stripStart_iff (braces.leftEdge whole front)
        (squares.rightEdge whole front right) cs
      simpa [Edge.stripStart, Edge.stripEnd, Edge.opening, Edge.closing] using this

theorem stops_isMark {cs : List Char} (next : ∀ c ∈ cs.head?, isBracket c = true) :
    Stops isMark cs := fun c first => isMark_of_isBracket (next c first)

/-- Where a text without brackets ends can be seen from what follows it. -/
theorem append_inj_of_free {u w x y : List Char} (freeU : ∀ c ∈ u, isBracket c = false)
    (freeW : ∀ c ∈ w, isBracket c = false) (nextX : ∀ c ∈ x.head?, isBracket c = true)
    (nextY : ∀ c ∈ y.head?, isBracket c = true) : u ++ x = w ++ y ↔ u = w ∧ x = y := by
  have run : ∀ {v z : List Char}, (∀ c ∈ v, isBracket c = false) →
      (∀ c ∈ z.head?, isBracket c = true) → (v ++ z).takeWhile (fun c => !isBracket c) = v := by
    intro v z free next
    refine takeWhile_append_of_stops (fun c mem => ?_) fun c first => ?_
    · rw [free c mem]
      rfl
    · rw [next c first]
      rfl
  constructor
  · intro same
    have front := congrArg (List.takeWhile fun c => !isBracket c) same
    rw [run freeU nextX, run freeW nextY] at front
    subst front
    exact ⟨rfl, List.append_cancel_left same⟩
  · rintro ⟨rfl, rfl⟩
    rfl

theorem Digits.isBracket {ds : List Char} (digits : Digits ds) : ∀ c ∈ ds, isBracket c = false :=
  fun c mem => isBracket_of_class (digits.2 c mem) (by decide) (by decide)

section Piece

variable {whole front cs tail : List Char}

/-- The same, said of what stands around the piece. -/
theorem piece_kept_iff (edge : ∀ c ∈ front.getLast?, isBracket c = true)
    (free : ∀ c ∈ cs, isBracket c = false) (next : ∀ c ∈ tail.head?, isBracket c = true) :
    strip front.getLast? tail.head? (opening whole front ++ (cs ++ closing whole front tail.head?))
        = cs ↔
      StartKept whole front (cs ++ tail) ∧ EndKept whole (front ++ cs) tail.head? := by
  obtain ⟨brace, square⟩ := free_of_isBracket free
  have same : ∀ b ∈ kinds, b.rightEdge whole (front ++ cs) tail.head? =
      b.rightEdge whole front tail.head? :=
    forall_kinds.2 ⟨Bracket.rightEdge_append brace whole front _,
      Bracket.rightEdge_append square whole front _⟩
  have starts : StartsMarked (cs ++ tail) ↔ StartsMarked cs :=
    startsMarked_append (stops_isMark next)
  have ends : EndsMarked (front ++ cs) ↔ EndsMarked cs :=
    endsMarked_append fun c last => isMark_of_isBracket (edge c last)
  -- digits up to a closer are the whole piece
  have upTo : ∀ {ds more : List Char} {c : Char}, cs ++ tail = ds ++ more → Digits ds →
      more.head? = some c → isBracket c = true → cs = ds ∧ tail = more := by
    intro ds more c eq digits first closes
    refine (append_inj_of_free free digits.isBracket next fun d mem => ?_).1 eq
    rw [first] at mem
    exact Option.some.inj mem ▸ closes
  rw [strip_piece_iff]
  constructor
  · rintro ⟨start, ending, braceSquare, squareBrace⟩
    refine ⟨⟨fun b kind bare => ?_, ?_, ?_⟩, fun b kind bare => ?_⟩
    · rw [starts]
      exact start b kind bare
    · intro ds more n eq digits bare marked
      obtain ⟨rfl, rfl⟩ := upTo eq digits ((Bracket.rightEdge_eq_marked ..).1 marked).1 (by decide)
      exact braceSquare n bare marked digits
    · intro ds more n eq digits marked bare
      obtain ⟨rfl, rfl⟩ := upTo eq digits ((Bracket.rightEdge_eq_bare ..).1 bare).1 (by decide)
      exact squareBrace n marked bare digits
    · rw [ends]
      rw [same b kind] at bare
      exact ending b kind bare
  · rintro ⟨⟨start, braceSquare, squareBrace⟩, ending⟩
    refine ⟨fun b kind bare => ?_, fun b kind bare => ?_, ?_, ?_⟩
    · rw [← starts]
      exact start b kind bare
    · rw [← ends]
      exact ending b kind (by rw [same b kind, bare])
    · intro n bare marked digits
      exact braceSquare cs tail n rfl digits bare marked
    · intro n marked bare digits
      exact squareBrace cs tail n rfl digits marked bare

end Piece

end Stencil
