/-
# Texts that are kept

Which texts come back when they are marked and unmarked again.  All of those do in which every
closer closes something.  In other texts brackets stay without a mark, and then what the text itself
has beside them may be taken for one.

* `unmarkBrackets_markedIn_iff`: a text comes back when its pieces do.
* `Faithful`: the texts that do, by what they have beside their brackets
  (`unmarkBrackets_markBrackets_iff`).
* `unmarkBrackets_markBrackets`: the texts in which every closer closes something.
* `readList_quoted`, `readList_quoted_iff`: so a string in quotes is read as it is written just when
  it is faithful.
-/
import Stencil.Proofs.ArgumentList
import Stencil.Proofs.Pieces

namespace Stencil

open Stencil.Text Stencil.Depth

/-! ## 1. The whole text -/

theorem isBracket_opening (whole front : List Char) :
    ∀ c ∈ opening whole front, isBracket c = false := by
  intro c mem
  rcases List.mem_append.1 mem with mem | mem
  · exact isBracket_of_isMark (Edge.isMark_opening _ c mem)
  · exact isBracket_of_isMark (Edge.isMark_opening _ c mem)

theorem isBracket_closing (whole front : List Char) (right : Option Char) :
    ∀ c ∈ closing whole front right, isBracket c = false := by
  intro c mem
  rcases List.mem_append.1 mem with mem | mem
  · exact isBracket_of_isMark (Edge.isMark_closing _ c mem)
  · exact isBracket_of_isMark (Edge.isMark_closing _ c mem)

theorem closing_append {cs : List Char} (free : ∀ c ∈ cs, isBracket c = false)
    (whole front : List Char) (right : Option Char) :
    closing whole (front ++ cs) right = closing whole front right := by
  obtain ⟨brace, square⟩ := free_of_isBracket free
  unfold closing
  rw [Bracket.rightEdge_append brace, Bracket.rightEdge_append square]

/-- A character with the marks around it, and what follows. -/
theorem markedIn_cons (whole front : List Char) (c : Char) (cs : List Char) :
    markedIn whole front (c :: cs) = closing whole front (some c) ++
      c :: (opening whole (front ++ [c]) ++ markedIn whole (front ++ [c]) cs) := by
  rw [← List.singleton_append, markedIn_append, markedIn_singleton]
  unfold markBefore markBehind opening closing
  rw [Bracket.before_eq_closing, Bracket.before_eq_closing, Bracket.behind_eq_opening,
    Bracket.behind_eq_opening]
  simp

theorem head?_unmarkBrackets {cs : List Char} (stops : Stops isMark cs) :
    (unmarkBrackets cs).head? = cs.head? := by
  have first := Bracket.head?_unmarkPair (b := braces) stops
  have stops' : Stops isMark (unmarkPair cs braces.delimiters) := fun c h => stops c (first ▸ h)
  rw [unmarkBrackets_eq, Bracket.head?_unmarkPair stops', first]

theorem unmarkBrackets_nil : unmarkBrackets [] = [] := by
  simp [unmarkBrackets, unmarkPairs, brackets, unmarkPair, substitute]

/-- Up to the next bracket a text comes back if the piece up to there does. -/
theorem unmarkBrackets_step {whole front cs tail marked : List Char}
    (edge : ∀ c ∈ front.getLast?, isBracket c = true) (free : ∀ c ∈ cs, isBracket c = false)
    (next : ∀ c ∈ tail.head?, isBracket c = true) (same : marked.head? = tail.head?) :
    unmarkBrackets (front.getLast?.toList ++
        (opening whole front ++ (cs ++ (closing whole front tail.head? ++ marked)))) =
          front.getLast?.toList ++ (cs ++ tail) ↔
      (StartKept whole front (cs ++ tail) ∧ EndKept whole (front ++ cs) tail.head?) ∧
        unmarkBrackets marked = tail := by
  have next' : ∀ c ∈ marked.head?, isBracket c = true := by rwa [same]
  have inner : ∀ c ∈ opening whole front ++ (cs ++ closing whole front tail.head?),
      isBracket c = false := by
    intro c mem
    rcases List.mem_append.1 mem with mem | mem
    · exact isBracket_opening whole front c mem
    · rcases List.mem_append.1 mem with mem | mem
      · exact free c mem
      · exact isBracket_closing whole front _ c mem
  have piece := unmarkBrackets_piece (fun c last => isMark_of_isBracket (edge c last)) inner
    (stops_isMark next')
  simp only [List.append_assoc] at piece
  have ahead : ∀ c ∈ (unmarkBrackets marked).head?, isBracket c = true := by
    rw [head?_unmarkBrackets (stops_isMark next')]
    exact next'
  rw [piece, same, List.append_cancel_left_eq,
    append_inj_of_free (isBracket_strip inner _ _) free ahead next, piece_kept_iff edge free next]

theorem forall_split_cons {p : List Char → Char → List Char → Prop} {c : Char} {cs : List Char} :
    (∀ front d rest, c :: cs = front ++ d :: rest → p front d rest) ↔
      p [] c cs ∧ ∀ front d rest, cs = front ++ d :: rest → p (c :: front) d rest := by
  constructor
  · intro h
    exact ⟨h [] c cs rfl, fun front d rest eq => h (c :: front) d rest (by rw [eq]; rfl)⟩
  · rintro ⟨first, later⟩ front d rest eq
    cases front with
    | nil =>
      obtain ⟨rfl, rfl⟩ := List.cons.inj eq
      exact first
    | cons c' front =>
      obtain ⟨rfl, eq'⟩ := List.cons.inj eq
      exact later front d rest eq'

/-- At a character that is no bracket there is nothing to keep. -/
theorem startKept_of_edge {whole front : List Char}
    (edge : ∀ c ∈ front.getLast?, isBracket c = false) (cs : List Char) :
    StartKept whole front cs := by
  have plain : ∀ b ∈ kinds, b.leftEdge whole front = .plain := by
    refine forall_kinds.2 ⟨?_, ?_⟩
    · exact Bracket.leftEdge_of_ne (fun last => absurd (edge _ last) (by decide)) whole
    · exact Bracket.leftEdge_of_ne (fun last => absurd (edge _ last) (by decide)) whole
  obtain ⟨brace, square⟩ := forall_kinds.1 plain
  refine ⟨fun b kind bare => ?_, fun ds tail n eq digits bare => ?_,
    fun ds tail n eq digits marked => ?_⟩
  · rw [plain b kind] at bare
    cases bare
  · rw [brace] at bare
    cases bare
  · rw [square] at marked
    cases marked

theorem endKept_of_edge {whole front : List Char} {right : Option Char}
    (edge : ∀ c ∈ right, isBracket c = false) : EndKept whole front right := by
  intro b kind bare
  obtain ⟨closes, -⟩ := (Bracket.rightEdge_eq_bare ..).1 bare
  have bracket : ∀ b ∈ kinds, isBracket b.closer = true := forall_kinds.2 ⟨rfl, rfl⟩
  have := edge _ closes
  rw [bracket b kind] at this
  cases this

/-- **A text comes back when its pieces do.**  `cs` is what has been read since the last bracket. -/
theorem unmarkBrackets_markedIn_iff (whole : List Char) {front cs : List Char}
    (edge : ∀ c ∈ front.getLast?, isBracket c = true) (free : ∀ c ∈ cs, isBracket c = false)
    (rest : List Char) :
    unmarkBrackets (front.getLast?.toList ++
        (opening whole front ++ (cs ++ markedIn whole (front ++ cs) rest))) =
          front.getLast?.toList ++ (cs ++ rest) ↔
      StartKept whole front (cs ++ rest) ∧ ∀ more c behind, rest = more ++ c :: behind →
        EndKept whole (front ++ cs ++ more) (some c) ∧
          StartKept whole (front ++ cs ++ more ++ [c]) behind := by
  induction rest generalizing front cs with
  | nil =>
    have atEnd : ∀ c ∈ ([] : List Char).head?, isBracket c = true := fun c no => nomatch no
    have step := @unmarkBrackets_step whole _ _ [] [] edge free atEnd rfl
    have nothing : closing whole front none = [] := rfl
    have ending : EndKept whole (front ++ cs) none := endKept_of_edge fun c no => nomatch no
    rw [markedIn_nil]
    rw [List.head?_nil, nothing, List.append_nil, List.append_nil] at step
    simp [step, ending, unmarkBrackets_nil]
  | cons c rest ih =>
    rw [forall_split_cons]
    cases bracket : isBracket c with
    | true =>
      have next : ∀ d ∈ (c :: rest).head?, isBracket d = true := by
        rintro d ⟨⟩
        exact bracket
      have edge' : ∀ d ∈ (front ++ cs ++ [c]).getLast?, isBracket d = true := by
        rw [List.getLast?_concat]
        rintro d ⟨⟩
        exact bracket
      have none : ∀ d ∈ ([] : List Char), isBracket d = false := fun d no => nomatch no
      have step := @unmarkBrackets_step whole _ _ _
        (c :: (opening whole (front ++ cs ++ [c]) ++ markedIn whole (front ++ cs ++ [c]) rest))
        edge free next rfl
      have later := ih edge' none
      have same : closing whole front (some c) = closing whole (front ++ cs) (some c) :=
        (closing_append free whole front _).symm
      rw [List.head?_cons, same, ← markedIn_cons] at step
      rw [step]
      simp only [List.getLast?_concat, Option.toList_some, List.singleton_append, List.nil_append,
        List.append_nil] at later
      rw [later]
      simp [and_assoc]
    | false =>
      have free' : ∀ d ∈ cs ++ [c], isBracket d = false := by
        intro d mem
        rcases List.mem_append.1 mem with mem | mem
        · exact free d mem
        · rw [List.mem_singleton.1 mem, bracket]
      have later := ih edge free'
      have alone : markedIn whole (front ++ cs) (c :: rest) =
          c :: markedIn whole (front ++ cs ++ [c]) rest := by
        have one : ∀ d ∈ [c], isBracket d = false := by simpa using bracket
        rw [← List.singleton_append, markedIn_append, markedIn_of_free one, List.singleton_append]
      have ending : EndKept whole (front ++ cs) (some c) := endKept_of_edge (by simpa using bracket)
      have start : StartKept whole (front ++ cs ++ [c]) rest :=
        startKept_of_edge (by simpa using bracket) rest
      rw [alone]
      simp only [List.append_assoc, List.singleton_append] at later ending start ⊢
      rw [later]
      simp [ending, start]

/-! ## 2. Faithful texts -/

/-- Nothing in the text that looks like a mark is taken for one.  Where brackets have marks of their
own, it may have whatever it likes beside them. -/
structure Faithful (cs : List Char) : Prop where
  /-- Behind an opener it may look as behind a mark only if openers of this kind are marked. -/
  opener : ∀ b ∈ kinds, ∀ front rest, cs = front ++ b.opener :: rest → StartsMarked rest →
    b.Paired cs
  /-- In front of a closer it may look as in front of a mark only if this closer is marked. -/
  closer : ∀ b ∈ kinds, ∀ front rest, cs = front ++ b.closer :: rest → EndsMarked front →
    b.Closes cs front
  /-- Between a brace and a square bracket there are no digits, when just the one that closes has a
  mark, and the mark of the other one would be looked for first; unless they are those of the
  mark. -/
  braceSquare : ∀ front ds rest, cs = front ++ '{' :: (ds ++ ']' :: rest) → Digits ds →
    ¬ braces.Paired cs → squares.Closes cs front → ds = decimalDigits (squares.level 0 front)
  /-- The same holds when just the one that opens has a mark. -/
  squareBrace : ∀ front ds rest, cs = front ++ '[' :: (ds ++ '}' :: rest) → Digits ds →
    squares.Paired cs → ¬ braces.Closes cs front → ds = decimalDigits (squares.level 0 front + 1)

theorem squares_level_brace (front : List Char) :
    squares.level 0 (front ++ ['{']) = squares.level 0 front := by
  rw [Bracket.level_append, Bracket.level_other (by decide) (by decide), Bracket.level_nil]

theorem squares_level_square (front : List Char) :
    squares.level 0 (front ++ ['[']) = squares.level 0 front + 1 := by
  rw [Bracket.level_append]
  exact Bracket.level_opener _ []

theorem squares_closes_brace (cs front : List Char) :
    squares.Closes cs (front ++ ['{']) ↔ squares.Closes cs front :=
  Bracket.closes_append (by simp [Bracket.Free, squares]) cs front

theorem braces_closes_square (cs front : List Char) :
    braces.Closes cs (front ++ ['[']) ↔ braces.Closes cs front :=
  Bracket.closes_append (by simp [Bracket.Free, braces]) cs front

/-- A text is faithful just when all its pieces are kept. -/
theorem faithful_iff (cs : List Char) : Faithful cs ↔ ∀ front c rest, cs = front ++ c :: rest →
    EndKept cs front (some c) ∧ StartKept cs (front ++ [c]) rest := by
  constructor
  · rintro ⟨opener, closer, braceSquare, squareBrace⟩ front c rest eq
    refine ⟨fun b kind bare ends => ?_, fun b kind bare starts => ?_, ?_, ?_⟩
    · obtain ⟨last, open'⟩ := (Bracket.rightEdge_eq_bare ..).1 bare
      cases last
      exact open' (closer b kind front rest eq ends)
    · obtain ⟨first, alone⟩ := (Bracket.leftEdge_eq_bare ..).1 bare
      rw [List.getLast?_concat] at first
      cases first
      exact alone (opener b kind front rest eq starts)
    · intro ds tail n whole digits bare marked
      obtain ⟨first, alone⟩ := (Bracket.leftEdge_eq_bare ..).1 bare
      obtain ⟨last, closes, level⟩ := (Bracket.rightEdge_eq_marked ..).1 marked
      obtain rfl : c = '{' := by simpa [braces] using first
      obtain ⟨tail, rfl⟩ := List.head?_eq_some_iff.1 last
      rw [squares_closes_brace] at closes
      rw [← level, squares_level_brace]
      rw [whole] at eq
      exact braceSquare front ds tail eq digits alone closes
    · intro ds tail n whole digits marked bare
      obtain ⟨first, paired, level⟩ := (Bracket.leftEdge_eq_marked ..).1 marked
      obtain ⟨last, open'⟩ := (Bracket.rightEdge_eq_bare ..).1 bare
      obtain rfl : c = '[' := by simpa [squares] using first
      obtain ⟨tail, rfl⟩ := List.head?_eq_some_iff.1 last
      rw [braces_closes_square] at open'
      rw [← level, squares_level_square]
      rw [whole] at eq
      exact squareBrace front ds tail eq digits paired open'
  · intro kept
    refine ⟨?_, ?_, ?_, ?_⟩
    · intro b kind front rest eq starts
      by_contra alone
      have last : (front ++ [b.opener]).getLast? = some b.opener := List.getLast?_concat ..
      exact (kept front b.opener rest eq).2.bare b kind
        ((Bracket.leftEdge_eq_bare ..).2 ⟨last, alone⟩) starts
    · intro b kind front rest eq ends
      by_contra open'
      exact (kept front b.closer rest eq).1 b kind
        ((Bracket.rightEdge_eq_bare ..).2 ⟨rfl, open'⟩) ends
    · intro front ds rest eq digits alone closes
      have last : (front ++ ['{']).getLast? = some '{' := List.getLast?_concat ..
      exact (kept front '{' (ds ++ ']' :: rest) eq).2.braceSquare ds (']' :: rest) _ rfl digits
        ((Bracket.leftEdge_eq_bare ..).2 ⟨last, alone⟩)
        ((Bracket.rightEdge_eq_marked ..).2
          ⟨rfl, (squares_closes_brace cs front).2 closes, squares_level_brace front⟩)
    · intro front ds rest eq digits paired open'
      have last : (front ++ ['[']).getLast? = some '[' := List.getLast?_concat ..
      exact (kept front '[' (ds ++ '}' :: rest) eq).2.squareBrace ds ('}' :: rest) _ rfl digits
        ((Bracket.leftEdge_eq_marked ..).2 ⟨last, paired, squares_level_square front⟩)
        ((Bracket.rightEdge_eq_bare ..).2 ⟨rfl, mt (braces_closes_square cs front).1 open'⟩)

/-- **Which texts come back** when they are marked and unmarked: just the faithful ones. -/
theorem unmarkBrackets_markBrackets_iff (cs : List Char) :
    unmarkBrackets (markBrackets cs) = cs ↔ Faithful cs := by
  have none : ∀ c ∈ ([] : List Char).getLast?, isBracket c = true := fun c no => nomatch no
  have none' : ∀ c ∈ ([] : List Char).getLast?, isBracket c = false := fun c no => nomatch no
  have free : ∀ c ∈ ([] : List Char), isBracket c = false := fun c no => nomatch no
  have whole := unmarkBrackets_markedIn_iff cs none free cs
  have nothing : opening cs [] = [] := rfl
  simp only [nothing, List.getLast?_nil, Option.toList_none, List.nil_append] at whole
  rw [markBrackets_eq_markedIn, whole, faithful_iff]
  exact and_iff_right (startKept_of_edge none' cs)

theorem Bracket.open_of_nesting {b : Bracket} {cs front rest : List Char} {depth : Nat}
    (h : b.nesting 0 cs = some depth) (eq : cs = front ++ b.closer :: rest) :
    0 < b.level 0 front := by
  rw [eq, nesting_append] at h
  obtain ⟨n, nested, closed⟩ := Option.bind_eq_some_iff.1 h
  rw [level_of_nesting nested]
  cases n with
  | zero => simp at closed
  | succ n => exact Nat.succ_pos n

/-- **Texts in which every closer closes something** are kept.  They may leave brackets open, though
not if they have no closer of that kind, and the two kinds may cross. -/
theorem unmarkBrackets_markBrackets {cs : List Char}
    (closing : ∀ b ∈ kinds, b.Free cs ∨ (b.closer ∈ cs ∧
      ∀ front rest, cs = front ++ b.closer :: rest → 0 < b.level 0 front)) :
    unmarkBrackets (markBrackets cs) = cs := by
  have paired : ∀ b ∈ kinds, b.opener ∈ cs ∨ b.closer ∈ cs → b.Paired cs := by
    intro b kind some'
    rcases closing b kind with free | ⟨closer, closes⟩
    · rcases some' with opener | closer
      · exact absurd rfl (free _ opener).1
      · exact absurd rfl (free _ closer).2
    · obtain ⟨front, rest, eq⟩ := List.append_of_mem closer
      have inside : b.opener ∈ front := Bracket.opener_mem_of_level (closes front rest eq)
      exact ⟨eq ▸ List.mem_append_left _ inside, closer⟩
  have closes : ∀ b ∈ kinds, ∀ front rest, cs = front ++ b.closer :: rest → b.Closes cs front := by
    intro b kind front rest eq
    have closer : b.closer ∈ cs := eq ▸ List.mem_append_right _ (List.mem_cons_self ..)
    refine ⟨paired b kind (Or.inr closer), ?_⟩
    rcases closing b kind with free | ⟨-, closes⟩
    · exact absurd rfl (free _ closer).2
    · exact closes front rest eq
  have brace : braces ∈ kinds := List.mem_cons_self ..
  rw [unmarkBrackets_markBrackets_iff]
  refine ⟨?_, ?_, ?_, ?_⟩
  · intro b kind front rest eq starts
    exact paired b kind (Or.inl (eq ▸ List.mem_append_right _ (List.mem_cons_self ..)))
  · intro b kind front rest eq ends
    exact closes b kind front rest eq
  · intro front ds rest eq digits alone
    refine absurd (paired braces brace (Or.inl ?_)) alone
    exact eq ▸ List.mem_append_right _ (List.mem_cons_self ..)
  · intro front ds rest eq digits square open'
    -- nothing between the two brackets changes how many braces are open
    have whole : cs = (front ++ '[' :: ds) ++ '}' :: rest := by rw [eq]; simp
    have free : braces.Free ('[' :: ds) :=
      List.forall_mem_cons.2 ⟨by decide, (free_of_isBracket digits.isBracket).1⟩
    exact absurd ((Bracket.closes_append free cs front).1 (closes braces brace _ _ whole)) open'

/-- The two kinds cross, one brace and one square bracket stay open, and digits and percent signs
stand on either side of the brackets. -/
theorem unmarkBrackets_markBrackets_crossing :
    unmarkBrackets (markBrackets "%1\x7b2%[5%\x7d1%]\x7b3%[".toList) =
      "%1\x7b2%[5%\x7d1%]\x7b3%[".toList := by
  have brace : braces.nesting 0 "%1\x7b2%[5%\x7d1%]\x7b3%[".toList = some 1 := by decide +kernel
  have square : squares.nesting 0 "%1\x7b2%[5%\x7d1%]\x7b3%[".toList = some 1 := by decide +kernel
  refine unmarkBrackets_markBrackets fun b kind => Or.inr ?_
  rcases List.mem_pair.1 kind with rfl | rfl
  · exact ⟨by decide +kernel, fun front rest eq => Bracket.open_of_nesting brace eq⟩
  · exact ⟨by decide +kernel, fun front rest eq => Bracket.open_of_nesting square eq⟩

/-! ## 3. Strings in quotes -/

namespace Slot

open Written (Quote)

theorem singleton_ofChars_inj {cs ds : List Char} :
    [some (Value.ofChars cs)] = [some (Value.ofChars ds)] ↔ cs = ds := by
  simp [Value.ofChars, String.ofList_inj]

/-- A quoted string is a slot of its own. -/
theorem readMarked_quoted (q : Quote) {inner tail rest : List Char} (inside : q.mark ∉ inner)
    (h : Follows tail rest) : readMarked (q.mark :: (inner ++ q.mark :: tail)) =
      some (.ofChars (unmarkBrackets inner)) :: readMarked rest := by
  have whole : q.mark :: (inner ++ q.mark :: tail) =
      q.mark :: (inner ++ [q.mark]) ++ ([] ++ tail) := by simp
  have cutOff := cut_quoted Written.Gap.none Written.Gap.none q inside h
  rw [Written.readMarked_of_cut (List.cons_ne_nil _ _) (whole ▸ cutOff), Written.ofToken_quoted]

theorem free_mark (q : Quote) : ∀ b ∈ kinds, b.Free [q.mark] :=
  forall_kinds.2 (free_of_isBracket (List.forall_mem_singleton.2 q.isBracket_mark))

/-- Quotes are no brackets: what they enclose is marked as it would be without them. -/
theorem markedIn_quoted (q : Quote) (whole front cs more : List Char) :
    markedIn whole front (q.mark :: (cs ++ q.mark :: more)) =
      q.mark :: (markedIn whole front cs ++ q.mark :: markedIn whole (front ++ cs) more) := by
  have single : ∀ c ∈ [q.mark], isBracket c = false :=
    List.forall_mem_singleton.2 q.isBracket_mark
  have inner : ∀ b ∈ kinds, b.level 0 (front ++ [q.mark]) = b.level 0 front := by
    intro b kind
    rw [Bracket.level_append, (free_mark q b kind).level]
  have behind : ∀ b ∈ kinds,
      b.level 0 (front ++ [q.mark] ++ cs ++ [q.mark]) = b.level 0 (front ++ cs) := by
    intro b kind
    rw [Bracket.level_append, (free_mark q b kind).level, Bracket.level_append, inner b kind,
      Bracket.level_append]
  have same : ∀ b ∈ kinds, (b.Paired whole ↔ b.Paired whole) := fun _ _ => Iff.rfl
  have text : q.mark :: (cs ++ q.mark :: more) = [q.mark] ++ (cs ++ ([q.mark] ++ more)) := rfl
  rw [text, markedIn_append, markedIn_append, markedIn_append, markedIn_of_free single,
    markedIn_of_free single, markedIn_congr same inner, markedIn_congr same behind]
  rfl

theorem markBrackets_quoted (q : Quote) (cs more : List Char) :
    markBrackets (q.mark :: (cs ++ q.mark :: more)) =
      q.mark :: (markedIn (cs ++ more) [] cs ++ q.mark :: markedIn (cs ++ more) cs more) := by
  have paired : ∀ b ∈ kinds,
      (b.Paired ([q.mark] ++ (cs ++ ([q.mark] ++ more))) ↔ b.Paired (cs ++ more)) := by
    intro b kind
    have free := free_mark q b kind
    exact (free.paired_append [] _).trans (free.paired_append cs more)
  have same : ∀ front : List Char, ∀ b ∈ kinds, b.level 0 front = b.level 0 front :=
    fun _ _ _ => rfl
  rw [markBrackets_eq_markedIn, markedIn_quoted, List.nil_append]
  exact congrArg₂ (fun inner behind => q.mark :: (inner ++ q.mark :: behind))
    (markedIn_congr paired (same []) cs) (markedIn_congr paired (same cs) more)

/-- A list that starts with a quote is not blank. -/
theorem readList_quote (q : Quote) (cs : List Char) :
    readList (q.mark :: cs) = readMarked (markBrackets (q.mark :: cs)) := by
  have solid : isBlank q.mark = false := by cases q <;> decide
  exact readList_of_visible ⟨q.mark, List.mem_cons_self .., solid⟩

/-- A quote is not in a marked text that had none. -/
theorem mark_not_mem_markedIn (q : Quote) {cs : List Char} (outside : q.mark ∉ cs)
    (whole front : List Char) : q.mark ∉ markedIn whole front cs := by
  have other : isMark q.mark = false := by cases q <;> decide
  rwa [mem_markedIn_iff other]

/-- **A list of one string in quotes** is always that: one string. -/
theorem readList_quoted (q : Quote) {cs : List Char} (outside : q.mark ∉ cs) :
    readList (q.mark :: (cs ++ [q.mark])) =
      [some (.ofChars (unmarkBrackets (markBrackets cs)))] := by
  have ends : Follows [] [] := Or.inr ⟨rfl, rfl⟩
  have inner := mark_not_mem_markedIn q outside (cs ++ []) []
  rw [readList_quote, markBrackets_quoted, markedIn_nil, readMarked_quoted q inner ends,
    readMarked_nil, List.append_nil, ← markBrackets_eq_markedIn]

/-- **A string in quotes is read as it is written just when it is faithful.** -/
theorem readList_quoted_iff (q : Quote) {cs : List Char} (outside : q.mark ∉ cs) :
    readList (q.mark :: (cs ++ [q.mark])) = [some (.ofChars cs)] ↔ Faithful cs := by
  rw [readList_quoted q outside, singleton_ofChars_inj, unmarkBrackets_markBrackets_iff]

/-- Closers of nothing are kept where they do not look as if they were marked, and so is what looks
like a mark where there is one. -/
theorem readList_quoted_stray :
    '\'' ∉ "5%]\x7b1%\x7d,".toList ∧ Faithful "5%]\x7b1%\x7d,".toList ∧
      readList "'5%]\x7b1%\x7d,'".toList = [some (.string "5%]\x7b1%\x7d,")] := by
  have outside : Quote.single.mark ∉ "5%]\x7b1%\x7d,".toList := by decide +kernel
  have back : unmarkBrackets (markBrackets "5%]\x7b1%\x7d,".toList) =
      "5%]\x7b1%\x7d,".toList := by
    decide +kernel
  have read := readList_quoted .single outside
  rw [back] at read
  exact ⟨outside, (readList_quoted_iff .single outside).1 read, read⟩

/-- A digit that is not kept: the brace has no mark, so unmarking takes the digit, with the percent
sign of the mark in front of it, for one. -/
theorem readList_quoted_digit :
    '\'' ∉ "[5\x7d]".toList ∧ readList "'[5\x7d]'".toList = [some (.string "[1\x7d]")] ∧
      readList "'[5\x7d]'".toList ≠ [some (.string "[5\x7d]")] := by
  have outside : Quote.single.mark ∉ "[5\x7d]".toList := by decide +kernel
  have lost : unmarkBrackets (markBrackets "[5\x7d]".toList) = "[1\x7d]".toList := by
    decide +kernel
  have read : readList "'[5\x7d]'".toList = [some (.ofChars "[1\x7d]".toList)] :=
    lost ▸ readList_quoted .single outside
  refine ⟨outside, read, ?_⟩
  rw [read]
  simp [Value.ofChars]

end Slot

end Stencil
