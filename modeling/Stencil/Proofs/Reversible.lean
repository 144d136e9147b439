/-
# Pairs of delimiters that come back

Marking a text with several pairs of delimiters and taking the marks out again, pair by pair, in the
same order.

* `Separate`: the pairs share no character;
* `Reversible`: none of them is in the way of taking the marks out.

`Reversible.restored`: then every text comes back that fits the pairs.  The text with all marks is
one with the marks of the first pair, whatever the others put in (`Marked.markPairs`); without them
it is the text with the marks of the others.
-/
import Stencil.Proofs.Restored

namespace Stencil

open Stencil.Text Stencil.Depth

/-! ## 1. Texts that fit -/

theorem occurs_of_prefix {w cs : List Char} (begins : w <+: cs) : occurs w cs = true := by
  cases cs with
  | nil =>
    rw [List.prefix_nil.1 begins]
    rfl
  | cons c cs => rw [occurs, List.isPrefixOf_iff_prefix.2 begins, Bool.true_or]

theorem occurs_append {w cs : List Char} (h : occurs w cs = true) (front : List Char) :
    occurs w (front ++ cs) = true := by
  induction front with
  | nil => exact h
  | cons c front ih => rw [List.cons_append, occurs, ih, Bool.or_true]

namespace Delimiters

variable {d e : Delimiters}

theorem occurs_of_found (proper : d.Proper) {cs : List Char} :
    (.opener ∈ d.found cs → occurs d.opener cs = true) ∧
      (.closer ∈ d.found cs → occurs d.closer cs = true) := by
  induction cs using d.scan_induction proper with
  | nil => simp
  | opener cs ih =>
    rw [found_opener proper]
    refine ⟨fun _ => occurs_of_prefix (List.prefix_append _ _), fun mem => ?_⟩
    exact occurs_append (ih.2 (by simpa using mem)) _
  | closer cs noOpener ih =>
    rw [found_closer proper noOpener]
    refine ⟨fun mem => ?_, fun _ => occurs_of_prefix (List.prefix_append _ _)⟩
    exact occurs_append (ih.1 (by simpa using mem)) _
  | other c cs noOpener noCloser ih =>
    rw [found_other noOpener noCloser]
    exact ⟨fun mem => occurs_append (ih.1 mem) [c], fun mem => occurs_append (ih.2 mem) [c]⟩

theorem Fits.closes {cs : List Char} (fits : d.Fits cs) : Closes 0 (d.found cs) := by
  rcases fits with none | ⟨-, closes⟩
  · rw [none]
    intro front mem
    simp only [List.inits, List.mem_singleton] at mem
    simp [mem]
  · exact closes

/-- Whether both delimiters occur makes no difference to a text that fits. -/
theorem Fits.markPair_eq (proper : d.Proper) {cs : List Char} (fits : d.Fits cs) :
    markPair cs d = mark d 0 cs := by
  unfold markPair
  split
  · rfl
  · rename_i notBoth
    rcases fits with none | ⟨closer, closes⟩
    · exact (mark_of_found_eq_nil proper none 0).symm
    · have opener : .opener ∈ d.found cs := by
        have whole := closes (d.found cs) ((List.mem_inits _ _).2 (List.prefix_refl _))
        have := List.count_pos_iff.2 closer
        exact List.count_pos_iff.1 (by omega)
      have both : applies d cs = true := by
        simp [applies, proper.opener, proper.closer, (occurs_of_found proper).1 opener,
          (occurs_of_found proper).2 closer]
      exact absurd both notBoth

theorem Fits.marked (proper : d.Proper) {cs : List Char} (fits : d.Fits cs) :
    Marked d true (mark d 0 cs) cs := marked_mark proper fits.closes

/-! ## 2. Several pairs -/

theorem markPairs_cons (d : Delimiters) (pairs : List Delimiters) (cs : List Char) :
    markPairs (d :: pairs) cs = markPairs pairs (markPair cs d) := rfl

theorem unmarkPairs_cons (d : Delimiters) (pairs : List Delimiters) (cs : List Char) :
    unmarkPairs (d :: pairs) cs = unmarkPairs pairs (unmarkPair cs d) := rfl

/-- Pairs that can be marked in one text: no two of them share a character. -/
structure Separate (pairs : List Delimiters) : Prop where
  proper : ∀ d ∈ pairs, d.Proper
  disjoint : pairs.Pairwise Disjoint

instance : DecidablePred Separate := fun pairs =>
  decidable_of_iff ((∀ d ∈ pairs, d.Proper) ∧ pairs.Pairwise Disjoint)
    ⟨fun ⟨proper, disjoint⟩ => ⟨proper, disjoint⟩, fun separate => ⟨separate.1, separate.2⟩⟩

/-- Pairs whose marks can be taken out again.  In each of them, if it finds closers at all, the
delimiters are no references and no opener straddles a closer; and if a closer begins its opener, no
later pair puts a mark in front of it. -/
structure Reversible (pairs : List Delimiters) : Prop where
  returns : ∀ d ∈ pairs, d.Inert ∨ (d.Literal ∧ ¬ d.Straddles)
  unmistaken : pairs.Pairwise fun d e => d.closer <+: d.opener → d.Inert ∨ e.Inert

/-- No opener straddles a closer that does not hold its first character, unless in front. -/
theorem not_straddles (outside : ∀ c ∈ d.opener.head?, c ∉ d.closer.tail) :
    ¬ d.Straddles := by
  rintro ⟨start, rest, nonempty, suffix, eq, -⟩
  obtain ⟨c, start, rfl⟩ := List.exists_cons_of_ne_nil nonempty
  exact outside c (by simp [← eq]) (suffix.subset (List.mem_cons_self ..))

/-- Pairs whose openers do not begin within their closers, nor their closers in front of their
openers, are reversible if the delimiters are no references. -/
theorem Reversible.of_literal {pairs : List Delimiters} (literal : ∀ d ∈ pairs, d.Literal)
    (outside : ∀ d ∈ pairs, ∀ c ∈ d.opener.head?, c ∉ d.closer.tail)
    (apart : ∀ d ∈ pairs, ¬ d.closer <+: d.opener) : Reversible pairs where
  returns d mem := Or.inr ⟨literal d mem, not_straddles (outside d mem)⟩
  unmistaken := by
    refine List.pairwise_iff_forall_sublist.2 fun {d e} part begins => ?_
    exact absurd begins (apart d (part.subset (List.mem_cons_self ..)))

theorem Separate.of_cons {pairs : List Delimiters} (separate : Separate (d :: pairs)) :
    d.Proper ∧ (∀ e ∈ pairs, d.Disjoint e) ∧ Separate pairs := by
  obtain ⟨proper, others⟩ := List.forall_mem_cons.1 separate.proper
  obtain ⟨apart, disjoint⟩ := List.pairwise_cons.1 separate.disjoint
  exact ⟨proper, apart, others, disjoint⟩

/-- Marking one pair changes nothing about whether a text fits the others. -/
theorem Fits.mark_other (proper : d.Proper) (proper' : e.Proper) (disjoint : d.Disjoint e)
    {cs : List Char} (fits : d.Fits cs) : e.found (mark d 0 cs) = e.found cs :=
  ((fits.marked proper).of_other proper proper' disjoint).1

/-- **The marks of one pair stay whole when the others are marked**, and what that pair finds stays
the same. -/
theorem Marked.markPairs (proper : d.Proper) {pairs : List Delimiters} (separate : Separate pairs)
    (disjoint : ∀ e ∈ pairs, d.Disjoint e) {u t : List Char} (h : Marked d true u t)
    (fits : ∀ e ∈ pairs, e.Fits t) :
    Marked d true (markPairs pairs u) (markPairs pairs t) ∧
      d.found (markPairs pairs t) = d.found t := by
  induction pairs generalizing u t with
  | nil => exact ⟨h, rfl⟩
  | cons e pairs ih =>
    obtain ⟨proper', apart, separate'⟩ := separate.of_cons
    obtain ⟨disjoint, others⟩ := List.forall_mem_cons.1 disjoint
    obtain ⟨fit, fits⟩ := List.forall_mem_cons.1 fits
    obtain ⟨same, marks⟩ := h.of_other proper proper' disjoint
    have fit' : e.Fits u := by rwa [Fits, same]
    have later : ∀ e' ∈ pairs, e'.Fits (mark e 0 t) := by
      intro e' mem
      rw [Fits, fit.mark_other proper' (separate'.proper e' mem) (apart e' mem)]
      exact fits e' mem
    obtain ⟨whole, found⟩ := ih separate' others (marks 0) later
    have found' := fit.mark_other proper' proper disjoint.symm
    rw [markPairs_cons, markPairs_cons, fit.markPair_eq proper', fit'.markPair_eq proper']
    exact ⟨whole, found.trans found'⟩

/-- A text in which a pair finds nothing has no marks of it. -/
theorem Marked.eq_of_found_eq_nil (proper : d.Proper) {u t : List Char} (h : Marked d true u t)
    (none : d.found t = []) : u = t := by
  induction h with
  | nil => rfl
  | opener n h ih =>
    rw [found_opener proper] at none
    cases none
  | closer n noOpener h ih =>
    rw [found_closer proper noOpener] at none
    cases none
  | other noOpener noCloser h ih =>
    rw [found_other noOpener noCloser] at none
    rw [ih none]

theorem markPairs_of_inert {pairs : List Delimiters} (proper : ∀ e ∈ pairs, e.Proper)
    (inert : ∀ e ∈ pairs, e.Inert) {cs : List Char} (fits : ∀ e ∈ pairs, e.Fits cs) :
    markPairs pairs cs = cs := by
  induction pairs with
  | nil => rfl
  | cons e pairs ih =>
    obtain ⟨proper', proper⟩ := List.forall_mem_cons.1 proper
    obtain ⟨inert', inert⟩ := List.forall_mem_cons.1 inert
    obtain ⟨fit, fits⟩ := List.forall_mem_cons.1 fits
    have none := inert'.found_eq_nil proper' fit
    rw [markPairs_cons, fit.markPair_eq proper', mark_of_found_eq_nil proper' none,
      ih proper inert fits]

/-- **Reversible pairs give every text back.**  The induction is on the pairs: without the marks of
the first one, the text with all marks is the text with those of the others. -/
theorem Reversible.restored {pairs : List Delimiters} (reversible : Reversible pairs)
    (separate : Separate pairs) {cs : List Char} (noPercent : '%' ∉ cs)
    (fits : ∀ d ∈ pairs, d.Fits cs) : unmarkPairs pairs (markPairs pairs cs) = cs := by
  induction pairs with
  | nil => rfl
  | cons d pairs ih =>
    obtain ⟨proper, disjoint, separate'⟩ := separate.of_cons
    obtain ⟨returns, returns'⟩ := List.forall_mem_cons.1 reversible.returns
    obtain ⟨unmistaken, unmistaken'⟩ := List.pairwise_cons.1 reversible.unmistaken
    obtain ⟨fit, fits'⟩ := List.forall_mem_cons.1 fits
    obtain ⟨whole, found⟩ := (fit.marked proper).markPairs proper separate' disjoint fits'
    have first : unmarkPair (markPairs pairs (mark d 0 cs)) d = markPairs pairs cs := by
      by_cases inert : d.Inert
      · have none := found.trans (inert.found_eq_nil proper fit)
        rw [whole.eq_of_found_eq_nil proper none, unmarkPair_of_found_eq_nil proper none]
      · obtain ⟨literal, apart⟩ := returns.resolve_left inert
        refine whole.restored proper literal inert apart fun begins => ?_
        have others : ∀ e ∈ pairs, e.Inert := fun e mem =>
          (unmistaken e mem begins).resolve_left inert
        rwa [markPairs_of_inert separate'.proper others fits']
    rw [markPairs_cons, unmarkPairs_cons, fit.markPair_eq proper, first,
      ih ⟨returns', unmistaken'⟩ separate' fits']

end Delimiters

end Stencil
