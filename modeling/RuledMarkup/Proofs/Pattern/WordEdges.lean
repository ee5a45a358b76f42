import RuledMarkup.Proofs.Pattern.Shortest
import RuledMarkup.Proofs.Regex.WordEdges

/-!
# Words behind what a pattern consumes

A pattern keeps words whole if no word goes on behind any of its matches: the parts before the
lookahead group end outside words, or what that group sees begins outside words, or the pattern is
matched to the end of a greedy run of word characters.

## Main definitions

* `Pattern.keepsWords` : no word goes on behind what a match consumes.

## Main results

* `Pattern.exists_after_of_keepsWords` : what it says about a match.
-/

namespace RuledMarkup.Pattern

open Text (CutsWord)

variable {pattern : Pattern} {window : String} {captures : Captures}

/-- Does every strand end outside words, or see text that begins outside words? -/
def endsOutsideWords (pattern : Pattern) : Bool :=
  pattern.isCut && pattern.regex.strands.all fun strand =>
    (Regex.joined (pattern.consuming strand)).endsOutsideWords ||
      (Regex.joined (pattern.looking strand)).opensOutsideWords

/-- Does every match end with a greedy run of word characters? -/
def endsWithRun (pattern : Pattern) : Bool :=
  pattern.regex.isAnchored && pattern.ahead? = none && pattern.regex.runsOut .word

/-- Is it plain that no word goes on behind what a match consumes? -/
def keepsWords (pattern : Pattern) : Bool := pattern.endsOutsideWords || pattern.endsWithRun

theorem exists_after_of_endsOutsideWords (hpattern : pattern.endsOutsideWords = true)
    (h : pattern.matchStart window = some captures) :
    ∃ after, window.toList = captures.consumed.toList ++ after ∧
      ¬ CutsWord captures.consumed.toList after := by
  obtain ⟨hcut, hstrands⟩ := Bool.and_eq_true_iff.1 hpattern
  obtain ⟨strand, hmem, bindings, ahead, after, looked, hwindow, hreads, hlooks, -⟩ :=
    exists_looking hcut h
  rw [← Regex.reads_joined] at hreads hlooks
  refine ⟨ahead ++ after, by rw [hwindow, List.append_assoc], ?_⟩
  rcases Bool.or_eq_true_iff.1 (List.all_eq_true.1 hstrands strand hmem) with hends | hopens
  · simpa using Regex.not_cutsWord_of_reads hends hreads
  · exact Regex.not_cutsWord_of_opens hopens hlooks _

theorem exists_after_of_endsWithRun (hpattern : pattern.endsWithRun = true)
    (h : pattern.matchStart window = some captures) :
    ∃ after, window.toList = captures.consumed.toList ++ after ∧
      ¬ CutsWord captures.consumed.toList after := by
  simp only [endsWithRun, Bool.and_eq_true, decide_eq_true_eq] at hpattern
  obtain ⟨⟨hanchored, hahead⟩, hruns⟩ := hpattern
  obtain ⟨⟨stop, bindings⟩, hsearch, rfl⟩ := Option.map_eq_some_iff.1 h
  rw [Regex.search_eq_head?_ways hanchored] at hsearch
  have hat := Cursor.at_ofText window.toList
  obtain ⟨word, after, hwindow, hstop, -⟩ := Regex.reads_of_head?_ways hat hsearch
  have hrest := Regex.head?_of_runsOut hruns hat (Nat.le_refl _) hsearch
  have hconsumed : (pattern.captures window stop bindings).consumed.toList = word :=
    toList_consumed hwindow ((size_of_ahead?_eq_none hahead).trans hstop.offset_eq)
  rw [hconsumed]
  refine ⟨after, hwindow, fun ⟨_, hafter⟩ => ?_⟩
  obtain ⟨c, hc, hword⟩ := (Option.any_eq_true _ _).1 hafter
  exact absurd hword (by simpa [CharSet.mem] using hrest c (by simpa [hstop.rest_eq] using hc))

/-- No word goes on behind what a match consumes. -/
theorem exists_after_of_keepsWords (hpattern : pattern.keepsWords = true)
    (h : pattern.matchStart window = some captures) :
    ∃ after, window.toList = captures.consumed.toList ++ after ∧
      ¬ CutsWord captures.consumed.toList after :=
  (Bool.or_eq_true_iff.1 hpattern).elim (exists_after_of_endsOutsideWords · h)
    (exists_after_of_endsWithRun · h)

end RuledMarkup.Pattern
