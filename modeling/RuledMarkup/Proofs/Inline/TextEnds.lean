import RuledMarkup.Proofs.Inline.Matches

/-!
# Where plain text ends

Plain text is not empty, and it ends at the first place where it may.  What it may end before does
not depend on the text itself.

## Main definitions

* `Regex.looksAhead` : what an expression reads does not depend on the text before it.
* `Inline.StopsBefore` : plain text may end before a text.

## Main results

* `Inline.exists_consumed_text` : plain text ends at the first place where it may.
* `Inline.exists_consumed_text_behind` : where plain text ends that begins a character later.
-/

namespace RuledMarkup

variable {pre word post rest : List Char} {bindings : Bindings}

namespace Regex

/-- Is it plain that what the expression reads does not depend on the text before it? -/
def looksAhead : Regex → Bool
  | look l => l = .finish
  | cat a b | alt a b => a.looksAhead && b.looksAhead
  | loop _ _ _ r => r.looksAhead
  | group .. => false
  | empty | set _ | checkpoint _ => true

theorem reads_of_looksAhead {r : Regex} (hr : r.looksAhead = true)
    (h : r.Reads pre word post bindings) (pre' : List Char) : r.Reads pre' word post bindings := by
  induction r generalizing pre pre' word post bindings with
  | empty | set | checkpoint => exact h
  | look l =>
    obtain rfl : l = .finish := of_decide_eq_true hr
    exact h
  | cat a b iha ihb =>
    obtain ⟨ha, hb⟩ := Bool.and_eq_true_iff.1 hr
    obtain ⟨u, v, bu, bv, rfl, rfl, hu, hv⟩ := h
    exact ⟨u, v, bu, bv, rfl, rfl, iha ha hu pre', ihb hb hv _⟩
  | alt a b iha ihb =>
    obtain ⟨ha, hb⟩ := Bool.and_eq_true_iff.1 hr
    exact h.imp (iha ha · pre') (ihb hb · pre')
  | loop greedy least most r ih =>
    obtain ⟨n, hleast, hmost, h⟩ := h
    refine ⟨n, hleast, hmost, ?_⟩
    clear hleast hmost
    induction n generalizing pre pre' word bindings with
    | zero => exact h
    | succ n ihn =>
      obtain ⟨u, v, bu, bv, rfl, rfl, hu, hv⟩ := h
      exact ⟨u, v, bu, bv, rfl, rfl, ih hr hu pre', ihn _ hv⟩
  | group => cases hr

end Regex

namespace Inline

open Text (byteSize)

variable {window : String} {c : Char}

/-- Plain text may end before the text. -/
def StopsBefore (text : List Char) : Prop :=
  ∃ word post bindings, text = word ++ post ∧ ∀ pre, textEnd.Reads pre word post bindings

theorem stopsBefore_nil : StopsBefore [] :=
  ⟨[], [], [], rfl, fun _ => .inr (.inr (.inr (.inr ⟨rfl, rfl, rfl⟩)))⟩

theorem stopsBefore_cons (hc : ordinary.mem c = false) (post : List Char) :
    StopsBefore (c :: post) :=
  ⟨[c], post, [], rfl, fun _ => .inl ⟨c, rfl, by simpa [CharSet.mem] using hc, rfl⟩⟩

theorem stopsBefore_line_end (post : List Char) : StopsBefore ('\n' :: post) :=
  ⟨['\n'], post, [], rfl, fun _ => .inr (.inl ⟨'\n', rfl, rfl, rfl⟩)⟩

/-- Plain text ends no later than at some place where it may. -/
theorem exists_consumed_text_le (hwindow : window.toList = c :: rest) {y post' : List Char}
    (hrest : rest = y ++ post') (hstops : StopsBefore post') :
    ∃ captures x post, text.matchStart window = some captures ∧
      captures.consumed.toList = c :: x ∧ rest = x ++ post ∧ StopsBefore post ∧
      x.length ≤ y.length := by
  obtain ⟨v, rest', bv, rfl, hv⟩ := hstops
  have hbefore : Regex.ReadsEach [.look .start] [] [] (c :: y ++ v ++ rest') [] :=
    Regex.readsEach_start_cons.2 ⟨rfl, rfl⟩
  have hafter : Regex.ReadsEach [.group 1 (some "ahead") textEnd] (c :: y) v rest'
      ((1, ⟨byteSize (c :: y), byteSize (c :: y ++ v)⟩) :: bv) := by
    rw [Regex.readsEach_singleton]
    exact ⟨bv, rfl, hv _⟩
  obtain ⟨w, v, rest', bw, bv, stop, hsplit, hle, hw, hv, -, -, hmatch⟩ :=
    Pattern.exists_shortest patternForms.text_isAnchored patternForms.text_items rfl rfl rfl
      (by simpa [hrest] using hwindow) hbefore (reads_untrimmed (List.cons_ne_nil c y) [] _) hafter
  rw [Regex.readsEach_singleton] at hv
  obtain ⟨bv', rfl, hend⟩ := hv
  rw [List.nil_append] at hsplit hend
  have hpos : 0 < w.length := Regex.length_pos_of_isNonempty (r := untrimmed) (by decide) hw
  obtain ⟨d, x, rfl⟩ := List.exists_cons_of_length_pos hpos
  obtain ⟨rfl, hx⟩ : d = c ∧ x ++ v ++ rest' = rest := by
    simpa [hwindow, eq_comm] using hsplit
  refine ⟨_, x, v ++ rest', hmatch, ?_, by rw [← hx, List.append_assoc],
    ⟨v, rest', bv', rfl, Regex.reads_of_looksAhead (by decide) hend⟩, by simpa using hle⟩
  have hword : window.toList = d :: x ++ (v ++ rest') := by simpa using hsplit
  refine Pattern.toList_consumed hword ?_
  rw [Pattern.size_of_lookup patternForms.text_ahead? rfl]
  rfl

/-- Plain text ends at the first place where it may. -/
theorem exists_consumed_text (hwindow : window.toList = c :: rest) :
    ∃ captures x post, text.matchStart window = some captures ∧
      captures.consumed.toList = c :: x ∧ rest = x ++ post ∧ StopsBefore post ∧
      ∀ y post', rest = y ++ post' → StopsBefore post' → x.length ≤ y.length := by
  obtain ⟨captures, x, post, hmatch, hconsumed, hsplit, hstops, -⟩ :=
    exists_consumed_text_le hwindow (List.append_nil rest).symm stopsBefore_nil
  refine ⟨captures, x, post, hmatch, hconsumed, hsplit, hstops, fun y post' hrest hstops' => ?_⟩
  obtain ⟨captures', x', -, hmatch', hconsumed', -, -, hle⟩ :=
    exists_consumed_text_le hwindow hrest hstops'
  obtain rfl := Option.some.inj (hmatch.symm.trans hmatch')
  obtain ⟨-, rfl⟩ := List.cons.inj (hconsumed.symm.trans hconsumed')
  exact hle

/-- Plain text that goes on behind its first character ends where plain text ends that begins behind
that character. -/
theorem exists_consumed_text_behind {b : String} (hwindow : window.toList = c :: b.toList)
    {captures : Captures} (hmatch : text.matchStart window = some captures) {x : List Char}
    (hconsumed : captures.consumed.toList = c :: x) (hx : x ≠ []) :
    ¬ StopsBefore b.toList ∧ ∃ behind post, text.matchStart b = some behind ∧
      behind.consumed.toList = x ∧ b.toList = x ++ post := by
  obtain ⟨captures', x', post, hmatch', hconsumed', hsplit, hstops, hleast⟩ :=
    exists_consumed_text hwindow
  obtain rfl := Option.some.inj (hmatch.symm.trans hmatch')
  obtain ⟨-, rfl⟩ := List.cons.inj (hconsumed.symm.trans hconsumed')
  refine ⟨fun hnow => hx (List.length_eq_zero_iff.1 (Nat.le_zero.1 (hleast [] _ rfl hnow))), ?_⟩
  obtain ⟨d, x, rfl⟩ := List.exists_cons_of_ne_nil hx
  rw [List.cons_append] at hsplit
  obtain ⟨behind, y, post', hbehind, hy, hsplit', hstops', hleast'⟩ := exists_consumed_text hsplit
  -- Each of the two stops at a place where the other one may.
  have hle : y.length ≤ x.length := hleast' x post rfl hstops
  have hge : (d :: x).length ≤ (d :: y).length :=
    hleast (d :: y) post' (by rw [hsplit, hsplit', List.cons_append]) hstops'
  simp only [List.length_cons] at hge
  obtain ⟨rfl, -⟩ := List.append_inj hsplit' (by omega)
  exact ⟨behind, post, hbehind, hy, hsplit⟩

end Inline

end RuledMarkup
