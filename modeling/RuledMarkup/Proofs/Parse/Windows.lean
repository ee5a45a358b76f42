import RuledMarkup.Parse.Rule
import RuledMarkup.Proofs.Text.Windows

/-!
# Captures over a window

A match reads the window that it is given: its groups are slices of that window, and what it
consumes stands at the start.

## Main definitions

* `Captures.Over` : captures whose groups are slices of a window.
* `Rule.KeepsToWindow` : a rule whose captures are over the window that it is given.

## Main results

* `Captures.Over.split` : a window is what a match consumes and the rest.
-/

namespace RuledMarkup

/-- The groups are slices of the window, and group zero stands at its start. -/
structure Captures.Over (captures : Captures) (window : String) : Prop where
  input_eq : captures.input = window
  start_eq : ∀ {r}, captures.range? 0 = some r → r.start = 0
  isSome_slice? : ∀ {group r}, captures.range? group = some r →
    (Text.slice? window r).isSome = true

namespace Captures.Over

variable {captures : Captures} {window : String}

/-- What is consumed ends at a boundary. -/
theorem isBoundary_size (h : captures.Over window) :
    Text.isBoundary window captures.size = true := by
  cases hzero : captures.range? 0 with
  | none => simpa [Captures.size, hzero] using Text.isBoundary_zero window
  | some r =>
    have := (Text.isSome_slice?_iff.1 (h.isSome_slice? hzero)).2.2
    simpa [Captures.size, hzero] using this

/-- A window is what a match consumes and the rest. -/
theorem split (h : captures.Over window) :
    ∃ rest, window = captures.consumed ++ rest ∧
      captures.consumed.utf8ByteSize = captures.size ∧
      Text.slice? window ⟨captures.size, window.utf8ByteSize⟩ = some rest := by
  rw [Captures.consumed, h.input_eq]
  exact Text.exists_append_of_isBoundary h.isBoundary_size

/-- The bytes consumed are those of the consumed text. -/
theorem utf8ByteSize_consumed (h : captures.Over window) :
    captures.consumed.utf8ByteSize = captures.size := by
  obtain ⟨-, -, hsize, -⟩ := h.split
  exact hsize

theorem size_le (h : captures.Over window) : captures.size ≤ window.utf8ByteSize :=
  Text.le_of_isBoundary h.isBoundary_size

/-- What is consumed is a slice of the source that the window is cut from. -/
theorem slice?_consumed (h : captures.Over window) {source : String} {r : Text.ByteRange}
    (hwindow : Text.slice? source r = some window) :
    Text.slice? source ⟨r.start, r.start + captures.size⟩ = some captures.consumed := by
  obtain ⟨rest, hsplit, hsize, -⟩ := h.split
  have hslice := Text.slice?_append_left captures.consumed rest
  rw [← hsplit, hsize, ← Text.slice?_shift hwindow h.size_le] at hslice
  simpa [Text.ByteRange.shift, Nat.add_comm] using hslice

/-- What is not consumed is a slice of the source as well. -/
theorem isSome_slice?_rest (h : captures.Over window) {source : String} {r : Text.ByteRange}
    (hwindow : Text.slice? source r = some window) :
    (Text.slice? source ⟨r.start + captures.size, r.stop⟩).isSome = true := by
  obtain ⟨rest, -, -, hslice⟩ := h.split
  rw [← Text.slice?_shift hwindow (Nat.le_refl _)] at hslice
  rw [← Text.utf8ByteSize_of_slice? hwindow]
  refine Option.isSome_iff_exists.2 ⟨rest, ?_⟩
  simpa [Text.ByteRange.shift, Nat.add_comm] using hslice

end Captures.Over

/-- The captures of every match are over the window that the rule is given. -/
def Rule.KeepsToWindow {R T S : Type} (rule : Rule R T S) : Prop :=
  ∀ ⦃window last state captures⦄, rule.tryMatch window last state = some captures →
    captures.Over window

end RuledMarkup
