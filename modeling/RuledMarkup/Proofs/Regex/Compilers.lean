import RuledMarkup.Proofs.Regex.Lookahead
import RuledMarkup.Proofs.Regex.Marks
import RuledMarkup.Regex.Compiler

/-!
# What compilers make of groups

A compiler may read forms that the reader of this library refuses, and it may set other limits on
the size of expressions.  Patterns rely on little of it: an expression in a group is read as it is
alone, and so are two of them, one behind the other.

## Main definitions

* `Compiler.Encloses` : an expression in a group after a start condition is read as it is alone.
* `Compiler.Closes` : a parenthesis behind a text is not part of the expression there.
* `Compiler.LooksAhead` : an expression with another one behind it in the lookahead group.

## Main results

* `Compiler.standard_encloses`, `Compiler.standard_looksAhead` : the reader of this library reads
  them so.
* `Compiler.standard_closes` : it reads no comments.
-/

namespace RuledMarkup.Regex

open Reader

namespace Compiler

/-- What can be read alone and in a group after a start condition is the same in both places. -/
def Encloses (compiler : Compiler) : Prop :=
  ∀ ⦃source own enclosed⦄, compiler.read source = .ok own →
    compiler.read ('^' :: '(' :: '?' :: ':' :: (source ++ [')'])) = .ok enclosed →
      enclosed = seq (.look .start) own

/-- A closing parenthesis behind the text is one too many.  It would not be if the text ended in a
comment, which goes on up to the end of the line. -/
def Closes (compiler : Compiler) (text : List Char) : Prop :=
  ∀ r, compiler.read (text ++ [')']) ≠ .ok r

/-- An expression in a group without number and another one behind it in the lookahead group are
read after a start condition as they are alone, but the groups of the second one get numbers that
come after that of the lookahead group.  There are no checkpoints in what is read. -/
def LooksAhead (compiler : Compiler) : Prop :=
  ∀ ⦃first ahead own look whole⦄, compiler.read first = .ok own →
    compiler.read ahead = .ok look → compiler.Closes first →
    compiler.read ('^' :: '(' :: '?' :: ':' :: (lookaheadChars first ahead ++ [')'])) = .ok whole →
      own.marks = [] ∧ look.marks = [] ∧ ∃ index, whole =
        seq (.look .start) (seq own (.group index (some "ahead") (look.shift 0 index)))

theorem standard_encloses : standard.Encloses := fun _ _ _ => read_enclosed

/-- The reader of this library takes a parenthesis behind an expression for one too many. -/
theorem standard_closes {text : List Char} {own : Regex} (hown : standard.read text = .ok own) :
    standard.Closes text := by
  intro r hread
  let place : Place := ⟨[], 0, 0, 0, []⟩
  have hlength : 3 * (text ++ [')']).length + 3 = 3 * text.length + 6 := by simp; omega
  have hread : Regex.read (text ++ [')']) = .ok r := hread
  rw [Regex.read, hlength] at hread
  obtain ⟨branches, reader, -, hrest, -, -, h⟩ :=
    exists_of_read_within hown place (by omega) hread
  have hwithin : (reader.within place).rest = [')'] := by simp [within, place, hrest]
  simp [hwithin] at h

theorem standard_looksAhead : standard.LooksAhead := by
  intro first ahead own look whole hown hlook _ hwhole
  obtain ⟨index, hindex⟩ := read_lookahead hown hlook hwhole
  refine ⟨marks_eq_nil (hindex 1).1, eq_nil_of_map_succ ?_, index, (hindex 0).2⟩
  -- The numbers of checkpoints in the second expression do not matter, so there are none.
  have hmarks := congrArg marks ((hindex 1).2.symm.trans (hindex 0).2)
  simpa [marks_seq, marks, marks_shift] using hmarks

end Compiler

end RuledMarkup.Regex
