import RuledMarkup.Proofs.Regex.Enclosed

/-!
# An expression with a lookahead group behind it

Two expressions that can be read by themselves, the first one in a group without number and the
second one behind it in the lookahead group, are read as they are read alone.  The groups of the
second one have numbers that come after the one of the lookahead group.

## Main definitions

* `Regex.lookaheadChars` : the written form of the two expressions.

## Main results

* `Regex.read_lookahead` : what is read after a start condition.
-/

namespace RuledMarkup.Regex

open Reader

/-- The beginning of the lookahead group. -/
def aheadOpening : List Char := ['(', '?', 'P', '<', 'a', 'h', 'e', 'a', 'd', '>']

/-- An expression in a group without number, and another one behind it in the lookahead group. -/
def lookaheadChars (first ahead : List Char) : List Char :=
  '(' :: '?' :: ':' :: (first ++ ')' :: (aheadOpening ++ (ahead ++ [')'])))

namespace Reader

/-- The lookahead group can be read if its name is not given already. -/
theorem readItem_ahead (bound : Nat) (rest : List Char) {openGroups nextGroup : Nat}
    {names : List String} (hopen : openGroups < allowedDepth) :
    readItem (bound + 1) { rest := aheadOpening ++ rest, nextGroup, names, openGroups } =
      if "ahead" ∈ names then .error .duplicateName
      else
        readBranches bound ⟨rest, {}, nextGroup + 1, "ahead" :: names, openGroups + 1⟩ >>=
          fun (branches, reader) =>
            close {} branches reader >>= fun (piece, reader) =>
              repetitions (bound + 1) (piece.around (.group nextGroup (some "ahead"))) reader := by
  rw [readItem]
  exact if_neg (Nat.not_lt.2 hopen)

/-- At its place in a larger expression a group is closed. -/
theorem close_within {branches : List Piece} {reader : Reader} (place : Place) (before : Flags)
    (hrest : reader.rest = []) : close before branches (reader.within place) =
      .ok (Piece.alternatives branches, ⟨place.more, before, place.groups + reader.nextGroup,
        reader.names ++ place.names, place.openGroups + reader.openGroups - 1⟩) := by
  simp [close, within, hrest]

/-- The first item is the group around the first expression, and the others come behind it. -/
theorem readBranches_lookahead (bound : Nat) (first ahead : List Char) :
    readBranches (bound + 4) { rest := lookaheadChars first ahead ++ [')'], openGroups := 1 } =
      (readBranches (bound + 1)
          { rest := first ++ ')' :: (aheadOpening ++ (ahead ++ [')', ')'])), openGroups := 2 } >>=
        fun (branches, reader) => close {} branches reader >>= fun (piece, reader) =>
          repetitions (bound + 2) (piece.around id) reader >>= fun (piece, reader) =>
            readItems (bound + 2) reader >>= fun (items, reader) =>
              match reader.rest with
              | '|' :: rest =>
                readBranches (bound + 3) { reader with rest } >>= fun (others, reader) =>
                  .ok (Piece.sequence (piece :: items) :: others, reader)
              | _ => .ok ([Piece.sequence (piece :: items)], reader)) := by
  have hchars : lookaheadChars first ahead ++ [')'] =
      '(' :: '?' :: ':' :: (first ++ ')' :: (aheadOpening ++ (ahead ++ [')', ')']))) := by
    simp [lookaheadChars]
  rw [hchars, readBranches, readItems_cons _ _ rfl (by decide) (by decide),
    readItem_plain _ _ (by decide)]
  simp only [bind_assoc]
  rfl

/-- Items end with a closing parenthesis or with the text. -/
theorem readItems_end (bound : Nat) {reader : Reader}
    (h : reader.rest = [] ∨ reader.rest = [')']) :
    readItems (bound + 1) reader = .ok ([], reader) := by
  rcases h with h | h
  · rw [readItems, h]
  · rw [readItems, h]
    rfl

/-- Repetitions end there as well. -/
theorem repetitions_end (bound : Nat) (piece : Piece) {reader : Reader}
    (h : reader.rest = [] ∨ reader.rest = [')']) :
    repetitions (bound + 1) piece reader = .ok (piece, reader) := by
  rw [repetitions]
  cases reader
  rcases h with rfl | rfl <;> rfl

/-- If the lookahead group can be read as the last item, then the expression in it is the one that
can be read by itself, but for its numbers. -/
theorem exists_of_read_ahead {β : Type} {ahead : List Char} {look : Regex}
    (hlook : read ahead = .ok look) {bound index openGroups : Nat} {names : List String}
    (hbound : 3 * ahead.length + 3 ≤ bound) (hopen : openGroups < allowedDepth)
    {next : List Piece × Reader → Except ReadError β} {found : β}
    (h : (readItems (bound + 2)
      ⟨aheadOpening ++ (ahead ++ [')', ')']), {}, index, names, openGroups⟩ >>= next) =
        .ok found) (marks : Nat) :
    ∃ depth, ∃ reader : Reader, reader.rest = [')'] ∧
      next ([⟨.group index (some "ahead") (look.shift marks index), depth⟩], reader) =
        .ok found := by
  rw [readItems_cons _ _ rfl (by decide) (by decide), readItem_ahead _ _ hopen] at h
  split_ifs at h with hnames
  · cases h
  · let place : Place := ⟨[')'], openGroups + 1, marks, index, "ahead" :: names⟩
    simp only [bind_assoc] at h
    obtain ⟨branches, reader, rfl, hrest, -, -, h⟩ := exists_of_read_within hlook place hbound h
    have hmore : place.more = [')'] := rfl
    simp only [close_within place {} hrest, ok_bind, hmore, ← place.move_alternatives] at h
    rw [repetitions_end _ _ (.inr rfl), ok_bind, readItems_end _ (.inr rfl)] at h
    exact ⟨_, _, rfl, h⟩

end Reader

variable {first ahead : List Char} {own look whole : Regex}

theorem branches_seq_group (r s : Regex) (index : Nat) (name : Option String) :
    (seq r (.group index name s)).branches = [seq r (.group index name s)] := by
  cases r <;> rfl

/-- A group around a sequence that ends in a group is taken away behind a start condition. -/
theorem alternatives_seq_group (r s : Regex) (index : Nat) (name : Option String) :
    alternatives [seq (.look .start)
      (seq (alternatives [seq r (seq (.group index name s) .empty)]) .empty)] =
      seq (.look .start) (seq r (.group index name s)) := by
  rw [seq_empty, seq_empty, alternatives_singleton (branches_seq_group ..),
    alternatives_singleton (branches_seq_start _)]

/-- Two expressions, the second one in the lookahead group, are read after a start condition as they
are read alone, but for the numbers of groups in the second one.  There are no checkpoints in them,
so their numbers do not matter. -/
theorem read_lookahead (hown : read first = .ok own) (hlook : read ahead = .ok look)
    (hwhole : read ('^' :: '(' :: '?' :: ':' :: (lookaheadChars first ahead ++ [')'])) =
      .ok whole) :
    ∃ index, ∀ marks, own.shift marks 0 = own ∧ whole =
      seq (.look .start) (seq own (.group index (some "ahead") (look.shift marks index))) := by
  let place : Place := ⟨aheadOpening ++ (ahead ++ [')', ')']), 2, 0, 0, []⟩
  have hmove : place.move = id := Place.move_eq_id rfl rfl
  have hlength :
      3 * ('^' :: '(' :: '?' :: ':' :: (lookaheadChars first ahead ++ [')'])).length + 3 =
        3 * first.length + 3 * ahead.length + 55 + 3 + 5 := by
    simp [lookaheadChars, aheadOpening]
    omega
  rw [read, hlength, readBranches_enclosed, readBranches_lookahead] at hwhole
  simp only [bind_assoc] at hwhole
  obtain ⟨branches, reader, rfl, hrest, hopen, hmarks, hwhole⟩ :=
    exists_of_read_within hown place (by omega) hwhole
  have hdepth : place.openGroups + reader.openGroups - 1 < allowedDepth := by
    rw [hopen]
    exact of_decide_eq_true rfl
  simp only [hmove, List.map_id, close_within place {} hrest, ok_bind] at hwhole
  refine ⟨place.groups + reader.nextGroup, fun marks => ⟨?_, ?_⟩⟩
  · have hshift := Place.move_alternatives { place with marks } branches
    rw [hmarks, hmove, List.map_id] at hshift
    exact congrArg Piece.regex hshift
  · obtain ⟨depth, reader', hrest', hwhole⟩ :=
      exists_of_read_ahead hlook (by omega) hdepth hwhole marks
    dsimp only at hwhole
    rw [hrest'] at hwhole
    split at hwhole
    · next hbar => cases hbar
    simp only [ok_bind, close, hrest'] at hwhole
    rw [repetitions_end _ _ (.inl rfl), ok_bind, readItems_end _ (.inl rfl)] at hwhole
    simp only [ok_bind] at hwhole
    split_ifs at hwhole
    obtain rfl := Except.ok.inj hwhole
    exact alternatives_seq_group ..

end RuledMarkup.Regex
