import RuledMarkup.Proofs.Regex.Extended
import RuledMarkup.Proofs.Regex.Shifted

/-!
# Expressions in parentheses

A closing parenthesis ends an expression as the end of the text does.  So what can be read as an
expression by itself is read in the same way between the parentheses of a group in a larger
expression, unless it is nested too deep there or a name in it is given already.  Only the numbers
of its groups depend on what stands before it.

## Main definitions

* `Reader.Place` : the place of an expression in a larger one.
* `Reader.within` : a reader at such a place.
* `Reader.Inside` : what is yielded there, the same value or an error.
* `Reader.Follows` : reading at a place gives the same but for the numbers.

## Main results

* `Reader.follows_read` : alternatives, sequences and items are read in a larger expression as they
  are read alone.
* `Regex.read_enclosed` : an expression with a start condition before it.
-/

namespace RuledMarkup.Regex.Reader

variable {α β : Type}

/-! ### Places in larger expressions -/

/-- The place of an expression in a larger one: what follows the parenthesis that closes its group,
how many groups are open around it, how many numbers of checkpoints and groups come before its own,
and the names of groups before it.  No checkpoints are read, so any number of them will do. -/
structure Place where
  more : List Char
  openGroups : Nat
  marks : Nat
  groups : Nat
  names : List String

/-- The piece with the numbers that it has at a place. -/
def Place.move (place : Place) (piece : Piece) : Piece :=
  { piece with regex := piece.regex.shift place.marks place.groups }

/-- Where no numbers come before its own, a piece is left as it is. -/
theorem Place.move_eq_id {place : Place} (hmarks : place.marks = 0) (hgroups : place.groups = 0) :
    place.move = id := by
  funext piece
  rw [move, hmarks, hgroups, shift_zero, id]

/-- The reader at a place in a larger expression. -/
def within (place : Place) (reader : Reader) : Reader where
  rest := reader.rest ++ ')' :: place.more
  flags := reader.flags
  nextGroup := place.groups + reader.nextGroup
  names := reader.names ++ place.names
  openGroups := place.openGroups + reader.openGroups

/-- What is yielded there: the same value, or an error, for groups may be nested too deep there and
names may be given already. -/
inductive Inside (place : Place) (value : α) (reader : Reader)
    (found : Except ReadError (α × Reader)) : Prop where
  | same (h : found = .ok (value, reader.within place))
  | failed (error : ReadError) (h : found = .error error)

/-- What has been read leaves a number of groups open, and at a place in a larger expression the
same is read, but for the numbers in it. -/
def Follows (place : Place) (move : α → α) (openGroups : Nat)
    (a b : Except ReadError (α × Reader)) : Prop :=
  ∀ ⦃value reader⦄, a = .ok (value, reader) →
    reader.openGroups = openGroups ∧ Inside place (move value) reader b

variable {place : Place} {move : α → α} {move' : β → β}

theorem Follows.bind {openGroups openGroups' : Nat} {a b : Except ReadError (α × Reader)}
    {next next' : α × Reader → Except ReadError (β × Reader)}
    (h : Follows place move openGroups a b)
    (hnext : ∀ value (reader : Reader), reader.openGroups = openGroups →
      Follows place move' openGroups' (next (value, reader))
        (next' (move value, reader.within place))) :
    Follows place move' openGroups' (a >>= next) (b >>= next') := by
  intro value reader hread
  cases a with
  | error e => cases hread
  | ok found =>
    obtain ⟨value, reader⟩ := found
    obtain ⟨hopen, rfl | ⟨error, rfl⟩⟩ := h rfl
    · exact hnext value reader hopen hread
    · exact ⟨(hnext value reader hopen hread).1, .failed error rfl⟩

/-- A part of an expression is read and then the reader goes on. -/
theorem Follows.ofExtends {openGroups : Nat}
    {read read' : List Char → Except ReadError (α × List Char)}
    {next next' : α × List Char → Except ReadError (β × Reader)}
    (h : Extends place.more read read')
    (hnext : ∀ value rest, Follows place move' openGroups (next (value, rest))
      (next' (value, rest ++ ')' :: place.more)))
    (rest : List Char) : Follows place move' openGroups (read rest >>= next)
      (read' (rest ++ ')' :: place.more) >>= next') := by
  intro value reader hread
  cases hrest : read rest with
  | error e =>
    rw [hrest] at hread
    cases hread
  | ok found =>
    rw [hrest] at hread
    rw [h hrest]
    exact hnext _ _ hread

theorem Follows.ok (value : α) {reader : Reader} {openGroups : Nat}
    (hopen : reader.openGroups = openGroups) :
    Follows place move openGroups (.ok (value, reader))
      (.ok (move value, reader.within place)) := by
  intro value reader h
  cases h
  exact ⟨hopen, .same rfl⟩

/-- A limit may be exceeded in a larger expression only. -/
theorem Follows.unless {openGroups : Nat} {p q : Prop} [Decidable p] [Decidable q]
    {error error' : ReadError} {a b : Except ReadError (α × Reader)}
    (h : Follows place move openGroups a b) :
    Follows place move openGroups (if p then .error error else a)
      (if q then .error error' else b) := by
  intro value reader hread
  split_ifs at hread with hp
  obtain ⟨hopen, hb⟩ := h hread
  split_ifs with hq
  · exact ⟨hopen, .failed error' rfl⟩
  · exact ⟨hopen, hb⟩

/-! ### Pieces with other numbers -/

theorem Place.move_around (place : Place) {f f' : Regex → Regex}
    (hf : ∀ r : Regex, (f r).shift place.marks place.groups =
      f' (r.shift place.marks place.groups)) (piece : Piece) :
    place.move (piece.around f) = (place.move piece).around f' := by
  rw [move, Piece.around, Piece.around, hf, move]

theorem Place.depthTogether_move (place : Place) (pieces : List Piece) :
    Piece.depthTogether (pieces.map place.move) = Piece.depthTogether pieces := by
  simp [Piece.depthTogether, Piece.deepest, List.foldl_map, move]

theorem Place.move_sequence (place : Place) (items : List Piece) :
    place.move (.sequence items) = .sequence (items.map place.move) := by
  rw [Piece.sequence, Piece.sequence, depthTogether_move, move, shift_sequence]
  simp [Function.comp_def, move]

theorem Place.move_alternatives (place : Place) (branches : List Piece) :
    place.move (.alternatives branches) = .alternatives (branches.map place.move) := by
  rw [Piece.alternatives, Piece.alternatives, depthTogether_move, move, shift_alternatives]
  simp [Function.comp_def, move]

/-- Repetitions are read alike, whatever the numbers in what is repeated are. -/
theorem readRepetitions_move (place : Place) (swap : Bool) (bound : Nat) (piece : Piece)
    (cs : List Char) : readRepetitions swap bound (place.move piece) cs =
      readRepetitions swap bound piece cs >>= fun (piece, rest) =>
        .ok (place.move piece, rest) := by
  induction bound generalizing piece cs with
  | zero => rfl
  | succ bound ih =>
    have hcounted (greedy : Bool) (least : Nat) (greatest : Option Nat) (cs : List Char) :
        readRepetitions swap bound
            ((place.move piece).around (·.repeated greedy least greatest)) cs =
          readRepetitions swap bound (piece.around (·.repeated greedy least greatest)) cs >>=
            fun (piece, rest) => .ok (place.move piece, rest) := by
      rw [← ih, place.move_around fun r => shift_repeated _ _ greedy least greatest r]
    rw [readRepetitions.eq_def, readRepetitions.eq_def]
    dsimp only
    split
    · exact hcounted ..
    · exact hcounted ..
    · exact hcounted ..
    · next rest =>
      cases readCounts rest with
      | error e => rfl
      | ok counts =>
        simp only [bind, Except.bind]
        split_ifs
        · rfl
        · exact hcounted ..
    · rfl

/-! ### Whole expressions -/

theorem follows_close {openGroups : Nat} (before : Flags) (branches : List Piece) {reader : Reader}
    (hopen : reader.openGroups = openGroups + 1) :
    Follows place place.move openGroups (close before branches reader)
      (close before (branches.map place.move) (reader.within place)) := by
  intro value reader' h
  rw [close] at h
  split at h
  · next rest hrest =>
    cases h
    have hwithin : (reader.within place).rest = ')' :: (rest ++ ')' :: place.more) := by
      rw [within, hrest, List.cons_append]
    refine ⟨by dsimp only; omega, .same ?_⟩
    rw [close, hwithin, place.move_alternatives]
    simp only [within, hopen, Except.ok.injEq, Prod.mk.injEq, Reader.mk.injEq, true_and]
    omega
  · cases h

/-- Flags that are changed, and what may not stand behind them. -/
theorem follows_setFlags {reader : Reader} (flags : Flags) (rest : List Char) :
    Follows place place.move reader.openGroups
      (match rest with
        | '*' :: _ | '+' :: _ | '?' :: _ | '\x7b' :: _ => .error .nothingToRepeat
        | rest => .ok ((⟨.empty, 0⟩ : Piece),
          { reader.enter with rest, flags, openGroups := reader.enter.openGroups - 1 }))
      (match rest ++ ')' :: place.more with
        | '*' :: _ | '+' :: _ | '?' :: _ | '\x7b' :: _ => .error .nothingToRepeat
        | rest => .ok ((⟨.empty, 0⟩ : Piece), { (reader.within place).enter with
          rest, flags, openGroups := (reader.within place).enter.openGroups - 1 })) := by
  intro value reader' h
  split at h
  any_goals cases h
  refine ⟨rfl, .same ?_⟩
  cases rest with
  | nil => rfl
  | cons c cs =>
    rw [List.cons_append]
    split
    any_goals simp_all
    exact ⟨rfl, rfl⟩

theorem readItems_cons (bound : Nat) (reader : Reader) {c : Char} {cs : List Char}
    (hrest : reader.rest = c :: cs) (hbar : c ≠ '|') (hparen : c ≠ ')') :
    readItems (bound + 1) reader = (readItem bound reader >>= fun (item, reader) =>
      readItems bound reader >>= fun (items, reader) => .ok (item :: items, reader)) := by
  rw [readItems, hrest]
  split <;> simp_all

section Step

variable {bound bound' : Nat} (hbound : bound ≤ bound')
  (hbranches : ∀ reader : Reader, Follows place (List.map place.move) reader.openGroups
    (readBranches bound reader) (readBranches bound' (reader.within place)))
  (hitems : ∀ reader : Reader, Follows place (List.map place.move) reader.openGroups
    (readItems bound reader) (readItems bound' (reader.within place)))
  (hitem : ∀ reader : Reader, reader.rest ≠ [] → Follows place place.move reader.openGroups
    (readItem bound reader) (readItem bound' (reader.within place)))

include hitems hbranches in
theorem follows_readBranches_succ (reader : Reader) :
    Follows place (List.map place.move) reader.openGroups (readBranches (bound + 1) reader)
      (readBranches (bound' + 1) (reader.within place)) := by
  rw [readBranches, readBranches]
  refine (hitems reader).bind fun items reader hopen => ?_
  rw [← hopen]
  dsimp only
  rw [← place.move_sequence]
  split
  · next rest hrest =>
    have hwithin : (reader.within place).rest = '|' :: (rest ++ ')' :: place.more) := by
      rw [within, hrest, List.cons_append]
    rw [hwithin]
    exact (hbranches { reader with rest }).bind fun others reader hopen => .ok _ hopen
  · next hbar =>
    split
    · next rest hrest =>
      cases hreader : reader.rest with
      | nil => simp [within, hreader] at hrest
      | cons c cs => simp_all [within]
    · exact .ok _ rfl

include hitems hitem in
theorem follows_readItems_succ (reader : Reader) :
    Follows place (List.map place.move) reader.openGroups (readItems (bound + 1) reader)
      (readItems (bound' + 1) (reader.within place)) := by
  cases hrest : reader.rest with
  | nil =>
    have hwithin : (reader.within place).rest = ')' :: place.more := by
      rw [within, hrest, List.nil_append]
    rw [readItems, readItems, hrest, hwithin]
    exact .ok _ rfl
  | cons c cs =>
    have hwithin : (reader.within place).rest = c :: (cs ++ ')' :: place.more) := by
      rw [within, hrest, List.cons_append]
    by_cases hbar : c = '|'
    · rw [readItems, readItems, hrest, hwithin, hbar]
      exact .ok _ rfl
    by_cases hparen : c = ')'
    · rw [readItems, readItems, hrest, hwithin, hparen]
      exact .ok _ rfl
    rw [readItems_cons _ _ hrest hbar hparen, readItems_cons _ _ hwithin hbar hparen]
    refine (hitem reader (by simp [hrest])).bind fun item reader hopen => ?_
    rw [← hopen]
    exact (hitems reader).bind fun items reader hopen => .ok _ hopen

include hbound in
theorem follows_repetitions {piece piece' : Piece} (hpiece : piece' = place.move piece)
    (reader : Reader) : Follows place place.move reader.openGroups
    (repetitions (bound + 1) piece reader)
    (repetitions (bound' + 1) piece' (reader.within place)) := by
  rw [repetitions, repetitions, hpiece, readRepetitions_move, bind_assoc]
  exact Follows.ofExtends (extends_readRepetitions (by omega) _ piece)
    (fun piece rest => show Follows place place.move _ (.ok (piece, { reader with rest })) _ from
      .ok piece rfl) reader.rest

include hbound hbranches in
/-- The alternatives in a group, its end and its repetitions. -/
theorem follows_group (before : Flags) (f f' : Regex → Regex)
    (hf : ∀ r : Regex, (f r).shift place.marks place.groups =
      f' (r.shift place.marks place.groups))
    {openGroups : Nat} {reader : Reader} (hopen : reader.openGroups = openGroups + 1) :
    Follows place place.move openGroups
    (readBranches bound reader >>= fun (branches, reader) =>
      close before branches reader >>= fun (piece, reader) =>
        repetitions (bound + 1) (piece.around f) reader)
    (readBranches bound' (reader.within place) >>= fun (branches, reader) =>
      close before branches reader >>= fun (piece, reader) =>
        repetitions (bound' + 1) (piece.around f') reader) := by
  refine (hopen ▸ hbranches reader).bind fun branches reader hreader => ?_
  refine (follows_close before branches hreader).bind fun piece reader hclosed => ?_
  rw [← hclosed]
  exact follows_repetitions hbound (place.move_around hf piece).symm reader

include hbound hbranches in
theorem follows_readItem_succ (reader : Reader) (hrest : reader.rest ≠ []) :
    Follows place place.move reader.openGroups (readItem (bound + 1) reader)
      (readItem (bound' + 1) (reader.within place)) := by
  have hrepetitions {piece : Piece} (hpiece : place.move piece = piece) (rest : List Char) :
      Follows place place.move reader.openGroups _ _ :=
    follows_repetitions hbound hpiece.symm { reader with rest }
  rw [readItem, readItem]
  cases hcs : reader.rest with
  | nil => exact absurd hcs hrest
  | cons c cs =>
    have hwithin : (reader.within place).rest = c :: (cs ++ ')' :: place.more) := by
      rw [within, hcs, List.cons_append]
    rw [hwithin]
    dsimp only
    split
    · next heq => cases heq
    · next heq =>
      obtain ⟨rfl, rfl⟩ := List.cons_eq_cons.1 heq
      refine .unless (Follows.ofExtends (extends_readOpening _) (fun opening rest => ?_) cs)
      cases opening with
      | setFlags flags => exact follows_setFlags flags rest
      | plain flags => exact follows_group hbound hbranches _ id id (fun _ => rfl) rfl
      | numbered =>
        exact follows_group hbound hbranches _ (.group reader.nextGroup none)
          (.group (place.groups + reader.nextGroup) none) (fun _ => rfl) rfl
      | named name =>
        exact .unless (follows_group hbound hbranches _ (.group reader.nextGroup (some name))
          (.group (place.groups + reader.nextGroup) (some name)) (fun _ => rfl) rfl)
    any_goals
      intro value reader h
      cases h
    · next heq =>
      obtain ⟨rfl, rfl⟩ := List.cons_eq_cons.1 heq
      simp only [openClass_append]
      exact Follows.ofExtends (extends_readClass (by omega) _)
        (fun s rest => hrepetitions rfl rest) _
    · next heq =>
      obtain ⟨rfl, rfl⟩ := List.cons_eq_cons.1 heq
      exact hrepetitions rfl _
    · next heq =>
      obtain ⟨rfl, rfl⟩ := List.cons_eq_cons.1 heq
      exact hrepetitions rfl _
    · next heq =>
      obtain ⟨rfl, rfl⟩ := List.cons_eq_cons.1 heq
      exact hrepetitions rfl _
    · next heq =>
      obtain ⟨rfl, rfl⟩ := List.cons_eq_cons.1 heq
      refine Follows.ofExtends extends_readEscape (fun escape rest => ?_) _
      cases escape <;> exact hrepetitions rfl rest
    · next heq =>
      obtain ⟨rfl, rfl⟩ := List.cons_eq_cons.1 heq
      split
      any_goals simp_all only [List.cons.injEq, reduceCtorEq, false_and, imp_false]
      next heq =>
        obtain ⟨rfl, rfl⟩ := heq
        exact hrepetitions rfl _

end Step

/-- Alternatives, sequences and items are read in a larger expression as they are read alone. -/
theorem follows_read {bound bound' : Nat} (hbound : bound ≤ bound') (reader : Reader) :
    Follows place (List.map place.move) reader.openGroups (readBranches bound reader)
        (readBranches bound' (reader.within place)) ∧
      Follows place (List.map place.move) reader.openGroups (readItems bound reader)
        (readItems bound' (reader.within place)) ∧
      (reader.rest ≠ [] → Follows place place.move reader.openGroups (readItem bound reader)
        (readItem bound' (reader.within place))) := by
  induction bound generalizing bound' reader with
  | zero =>
    rw [readBranches, readItems, readItem]
    exact ⟨nofun, nofun, fun _ => nofun⟩
  | succ bound ih =>
    obtain ⟨bound', rfl⟩ : ∃ n, bound' = n + 1 := ⟨bound' - 1, by omega⟩
    have hle : bound ≤ bound' := by omega
    have hbranches := fun reader => (ih hle reader).1
    have hitems := fun reader => (ih hle reader).2.1
    have hitem := fun reader => (ih hle reader).2.2
    exact ⟨follows_readBranches_succ hbranches hitems reader,
      follows_readItems_succ hitems hitem reader, follows_readItem_succ hle hbranches reader⟩

/-! ### An expression in a group after a start condition -/

/-- A group without a number around an expression. -/
theorem readItem_plain (bound : Nat) (rest : List Char) {openGroups : Nat}
    (hopen : openGroups < allowedDepth) :
    readItem (bound + 1) { rest := '(' :: '?' :: ':' :: rest, openGroups } =
      (readBranches bound { rest, openGroups := openGroups + 1 } >>= fun (branches, reader) =>
        close {} branches reader >>= fun (piece, reader) =>
          repetitions (bound + 1) (piece.around id) reader) := by
  rw [readItem]
  exact if_neg (Nat.not_lt.2 hopen)

theorem readItem_start (bound : Nat) (rest : List Char) :
    readItem (bound + 1) { rest := '^' :: '(' :: rest } =
      .ok (⟨look .start, 0⟩, { rest := '(' :: rest }) := by
  rw [readItem]
  rfl

/-- The start condition is the first item of the only branch, and the group is the second. -/
theorem readBranches_enclosed (bound : Nat) (source : List Char) :
    readBranches (bound + 5) { rest := '^' :: '(' :: '?' :: ':' :: (source ++ [')']) } =
      (readBranches (bound + 1) { rest := source ++ [')'], openGroups := 1 } >>=
        fun (branches, reader) => close {} branches reader >>= fun (piece, reader) =>
          repetitions (bound + 2) (piece.around id) reader >>= fun (piece, reader) =>
            readItems (bound + 2) reader >>= fun (items, reader) =>
              match reader.rest with
              | '|' :: rest =>
                readBranches (bound + 4) { reader with rest } >>= fun (others, reader) =>
                  .ok (Piece.sequence (⟨look .start, 0⟩ :: piece :: items) :: others, reader)
              | _ => .ok ([Piece.sequence (⟨look .start, 0⟩ :: piece :: items)], reader)) := by
  rw [readBranches, readItems_cons _ _ rfl (by decide) (by decide), readItem_start, ok_bind]
  dsimp only
  rw [readItems_cons _ _ rfl (by decide) (by decide), readItem_plain _ _ (by decide)]
  simp only [bind_assoc]
  rfl

end RuledMarkup.Regex.Reader

namespace RuledMarkup.Regex

open Reader

/-- Of a single expression that is no alternative nothing has to be taken out. -/
theorem alternatives_singleton {r : Regex} (h : r.branches = [r]) : alternatives [r] = r := by
  unfold alternatives
  generalize (([r].head?.map nodeCount).getD 0) = bound
  cases bound <;> simp [simplest, choice, h]

theorem branches_seq_start (r : Regex) :
    (seq (look .start) r).branches = [seq (look .start) r] := by
  cases r <;> rfl

/-- A whole text is read as alternatives. -/
theorem exists_of_read {source : List Char} {own : Regex} (h : Regex.read source = .ok own) :
    ∃ branches reader,
      readBranches (3 * source.length + 3) { rest := source } = .ok (branches, reader) ∧
      reader.rest = [] ∧ own = (Piece.alternatives branches).regex := by
  rw [Regex.read] at h
  cases hread : readBranches (3 * source.length + 3) { rest := source } with
  | error e =>
    rw [hread] at h
    cases h
  | ok found =>
    obtain ⟨branches, reader⟩ := found
    rw [hread] at h
    simp only [bind, Except.bind] at h
    split_ifs at h with hrest hdepth
    exact ⟨branches, reader, rfl, by simpa using hrest, (Except.ok.inj h).symm⟩

/-- If a larger expression can be read, then at the place of an expression that can be read by
itself the same is read, and the numbers of checkpoints do not matter. -/
theorem exists_of_read_within {β : Type} {source : List Char} {own : Regex}
    (hown : Regex.read source = .ok own) (place : Place) {bound : Nat}
    (hbound : 3 * source.length + 3 ≤ bound)
    {next : List Piece × Reader → Except ReadError β} {found : β}
    (h : (readBranches bound (within place { rest := source }) >>= next) = .ok found) :
    ∃ branches, ∃ reader : Reader, own = (Piece.alternatives branches).regex ∧ reader.rest = [] ∧
      reader.openGroups = 0 ∧
      (∀ marks, branches.map { place with marks }.move = branches.map place.move) ∧
      next (branches.map place.move, reader.within place) = .ok found := by
  obtain ⟨branches, reader, hread, hrest, rfl⟩ := exists_of_read hown
  have hfollows (place : Place) : Follows place (List.map place.move) 0
      (readBranches (3 * source.length + 3) { rest := source })
      (readBranches bound (within place { rest := source })) :=
    (follows_read hbound { rest := source }).1
  obtain ⟨hopen, hinner | ⟨error, hinner⟩⟩ := hfollows place hread
  · rw [hinner] at h
    refine ⟨branches, reader, rfl, hrest, hopen, fun marks => ?_, h⟩
    obtain ⟨-, hmarks | ⟨error, hmarks⟩⟩ := hfollows { place with marks } hread
    · exact congrArg Prod.fst (Except.ok.inj (hmarks.symm.trans hinner))
    · cases hmarks.symm.trans hinner
  · rw [hinner] at h
    cases h

/-- An expression that can be read by itself and in a group after a start condition is the same in
both places. -/
theorem read_enclosed {source : List Char} {own enclosed : Regex}
    (hown : Regex.read source = .ok own)
    (henclosed : Regex.read ('^' :: '(' :: '?' :: ':' :: (source ++ [')'])) = .ok enclosed) :
    enclosed = seq (look .start) own := by
  let place : Place := ⟨[], 1, 0, 0, []⟩
  have hmove : place.move = id := Place.move_eq_id rfl rfl
  have hlength : 3 * ('^' :: '(' :: '?' :: ':' :: (source ++ [')'])).length + 3 =
      3 * source.length + 13 + 5 := by simp; omega
  rw [read, hlength, readBranches_enclosed, bind_assoc] at henclosed
  obtain ⟨branches, reader, rfl, hrest, -, -, h⟩ :=
    exists_of_read_within hown place (by omega) henclosed
  have hend : (reader.within place).rest = [')'] := by simp [within, place, hrest]
  simp only [hmove, List.map_id, hend, bind, Except.bind, close, repetitions, readRepetitions,
    readItems] at h
  split_ifs at h
  cases h
  have hsequence : (Piece.sequence
        [⟨look .start, 0⟩, (Piece.alternatives branches).around id]).regex =
      seq (look .start) (Piece.alternatives branches).regex := by
    simp [Piece.sequence, Piece.around, Regex.sequence]
  have hbranches := branches_seq_start (Piece.alternatives branches).regex
  rw [← hsequence] at hbranches ⊢
  exact alternatives_singleton hbranches

end RuledMarkup.Regex
