import RuledMarkup.Proofs.Regex.Readings

/-!
# Strands of an expression

An expression is a choice between strands, and a strand is a sequence of parts.  What a strand reads
is what its parts read, one after the other.

The groups and the sets of characters that stand in an expression say something about whatever it
reads.  These properties are decided, so that they hold of a written pattern by evaluation.

## Main definitions

* `Regex.strands` : the strands of an expression, each as a list of its parts.
* `Regex.ReadsEach` : what parts read one after the other.
* `Regex.isWithin`, `Regex.avoids` : all characters that an expression reads are among those of a
  list, and a character is never among them.
* `Regex.takesPart` : a group takes part whenever an expression reads something.

## Main results

* `Regex.exists_strand` : whatever an expression reads is read by one of its strands.
* `Regex.readsEach_append` : some parts read first and the others then.
-/

namespace RuledMarkup

open Text (byteSize)

namespace Regex

/-- The strands of an expression, each as a list of its parts.  Groups and repetitions are parts;
an expression that may be there once is a choice. -/
def strands : Regex → List (List Regex)
  | empty => [[]]
  | cat a b => a.strands.flatMap fun before => b.strands.map (before ++ ·)
  | alt a b => a.strands ++ b.strands
  | loop greedy least most r =>
    if least = 0 ∧ most = some 1 then [] :: r.strands else [[loop greedy least most r]]
  | r => [[r]]

/-- What parts read one after the other. -/
def ReadsEach : List Regex → Reading
  | [] => .nothing
  | r :: parts => r.Reads.followed (ReadsEach parts)

theorem readsEach_append (a b : List Regex) :
    ReadsEach (a ++ b) = (ReadsEach a).followed (ReadsEach b) := by
  induction a with
  | nil => rw [List.nil_append, ReadsEach, Reading.nothing_followed]
  | cons r a ih => rw [List.cons_append, ReadsEach, ih, ReadsEach, Reading.followed_assoc]

theorem readsEach_singleton (r : Regex) : ReadsEach [r] = r.Reads :=
  Reading.followed_nothing _

/-- Whatever an expression reads is read by one of its strands. -/
theorem exists_strand {r : Regex} {pre word post : List Char} {bindings : Bindings}
    (h : r.Reads pre word post bindings) :
    ∃ strand ∈ r.strands, ReadsEach strand pre word post bindings := by
  induction r generalizing pre word post bindings with
  | empty => exact ⟨[], List.mem_singleton_self _, h⟩
  | cat a b iha ihb =>
    obtain ⟨u, v, bu, bv, rfl, rfl, hu, hv⟩ := h
    obtain ⟨before, hbefore, hu⟩ := iha hu
    obtain ⟨after, hafter, hv⟩ := ihb hv
    refine ⟨before ++ after, ?_, ?_⟩
    · exact List.mem_flatMap.2 ⟨before, hbefore, List.mem_map.2 ⟨after, hafter, rfl⟩⟩
    · rw [readsEach_append]
      exact ⟨u, v, bu, bv, rfl, rfl, hu, hv⟩
  | alt a b iha ihb =>
    rcases h with h | h
    · obtain ⟨strand, hstrand, h⟩ := iha h
      exact ⟨strand, List.mem_append_left _ hstrand, h⟩
    · obtain ⟨strand, hstrand, h⟩ := ihb h
      exact ⟨strand, List.mem_append_right _ hstrand, h⟩
  | loop greedy least most r ih =>
    simp only [strands]
    split_ifs with honce
    · obtain ⟨rfl, rfl⟩ := honce
      obtain ⟨n, -, hlimit, h⟩ := h
      have hn : n ≤ 1 := by simpa using hlimit 1 rfl
      rcases Nat.le_one_iff_eq_zero_or_eq_one.1 hn with rfl | rfl
      · exact ⟨[], List.mem_cons_self .., h⟩
      · rw [Reading.times, Reading.times, Reading.followed_nothing] at h
        obtain ⟨strand, hstrand, h⟩ := ih h
        exact ⟨strand, List.mem_cons_of_mem _ hstrand, h⟩
    · exact ⟨_, List.mem_singleton_self _, by rwa [readsEach_singleton]⟩
  | set | look | group | checkpoint =>
    exact ⟨_, List.mem_singleton_self _, by rwa [readsEach_singleton]⟩

/-! ### The groups of an expression -/

/-- Every group that a reading gives a range is one of the given ones. -/
def Reading.Binds (reading : Reading) (indices : List Nat) : Prop :=
  ∀ pre word post bindings, reading pre word post bindings → ∀ entry ∈ bindings, entry.1 ∈ indices

theorem Reading.Binds.followed {a b : Reading} {i j : List Nat} (ha : a.Binds i) (hb : b.Binds j) :
    (a.followed b).Binds (i ++ j) := by
  rintro pre word post bindings ⟨u, v, bu, bv, rfl, rfl, hu, hv⟩ entry hentry
  rcases List.mem_append.1 hentry with hentry | hentry
  · exact List.mem_append_right _ (hb _ _ _ _ hv entry hentry)
  · exact List.mem_append_left _ (ha _ _ _ _ hu entry hentry)

theorem Reading.Binds.times {reading : Reading} {indices : List Nat} (h : reading.Binds indices) :
    (n : Nat) → (reading.times n).Binds indices
  | 0 => fun _ _ _ _ ⟨_, hbindings⟩ _ hentry => by simp [hbindings] at hentry
  | n + 1 => fun _ _ _ _ hreads entry hentry => by
    simpa using h.followed (h.times n) _ _ _ _ hreads entry hentry

/-- The numbers of the groups of an expression. -/
def indices (r : Regex) : List Nat := r.groups.map (·.1)

/-- The groups that get a range are groups of the expression. -/
theorem binds_indices (r : Regex) : r.Reads.Binds r.indices := by
  induction r with
  | empty =>
    rintro _ _ _ _ ⟨-, rfl⟩ _ hentry
    cases hentry
  | set s =>
    rintro _ _ _ _ ⟨_, -, -, rfl⟩ _ hentry
    cases hentry
  | look l =>
    rintro _ _ _ _ ⟨-, rfl, -⟩ _ hentry
    cases hentry
  | cat a b iha ihb =>
    rw [indices, groups, List.map_append]
    exact iha.followed ihb
  | alt a b iha ihb =>
    rw [indices, groups, List.map_append]
    rintro pre word post bindings (h | h) entry hentry
    · exact List.mem_append_left _ (iha _ _ _ _ h entry hentry)
    · exact List.mem_append_right _ (ihb _ _ _ _ h entry hentry)
  | loop greedy least most r ih =>
    rintro pre word post bindings ⟨n, -, -, h⟩
    exact ih.times n _ _ _ _ h
  | group index name r ih =>
    rintro pre word post bindings ⟨inner, rfl, h⟩ entry hentry
    rcases List.mem_cons.1 hentry with rfl | hentry
    · exact List.mem_cons_self ..
    · exact List.mem_cons_of_mem _ (ih _ _ _ _ h entry hentry)
  | checkpoint mark =>
    rintro _ _ _ _ ⟨-, rfl⟩ _ hentry
    cases hentry

/-- The numbers of the groups of parts. -/
def indicesEach (parts : List Regex) : List Nat := parts.flatMap indices

theorem binds_indicesEach (parts : List Regex) : (ReadsEach parts).Binds (indicesEach parts) := by
  induction parts with
  | nil =>
    rintro _ _ _ _ ⟨-, rfl⟩ _ hentry
    cases hentry
  | cons r parts ih => exact (binds_indices r).followed ih

/-- A group that is not among the parts has no range. -/
theorem lookup_eq_none {parts : List Regex} {pre word post : List Char} {bindings : Bindings}
    (h : ReadsEach parts pre word post bindings) {index : Nat}
    (hindex : index ∉ indicesEach parts) :
    bindings.lookup index = none := by
  rw [List.lookup_eq_none_iff]
  intro entry hentry
  have hne : index ≠ entry.1 := by
    rintro rfl
    exact hindex (binds_indicesEach parts _ _ _ _ h entry hentry)
  simpa using hne

theorem lt_foldl_max (groups : List (Nat × Option String)) (count : Nat) :
    count ≤ groups.foldl (fun count g => max count (g.1 + 1)) count ∧
      ∀ g ∈ groups, g.1 < groups.foldl (fun count g => max count (g.1 + 1)) count := by
  induction groups generalizing count with
  | nil => simp
  | cons g groups ih =>
    obtain ⟨hcount, hlt⟩ := ih (max count (g.1 + 1))
    simp only [List.foldl_cons]
    refine ⟨by omega, fun g' hg' => ?_⟩
    rcases List.mem_cons.1 hg' with rfl | hg'
    · omega
    · exact hlt g' hg'

/-- The number of every group is counted. -/
theorem lt_groupCount {r : Regex} {index : Nat} (h : index ∈ r.indices) : index < r.groupCount := by
  obtain ⟨g, hg, rfl⟩ := List.mem_map.1 h
  exact (lt_foldl_max r.groups 1).2 g hg

/-- Does a group take part whenever the expression reads something? -/
def takesPart (index : Nat) : Regex → Bool
  | cat a b => a.takesPart index || b.takesPart index
  | alt a b => a.takesPart index && b.takesPart index
  | loop _ least _ r => 0 < least && r.takesPart index
  | group i _ r => i = index || r.takesPart index
  | _ => false

theorem exists_mem_of_takesPart {r : Regex} {index : Nat} (hr : r.takesPart index = true)
    {pre word post : List Char} {bindings : Bindings} (h : r.Reads pre word post bindings) :
    ∃ range, (index, range) ∈ bindings := by
  induction r generalizing pre word post bindings with
  | cat a b iha ihb =>
    obtain ⟨u, v, bu, bv, rfl, rfl, hu, hv⟩ := h
    rcases Bool.or_eq_true_iff.1 hr with hr | hr
    · obtain ⟨range, hrange⟩ := iha hr hu
      exact ⟨range, List.mem_append_right _ hrange⟩
    · obtain ⟨range, hrange⟩ := ihb hr hv
      exact ⟨range, List.mem_append_left _ hrange⟩
  | alt a b iha ihb =>
    obtain ⟨ha, hb⟩ := Bool.and_eq_true_iff.1 hr
    rcases h with h | h
    · exact iha ha h
    · exact ihb hb h
  | loop greedy least most r ih =>
    obtain ⟨hleast, hr⟩ := Bool.and_eq_true_iff.1 hr
    obtain ⟨n, hn, -, h⟩ := h
    -- The first round is enough.
    obtain ⟨n, rfl⟩ := Nat.exists_eq_add_one.2 (Nat.lt_of_lt_of_le (of_decide_eq_true hleast) hn)
    obtain ⟨u, v, bu, bv, rfl, rfl, hu, -⟩ := h
    obtain ⟨range, hrange⟩ := ih hr hu
    exact ⟨range, List.mem_append_right _ hrange⟩
  | group i name r ih =>
    obtain ⟨inner, rfl, h⟩ := h
    rcases Bool.or_eq_true_iff.1 hr with hi | hr
    · obtain rfl := of_decide_eq_true hi
      exact ⟨_, List.mem_cons_self ..⟩
    · obtain ⟨range, hrange⟩ := ih hr h
      exact ⟨range, List.mem_cons_of_mem _ hrange⟩
  | empty | set | look | checkpoint => cases hr

/-- A group that takes part in what one of the parts reads has a range. -/
theorem isSome_lookup {parts : List Regex} {index : Nat}
    (hparts : parts.any (·.takesPart index) = true) {pre word post : List Char}
    {bindings : Bindings} (h : ReadsEach parts pre word post bindings) :
    (bindings.lookup index).isSome = true := by
  suffices ∃ range, (index, range) ∈ bindings by
    obtain ⟨range, hrange⟩ := this
    rw [Option.isSome_iff_ne_none, Ne, List.lookup_eq_none_iff]
    intro hnone
    simpa using hnone _ hrange
  induction parts generalizing pre word bindings with
  | nil => cases hparts
  | cons r parts ih =>
    obtain ⟨u, v, bu, bv, rfl, rfl, hu, hv⟩ := h
    rcases Bool.or_eq_true_iff.1 hparts with hr | hparts
    · obtain ⟨range, hrange⟩ := exists_mem_of_takesPart hr hu
      exact ⟨range, List.mem_append_right _ hrange⟩
    · obtain ⟨range, hrange⟩ := ih hparts hv
      exact ⟨range, List.mem_append_left _ hrange⟩

/-! ### The characters of an expression -/

end Regex

/-- Is the set a union of single characters, each of which is one of the given ones? -/
def CharSet.isWithin (chars : List Char) : CharSet → Bool
  | one c => c ∈ chars
  | union a b => a.isWithin chars && b.isWithin chars
  | _ => false

theorem CharSet.mem_of_isWithin {chars : List Char} {s : CharSet} (hs : s.isWithin chars = true)
    {c : Char} (hc : s.mem c = true) : c ∈ chars := by
  induction s with
  | one d =>
    obtain rfl : c = d := by simpa [mem] using hc
    exact of_decide_eq_true hs
  | union a b iha ihb =>
    obtain ⟨ha, hb⟩ := Bool.and_eq_true_iff.1 hs
    rcases Bool.or_eq_true_iff.1 hc with hc | hc
    · exact iha ha hc
    · exact ihb hb hc
  | any | range | word | digit | space | compl => cases hs

namespace Regex

/-- Do all sets of the expression pass a check? -/
def eachSet (check : CharSet → Bool) : Regex → Bool
  | set s => check s
  | cat a b => a.eachSet check && b.eachSet check
  | alt a b => a.eachSet check && b.eachSet check
  | loop _ _ _ r => r.eachSet check
  | group _ _ r => r.eachSet check
  | _ => true

theorem Reading.forall_mem_times {reading : Reading} {p : Char → Prop}
    (h : ∀ {pre word post bindings}, reading pre word post bindings → ∀ c ∈ word, p c) {n : Nat}
    {pre word post : List Char} {bindings : Bindings}
    (hreads : reading.times n pre word post bindings) : ∀ c ∈ word, p c := by
  induction n generalizing pre word bindings with
  | zero => simp [hreads.1]
  | succ n ih =>
    obtain ⟨u, v, bu, bv, rfl, rfl, hu, hv⟩ := hreads
    exact List.forall_mem_append.2 ⟨h hu, ih hv⟩

/-- What all characters of the sets have in common is true of all characters that are read. -/
theorem forall_mem_of_eachSet {check : CharSet → Bool} {p : Char → Prop}
    (hcheck : ∀ {s : CharSet}, check s = true → ∀ {c}, s.mem c = true → p c) {r : Regex}
    (hr : r.eachSet check = true) {pre word post : List Char} {bindings : Bindings}
    (h : r.Reads pre word post bindings) : ∀ c ∈ word, p c := by
  induction r generalizing pre word post bindings with
  | set s =>
    obtain ⟨c, rfl, hc, -⟩ := h
    simpa using hcheck hr hc
  | cat a b iha ihb =>
    obtain ⟨ha, hb⟩ := Bool.and_eq_true_iff.1 hr
    obtain ⟨u, v, bu, bv, rfl, -, hu, hv⟩ := h
    exact List.forall_mem_append.2 ⟨iha ha hu, ihb hb hv⟩
  | alt a b iha ihb =>
    obtain ⟨ha, hb⟩ := Bool.and_eq_true_iff.1 hr
    rcases h with h | h
    · exact iha ha h
    · exact ihb hb h
  | loop greedy least most r ih =>
    obtain ⟨n, -, -, h⟩ := h
    exact Reading.forall_mem_times (ih hr) h
  | group index name r ih =>
    obtain ⟨inner, -, h⟩ := h
    exact ih hr h
  | empty | look | checkpoint => simp [h.1]

theorem forall_mem_of_all_eachSet {check : CharSet → Bool} {p : Char → Prop}
    (hcheck : ∀ {s : CharSet}, check s = true → ∀ {c}, s.mem c = true → p c) {parts : List Regex}
    (hparts : parts.all (·.eachSet check) = true) {pre word post : List Char} {bindings : Bindings}
    (h : ReadsEach parts pre word post bindings) : ∀ c ∈ word, p c := by
  induction parts generalizing pre word bindings with
  | nil => simp [h.1]
  | cons r parts ih =>
    obtain ⟨hr, hparts⟩ := Bool.and_eq_true_iff.1 hparts
    obtain ⟨u, v, bu, bv, rfl, -, hu, hv⟩ := h
    exact List.forall_mem_append.2 ⟨forall_mem_of_eachSet hcheck hr hu, ih hparts hv⟩

/-- Is every character that the expression reads one of the given ones? -/
def isWithin (chars : List Char) (r : Regex) : Bool := r.eachSet (·.isWithin chars)

theorem forall_mem_of_all_isWithin {chars : List Char} {parts : List Regex}
    (hparts : parts.all (·.isWithin chars) = true) {pre word post : List Char}
    {bindings : Bindings} (h : ReadsEach parts pre word post bindings) : ∀ c ∈ word, c ∈ chars :=
  forall_mem_of_all_eachSet (fun hs _ hc => CharSet.mem_of_isWithin hs hc) hparts h

/-- Does the expression read no text with the character in it? -/
def avoids (c : Char) (r : Regex) : Bool := r.eachSet (!·.mem c)

theorem not_mem_of_all_avoids {c : Char} {parts : List Regex}
    (hparts : parts.all (·.avoids c) = true) {pre word post : List Char} {bindings : Bindings}
    (h : ReadsEach parts pre word post bindings) : c ∉ word := by
  refine fun hmem => forall_mem_of_all_eachSet (p := (· ≠ c)) (fun hs d hd => ?_) hparts h c hmem
    rfl
  rintro rfl
  simp [hd] at hs

/-- A character that is one of the parts is read. -/
theorem mem_of_mem_parts {parts : List Regex} {c : Char} (hparts : set (.one c) ∈ parts)
    {pre word post : List Char} {bindings : Bindings}
    (h : ReadsEach parts pre word post bindings) : c ∈ word := by
  induction parts generalizing pre word bindings with
  | nil => cases hparts
  | cons r parts ih =>
    obtain ⟨u, v, bu, bv, rfl, -, hu, hv⟩ := h
    rcases List.mem_cons.1 hparts with rfl | hparts
    · obtain ⟨d, rfl, hd, -⟩ := hu
      obtain rfl : d = c := by simpa [CharSet.mem] using hd
      exact List.mem_append_left _ (List.mem_singleton_self _)
    · exact List.mem_append_right _ (ih hparts hv)

/-- Parts of which one uses up a character read no empty word. -/
theorem ne_nil_of_any_isNonempty {parts : List Regex} (hparts : parts.any (·.isNonempty) = true)
    {pre word post : List Char} {bindings : Bindings}
    (h : ReadsEach parts pre word post bindings) : word ≠ [] := by
  induction parts generalizing pre word bindings with
  | nil => cases hparts
  | cons r parts ih =>
    obtain ⟨u, v, bu, bv, rfl, -, hu, hv⟩ := h
    rcases Bool.or_eq_true_iff.1 hparts with hr | hparts
    · have := length_pos_of_isNonempty hr hu
      exact List.append_ne_nil_of_left_ne_nil (List.ne_nil_of_length_pos this) v
    · exact List.append_ne_nil_of_right_ne_nil u (ih hparts hv)

end Regex

end RuledMarkup
