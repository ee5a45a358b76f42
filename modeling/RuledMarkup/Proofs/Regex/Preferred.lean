import RuledMarkup.Proofs.Regex.Sequences

/-!
# The way that is preferred

A greedy run of characters goes on as far as it can.  Where the other parts of a sequence have the
characters before them that they need, the preferred way through the sequence is known.

A lazy repetition first tries to go on behind it, and has a further round only where that fails.

## Main definitions

* `Regex.Prefers`, `Regex.PrefersEach` : the preferred way leads to the end of a word.

## Main results

* `Regex.prefers_run` : a greedy run of characters goes on as far as it can.
* `Regex.Prefers.optional_set_cat` : an optional character is left out if nothing could be read
  behind it.
* `Regex.PrefersEach.exists_head?` : the first way of a sequence.
* `Regex.head?_lazy_of_head?`, `Regex.lazy_succ`, `Regex.lazy_eq_nil` : a lazy repetition stops
  where it can go on, has a round where it cannot, and fails where it can do neither.
-/

namespace RuledMarkup.Regex

open Text (byteSize)

variable {bound index least : Nat} {name : Option String} {r a b : Regex} {parts : List Regex}
  {s : CharSet} {c : Char} {way : Way} {pre word post rest : List Char}
  {bindings inner : Bindings}

/-- Before the word, the preferred way leads to the end of the word. -/
def Prefers (r : Regex) : Reading := fun pre word post bindings =>
  ∀ bound way, (word ++ post).length ≤ bound → way.1.At pre (word ++ post) →
    ∃ stop, stop.At (pre ++ word) post ∧ (r.ways bound way).head? = some (stop, bindings ++ way.2)

/-- Part by part, the preferred way leads to the end of the word. -/
def PrefersEach : List Regex → Reading
  | [] => Reading.nothing
  | r :: parts => r.Prefers.followed (PrefersEach parts)

theorem head?_flatMap_of_head? {α β : Type} {l : List α} {f : α → List β} {a : α} {b : β}
    (ha : l.head? = some a) (hb : (f a).head? = some b) : (l.flatMap f).head? = some b := by
  cases l with
  | nil => cases ha
  | cons x l =>
    obtain rfl := Option.some.inj ha
    rw [List.flatMap_cons, List.head?_append, hb, Option.some_or]

/-- The first way of a sequence. -/
theorem PrefersEach.exists_head? (h : PrefersEach parts pre word post bindings) (bound : Nat)
    (way : Way) (hbound : (word ++ post).length ≤ bound) (hat : way.1.At pre (word ++ post)) :
    ∃ stop, stop.At (pre ++ word) post ∧
      (waysEach bound parts way).head? = some (stop, bindings ++ way.2) := by
  induction parts generalizing pre word bindings way with
  | nil =>
    obtain ⟨rfl, rfl⟩ := h
    exact ⟨way.1, by simpa using hat, rfl⟩
  | cons r parts ih =>
    obtain ⟨u, v, bu, bv, rfl, rfl, hu, hv⟩ := h
    rw [List.append_assoc] at hat hbound
    obtain ⟨middle, hmiddle, hhead⟩ := hu bound way hbound hat
    rw [List.length_append] at hbound
    obtain ⟨stop, hstop, hlater⟩ := ih hv (middle, bu ++ way.2) (by omega) hmiddle
    refine ⟨stop, by rwa [← List.append_assoc], ?_⟩
    rw [waysEach, head?_flatMap_of_head? hhead hlater, List.append_assoc]

/-! ### Single parts -/

theorem prefers_look {l : Look} (h : l.holds (.between pre post) = true) :
    (look l).Prefers pre [] post [] := by
  intro bound way _ hat
  refine ⟨way.1, by simpa using hat, ?_⟩
  rw [ways, if_pos ((hat.holds_eq l).trans h)]
  rfl

/-- The only way of a character. -/
theorem ways_set_of_at (hc : s.mem c = true) (hat : way.1.At pre (c :: post)) :
    (set s).ways bound way = [(way.1.next c post, way.2)] := by
  rw [ways, hat.rest_eq]
  exact if_pos hc

/-- There is no way where no character of the set stands. -/
theorem ways_set_eq_nil (hpost : ∀ c ∈ post.head?, s.mem c = false) (hat : way.1.At pre post) :
    (set s).ways bound way = [] := by
  rw [ways, hat.rest_eq]
  cases post with
  | nil => rfl
  | cons c post => exact if_neg (by simp [hpost c rfl])

theorem prefers_set (hc : s.mem c = true) : (set s).Prefers pre [c] post [] := by
  intro bound way _ hat
  exact ⟨_, hat.next, by rw [ways_set_of_at hc hat]; rfl⟩

theorem Prefers.group (h : r.Prefers pre word post inner) (index : Nat) (name : Option String) :
    (group index name r).Prefers pre word post
      ((index, ⟨byteSize pre, byteSize (pre ++ word)⟩) :: inner) := by
  intro bound way hbound hat
  obtain ⟨stop, hstop, hhead⟩ := h bound way hbound hat
  refine ⟨stop, hstop, ?_⟩
  rw [ways, List.head?_map, hhead, Option.map_some, hat.offset_eq, hstop.offset_eq]
  rfl

theorem Prefers.alt_left (h : a.Prefers pre word post bindings) (b : Regex) :
    (alt a b).Prefers pre word post bindings := by
  intro bound way hbound hat
  obtain ⟨stop, hstop, hhead⟩ := h bound way hbound hat
  exact ⟨stop, hstop, by rw [ways, List.head?_append, hhead, Option.some_or]⟩

/-- The second alternative counts where no character of the first one stands. -/
theorem Prefers.alt_right (h : b.Prefers pre word post bindings)
    (hnone : ∀ c ∈ (word ++ post).head?, s.mem c = false) :
    (alt (set s) b).Prefers pre word post bindings := by
  intro bound way hbound hat
  obtain ⟨stop, hstop, hhead⟩ := h bound way hbound hat
  exact ⟨stop, hstop, by rw [ways, ways_set_eq_nil hnone hat, List.nil_append, hhead]⟩

/-- There is no way where nothing can be read. -/
theorem ways_eq_nil (hnone : ∀ word post bindings, rest = word ++ post →
    ¬ r.Reads pre word post bindings) (hat : way.1.At pre rest) : r.ways bound way = [] := by
  refine List.eq_nil_iff_forall_not_mem.2 fun way' hway' => ?_
  obtain ⟨word, post, bindings, hrest, -, -, hreads⟩ := reads_of_mem_ways hway' pre rest hat
  exact hnone word post bindings hrest hreads

/-- The second alternative counts where the first one can read nothing. -/
theorem Prefers.alt_right_of_not_reads (h : b.Prefers pre word post bindings)
    (hnone : ∀ u v inner, word ++ post = u ++ v → ¬ a.Reads pre u v inner) :
    (alt a b).Prefers pre word post bindings := by
  intro bound way hbound hat
  obtain ⟨stop, hstop, hhead⟩ := h bound way hbound hat
  exact ⟨stop, hstop, by rw [ways, ways_eq_nil hnone hat, List.nil_append, hhead]⟩

/-- One preferred way after the other. -/
theorem Prefers.cat {u v : List Char} {bu bv : Bindings} (ha : a.Prefers pre u (v ++ post) bu)
    (hb : b.Prefers (pre ++ u) v post bv) :
    (Regex.cat a b).Prefers pre (u ++ v) post (bv ++ bu) := by
  intro bound way hbound hat
  rw [List.append_assoc] at hat hbound
  obtain ⟨middle, hmiddle, hhead⟩ := ha bound way hbound hat
  rw [List.length_append] at hbound
  obtain ⟨stop, hstop, hlater⟩ := hb bound (middle, bu ++ way.2) (by omega) hmiddle
  refine ⟨stop, by rwa [← List.append_assoc], ?_⟩
  rw [ways, head?_flatMap_of_head? hhead hlater, List.append_assoc]

/-! ### Optional parts -/

/-- An expression that may be left out is left out last. -/
theorem ways_optional (bound : Nat) (r : Regex) (way : Way) :
    (loop true 0 (some 1) r).ways bound way = r.ways bound way ++ [way] := by
  simp [ways, waysExactly, waysUpTo]

theorem Prefers.optional (h : r.Prefers pre word post bindings) :
    (loop true 0 (some 1) r).Prefers pre word post bindings := by
  intro bound way hbound hat
  obtain ⟨stop, hstop, hhead⟩ := h bound way hbound hat
  exact ⟨stop, hstop, by rw [ways_optional, List.head?_append, hhead, Option.some_or]⟩

/-- A character that may be left out is left out where it does not stand. -/
theorem prefers_optional_set (hpost : ∀ c ∈ post.head?, s.mem c = false) :
    (loop true 0 (some 1) (set s)).Prefers pre [] post [] := by
  intro bound way _ hat
  refine ⟨way.1, by simpa using hat, ?_⟩
  rw [ways_optional, ways_set_eq_nil hpost hat]
  rfl

/-- A character that may be left out is left out if nothing could be read behind it. -/
theorem Prefers.optional_set_cat (h : r.Prefers pre word post bindings)
    (hnone : ∀ c rest, word ++ post = c :: rest → s.mem c = true →
      ∀ u v inner, rest = u ++ v → ¬ r.Reads (pre ++ [c]) u v inner) :
    (Regex.cat (loop true 0 (some 1) (set s)) r).Prefers pre word post bindings := by
  intro bound way hbound hat
  obtain ⟨stop, hstop, hhead⟩ := h bound way hbound hat
  refine ⟨stop, hstop, ?_⟩
  have htaken : ((set s).ways bound way).flatMap (r.ways bound) = [] := by
    rw [ways, hat.rest_eq]
    cases hrest : word ++ post with
    | nil => rfl
    | cons c rest =>
      dsimp only
      split_ifs with hc
      · rw [hrest] at hat
        rw [List.flatMap_singleton]
        exact ways_eq_nil (hnone c rest hrest hc) hat.next
      · rfl
  rw [ways, ways_optional, List.flatMap_append, htaken, List.nil_append, List.flatMap_singleton,
    hhead]

/-! ### Greedy runs of characters -/

/-- As many characters of a set as there are can be skipped in one way only. -/
theorem exists_waysExactly_set (bound : Nat) (way : Way) (hword : ∀ c ∈ word, s.mem c = true)
    (hat : way.1.At pre (word ++ post)) :
    ∃ stop, stop.At (pre ++ word) post ∧
      waysExactly ((set s).ways bound) word.length way = [(stop, way.2)] := by
  induction word generalizing pre way with
  | nil => exact ⟨way.1, by simpa using hat, rfl⟩
  | cons c word ih =>
    obtain ⟨hc, hword⟩ := List.forall_mem_cons.1 hword
    rw [List.cons_append] at hat
    obtain ⟨stop, hstop, hways⟩ := ih (way.1.next c (word ++ post), way.2) hword hat.next
    refine ⟨stop, by simpa using hstop, ?_⟩
    rw [List.length_cons, waysExactly, ways_set_of_at hc hat, List.flatMap_singleton, hways]

/-- The first way of a greedy run goes as far as there are characters of the set. -/
theorem exists_head?_waysUpTo (bound : Nat) (way : Way) {n : Nat} (hn : word.length ≤ n)
    (hword : ∀ c ∈ word, s.mem c = true) (hpost : ∀ c ∈ post.head?, s.mem c = false)
    (hat : way.1.At pre (word ++ post)) :
    ∃ stop, stop.At (pre ++ word) post ∧
      (waysUpTo true ((set s).ways bound) n way).head? = some (stop, way.2) := by
  induction n generalizing pre word way with
  | zero =>
    obtain rfl := List.length_eq_zero_iff.1 (Nat.le_zero.1 hn)
    exact ⟨way.1, by simpa using hat, rfl⟩
  | succ n ih =>
    rw [waysUpTo]
    simp only [if_true]
    cases word with
    | nil =>
      refine ⟨way.1, by simpa using hat, ?_⟩
      rw [ways_set_eq_nil hpost hat]
      rfl
    | cons c word =>
      obtain ⟨hc, hword⟩ := List.forall_mem_cons.1 hword
      rw [List.cons_append] at hat
      obtain ⟨stop, hstop, hhead⟩ := ih (way.1.next c (word ++ post), way.2)
        (Nat.le_of_succ_le_succ hn) hword hat.next
      refine ⟨stop, by simpa using hstop, ?_⟩
      rw [ways_set_of_at hc hat, List.flatMap_singleton, List.head?_append, hhead, Option.some_or]

/-- A greedy run of characters goes on as far as it can. -/
theorem prefers_run (hleast : least ≤ word.length) (hword : ∀ c ∈ word, s.mem c = true)
    (hpost : ∀ c ∈ post.head?, s.mem c = false) :
    (loop true least none (set s)).Prefers pre word post [] := by
  intro bound way hbound hat
  obtain ⟨u, v, rfl, rfl⟩ : ∃ u v, word = u ++ v ∧ u.length = least :=
    ⟨word.take least, word.drop least, (List.take_append_drop ..).symm,
      List.length_take_of_le hleast⟩
  obtain ⟨hu, hv⟩ := List.forall_mem_append.1 hword
  rw [List.append_assoc] at hat
  obtain ⟨middle, hmiddle, hexactly⟩ := exists_waysExactly_set bound way hu hat
  simp only [List.length_append] at hbound
  obtain ⟨stop, hstop, hhead⟩ := exists_head?_waysUpTo bound (middle, way.2) (n := bound)
    (by omega) hv hpost hmiddle
  refine ⟨stop, by simpa using hstop, ?_⟩
  rw [ways, hexactly, List.flatMap_singleton]
  exact hhead

/-! ### Lazy repetitions -/

section Lazy

variable {β : Type} {round : Way → List Way} {after : Way → List β} {n : Nat}

theorem flatMap_waysUpTo_zero : (waysUpTo false round 0 way).flatMap after = after way := by
  rw [waysUpTo, List.flatMap_singleton]

theorem flatMap_waysUpTo_succ :
    (waysUpTo false round (n + 1) way).flatMap after =
      after way ++ (round way).flatMap fun way => (waysUpTo false round n way).flatMap after := by
  simp [waysUpTo, List.flatMap_assoc]

/-- A lazy repetition stops where it can go on. -/
theorem head?_lazy_of_head? {found : β} (h : (after way).head? = some found) :
    ((waysUpTo false round n way).flatMap after).head? = some found := by
  cases n with
  | zero => rw [flatMap_waysUpTo_zero, h]
  | succ n => rw [flatMap_waysUpTo_succ, List.head?_append, h, Option.some_or]

/-- A lazy repetition has a round where it cannot go on. -/
theorem lazy_succ {way' : Way} (h : after way = []) (hround : round way = [way']) :
    (waysUpTo false round (n + 1) way).flatMap after =
      (waysUpTo false round n way').flatMap after := by
  rw [flatMap_waysUpTo_succ, h, hround, List.nil_append, List.flatMap_singleton]

/-- A lazy repetition fails where it can neither go on nor have a round. -/
theorem lazy_eq_nil (h : after way = []) (hround : round way = []) :
    (waysUpTo false round n way).flatMap after = [] := by
  cases n with
  | zero => rw [flatMap_waysUpTo_zero, h]
  | succ n => rw [flatMap_waysUpTo_succ, h, hround, List.flatMap_nil, List.append_nil]

end Lazy

end RuledMarkup.Regex
