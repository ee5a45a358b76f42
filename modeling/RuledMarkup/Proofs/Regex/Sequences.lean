import RuledMarkup.Proofs.Regex.Strands
import RuledMarkup.Regex.Alternatives

/-!
# Sequences of parts

An expression may be a sequence of parts, which read and match one after the other.

A lazy repetition prefers to stop.  Where its rounds can go in one way only, its ways are ordered by
where they end, so of all the ways after which the rest of a sequence matches the first one is the
shortest.

## Main definitions

* `Regex.ahead` : a group for the next character or the end.
* `Regex.waysEach` : the ways in which parts match one after the other.
* `Regex.isDirect` : an expression matches in one way at most.
* `Regex.isLazy` : the ways of an expression are ordered by where they end.
* `Regex.startsWithin` : an expression reads nothing, or begins with one of some characters.

## Main results

* `Regex.pairwise_ways` : the ways of a lazy expression are in order.
* `Regex.exists_shortest` : the first way of a sequence with a lazy part is the shortest.
-/

namespace RuledMarkup.Regex

open Text (byteSize)

variable {bound : Nat} {r : Regex} {parts before after : List Regex} {way way' : Way}
  {pre word post : List Char} {bindings : Bindings}

/-! ### Parts one after the other -/

/-- What a sequence reads, its items read one after the other. -/
theorem readsEach_items (r : Regex) : ReadsEach r.items = r.Reads := by
  induction r with
  | empty => rfl
  | cat a b _ ihb =>
    rw [items, ReadsEach, ihb]
    rfl
  | _ => exact readsEach_singleton _

/-- A character that is an item is read. -/
theorem mem_of_mem_items {c : Char} (hc : set (.one c) ∈ r.items)
    (h : r.Reads pre word post bindings) : c ∈ word :=
  mem_of_mem_parts hc (by rwa [readsEach_items])

/-- At the start of a text there is nothing to be read for the start condition. -/
theorem readsEach_start_cons :
    ReadsEach (look .start :: parts) [] word post bindings ↔
      ReadsEach parts [] word post bindings := by
  constructor
  · rintro ⟨u, v, bu, bv, rfl, rfl, ⟨rfl, rfl, -⟩, h⟩
    simpa using h
  · intro h
    exact ⟨[], word, [], bindings, rfl, by simp, ⟨rfl, rfl, rfl⟩, h⟩

/-- A character reads itself. -/
theorem readsEach_one_cons {c : Char} :
    ReadsEach (set (.one c) :: parts) pre word post bindings ↔
      ∃ v, word = c :: v ∧ ReadsEach parts (pre ++ [c]) v post bindings := by
  constructor
  · rintro ⟨u, v, bu, bv, rfl, rfl, ⟨d, rfl, hd, rfl⟩, h⟩
    obtain rfl : d = c := by simpa [CharSet.mem] using hd
    exact ⟨v, rfl, by simpa using h⟩
  · rintro ⟨v, rfl, h⟩
    exact ⟨[c], v, [], bindings, rfl, by simp, ⟨c, rfl, by simp [CharSet.mem], rfl⟩, h⟩

/-- A group gets the range of what it reads. -/
theorem readsEach_group_cons {index : Nat} {name : Option String} :
    ReadsEach (group index name r :: parts) pre word post bindings ↔
      ∃ u v inner bv, word = u ++ v ∧
        bindings = bv ++ (index, ⟨byteSize pre, byteSize (pre ++ u)⟩) :: inner ∧
        r.Reads pre u (v ++ post) inner ∧ ReadsEach parts (pre ++ u) v post bv := by
  constructor
  · rintro ⟨u, v, bu, bv, rfl, rfl, ⟨inner, rfl, hu⟩, hv⟩
    exact ⟨u, v, inner, bv, rfl, rfl, hu, hv⟩
  · rintro ⟨u, v, inner, bv, rfl, rfl, hu, hv⟩
    exact ⟨u, v, _, bv, rfl, rfl, ⟨inner, rfl, hu⟩, hv⟩

/-- A group for what comes next: a character of a set, or the end of the text. -/
def ahead (index : Nat) (name : Option String) (s : CharSet) : Regex :=
  group index name (alt (set s) (look .finish))

section Ahead

variable {index : Nat} {name : Option String} {s : CharSet} {rest : List Char}

/-- The group reads something before a character of the set and at the end. -/
theorem exists_readsEach_ahead (index : Nat) (name : Option String)
    (hrest : ∀ c ∈ rest.head?, s.mem c = true) (pre : List Char) :
    ∃ word post, rest = word ++ post ∧ ReadsEach [ahead index name s] pre word post
      [(index, ⟨byteSize pre, byteSize (pre ++ word)⟩)] := by
  simp only [ahead, readsEach_singleton]
  cases rest with
  | nil => exact ⟨[], [], rfl, [], rfl, .inr ⟨rfl, rfl, rfl⟩⟩
  | cons c rest => exact ⟨[c], rest, rfl, [], rfl, .inl ⟨c, rfl, hrest c rfl, rfl⟩⟩

/-- Where the group reads something, a character of the set comes next or the text ends. -/
theorem of_readsEach_ahead (h : ReadsEach [ahead index name s] pre word post bindings) :
    (∀ c ∈ (word ++ post).head?, s.mem c = true) ∧
      bindings = [(index, ⟨byteSize pre, byteSize (pre ++ word)⟩)] := by
  rw [ahead, readsEach_singleton] at h
  obtain ⟨inner, rfl, ⟨c, rfl, hc, rfl⟩ | ⟨rfl, rfl, hfinish⟩⟩ := h
  · exact ⟨by simpa using hc, rfl⟩
  · obtain rfl : post = [] := by simpa [Look.holds, Cursor.between] using hfinish
    simp

end Ahead

/-- The ways in which parts match one after the other. -/
def waysEach (bound : Nat) : List Regex → Way → List Way
  | [], way => [way]
  | r :: parts, way => (r.ways bound way).flatMap (waysEach bound parts)

theorem waysEach_append (bound : Nat) (a b : List Regex) (way : Way) :
    waysEach bound (a ++ b) way = (waysEach bound a way).flatMap (waysEach bound b) := by
  induction a generalizing way with
  | nil => simp [waysEach]
  | cons r a ih =>
    rw [List.cons_append, waysEach, waysEach, List.flatMap_assoc]
    exact congrArg (fun f => (r.ways bound way).flatMap f) (funext ih)

theorem waysEach_singleton (bound : Nat) (r : Regex) (way : Way) :
    waysEach bound [r] way = r.ways bound way := by
  rw [waysEach]
  exact List.flatMap_singleton' _

theorem waysEach_items (bound : Nat) (r : Regex) (way : Way) :
    waysEach bound r.items way = r.ways bound way := by
  induction r generalizing way with
  | empty => rfl
  | cat a b _ ihb =>
    rw [items, waysEach, ways]
    exact congrArg (fun f => (a.ways bound way).flatMap f) (funext ihb)
  | _ => exact waysEach_singleton bound _ way

theorem goes_of_mem_waysEach (h : way' ∈ waysEach bound parts way) :
    Way.Goes (ReadsEach parts) way way' := by
  induction parts generalizing way with
  | nil =>
    obtain rfl := List.mem_singleton.1 h
    exact .stay (fun hat => ⟨hat, rfl, rfl⟩) rfl
  | cons r parts ih =>
    obtain ⟨middle, hmiddle, h⟩ := List.mem_flatMap.1 h
    exact (reads_of_mem_ways hmiddle).followed (ih h)

theorem finds_waysEach (hplain : parts.all isPlain = true) (bound : Nat) :
    Finds (waysEach bound parts) (ReadsEach parts) bound := by
  induction parts with
  | nil => exact .stay fun h _ => ⟨h.1, h.2, List.mem_singleton_self _⟩
  | cons r parts ih =>
    obtain ⟨hr, hparts⟩ := Bool.and_eq_true_iff.1 hplain
    exact (exists_mem_ways hr bound).followed (ih hparts)

/-! ### One way at most -/

/-- Is it plain that the expression matches in one way at most? -/
def isDirect : Regex → Bool
  | empty | set _ | look _ | checkpoint _ => true
  | cat a b => a.isDirect && b.isDirect
  | group _ _ r => r.isDirect
  | alt _ _ | loop .. => false

theorem length_flatMap_le_one {α β : Type} {l : List α} {f : α → List β} (hl : l.length ≤ 1)
    (hf : ∀ a ∈ l, (f a).length ≤ 1) : (l.flatMap f).length ≤ 1 := by
  match l, hl with
  | [], _ => exact Nat.zero_le 1
  | [a], _ => simpa using hf a (List.mem_singleton_self a)

theorem length_ways_set_le_one (bound : Nat) (s : CharSet) (way : Way) :
    ((set s).ways bound way).length ≤ 1 := by
  rw [ways]
  cases way.1.rest with
  | nil => exact Nat.zero_le 1
  | cons c rest => by_cases hc : s.mem c = true <;> simp [hc]

theorem length_ways_le_one (hr : r.isDirect = true) (bound : Nat) (way : Way) :
    (r.ways bound way).length ≤ 1 := by
  induction r generalizing way with
  | empty => exact Nat.le_refl 1
  | set s => exact length_ways_set_le_one bound s way
  | look l => by_cases hl : l.holds way.1 = true <;> simp [ways, hl]
  | cat a b iha ihb =>
    obtain ⟨ha, hb⟩ := Bool.and_eq_true_iff.1 hr
    exact length_flatMap_le_one (iha ha way) fun middle _ => ihb hb middle
  | group index name r ih => simpa [ways] using ih hr way
  | checkpoint mark => by_cases hmark : mark ∈ way.1.passed <;> simp [ways, hmark]
  | alt | loop => cases hr

theorem length_waysEach_le_one (hparts : parts.all isDirect = true) (bound : Nat) (way : Way) :
    (waysEach bound parts way).length ≤ 1 := by
  induction parts generalizing way with
  | nil => exact Nat.le_refl 1
  | cons r parts ih =>
    obtain ⟨hr, hparts⟩ := Bool.and_eq_true_iff.1 hparts
    exact length_flatMap_le_one (length_ways_le_one hr bound way) fun middle _ => ih hparts middle

/-! ### Ways in order -/

/-- The first way ends no later than the second one. -/
def Way.Nearer (way way' : Way) : Prop := way'.1.rest.length ≤ way.1.rest.length

theorem Way.Nearer.refl (way : Way) : way.Nearer way := Nat.le_refl _

/-- Is it plain that the ways of the expression are ordered by where they end? -/
def isLazy : Regex → Bool
  | cat a b => a.isDirect && b.isLazy || a.isLazy && b.set?.isSome
  | loop greedy least most r =>
    !greedy && (r.set?.isSome || least = 0 && most = some 1 && r.isLazy)
  | group _ _ r => r.isLazy
  | r => r.isDirect

theorem pairwise_of_length_le_one {α : Type} {R : α → α → Prop} {l : List α}
    (h : l.length ≤ 1) : l.Pairwise R := by
  match l, h with
  | [], _ => exact .nil
  | [a], _ => exact List.pairwise_singleton R a

/-- One more character of a set keeps the order. -/
theorem pairwise_flatMap_set (s : CharSet) {l : List Way} (h : l.Pairwise Way.Nearer) :
    (l.flatMap ((set s).ways bound)).Pairwise Way.Nearer := by
  have hrest : ∀ {way way'}, way' ∈ (set s).ways bound way →
      way.1.rest.length = way'.1.rest.length + 1 := by
    intro way way' hmem
    rw [ways] at hmem
    split at hmem
    · cases hmem
    · rename_i c rest hway
      split_ifs at hmem
      · obtain rfl := List.mem_singleton.1 hmem
        rw [hway]
        rfl
      · cases hmem
  refine List.pairwise_flatMap.2 ⟨fun way _ =>
    pairwise_of_length_le_one (length_ways_set_le_one bound s way), h.imp ?_⟩
  intro way way' hle x hx y hy
  have hx := hrest hx
  have hy := hrest hy
  rw [Way.Nearer] at hle ⊢
  omega

/-- The ways of a lazy run of characters are in order, and all of them begin where the run does. -/
theorem pairwise_waysUpTo_set (s : CharSet) (n : Nat) (way : Way) :
    (waysUpTo false ((set s).ways bound) n way).Pairwise Way.Nearer ∧
      ∀ way' ∈ waysUpTo false ((set s).ways bound) n way, way.Nearer way' := by
  induction n generalizing way with
  | zero =>
    refine ⟨List.pairwise_singleton _ _, fun way' hway' => ?_⟩
    rw [List.mem_singleton.1 hway']
    exact .refl way
  | succ n ih =>
    have hfurther : ((set s).ways bound way).flatMap
        (waysUpTo false ((set s).ways bound) n) = [] ∨
        ∃ c rest, way.1.rest = c :: rest ∧ ((set s).ways bound way).flatMap
          (waysUpTo false ((set s).ways bound) n) =
            waysUpTo false ((set s).ways bound) n (way.1.next c rest, way.2) := by
      rw [ways]
      cases hway : way.1.rest with
      | nil => exact .inl rfl
      | cons c rest =>
        by_cases hc : s.mem c = true
        · exact .inr ⟨c, rest, rfl, by simp [hc]⟩
        · exact .inl (by simp [hc])
    simp only [waysUpTo, Bool.false_eq_true, if_false]
    rcases hfurther with hnil | ⟨c, rest, hway, hnext⟩
    · rw [hnil]
      refine ⟨List.pairwise_singleton _ _, fun way' hway' => ?_⟩
      rw [List.mem_singleton.1 hway']
      exact .refl way
    · rw [hnext]
      obtain ⟨hpairwise, hnearer⟩ := ih (way.1.next c rest, way.2)
      have hall : ∀ way' ∈ waysUpTo false ((set s).ways bound) n (way.1.next c rest, way.2),
          way.Nearer way' := by
        intro way' hway'
        have := hnearer way' hway'
        simp only [Way.Nearer, Cursor.next, hway, List.length_cons] at this ⊢
        omega
      exact ⟨List.pairwise_cons.2 ⟨hall, hpairwise⟩,
        List.forall_mem_cons.2 ⟨.refl way, hall⟩⟩

/-- A way ends no sooner than it begins. -/
theorem nearer_of_mem_ways (hat : way.1.At pre post) (h : way' ∈ r.ways bound way) :
    way.Nearer way' := by
  obtain ⟨word, rest, -, rfl, -, hat', -⟩ := reads_of_mem_ways h pre post hat
  rw [Way.Nearer, hat.rest_eq, hat'.rest_eq, List.length_append]
  exact Nat.le_add_left _ _

/-- The ways of a lazy expression are in order. -/
theorem pairwise_ways (hr : r.isLazy = true) (bound : Nat) (hat : way.1.At pre post) :
    (r.ways bound way).Pairwise Way.Nearer := by
  induction r generalizing way pre post with
  | cat a b iha ihb =>
    rw [ways]
    rcases Bool.or_eq_true_iff.1 hr with hr | hr
    · obtain ⟨ha, hb⟩ := Bool.and_eq_true_iff.1 hr
      refine List.pairwise_flatMap.2
        ⟨fun middle hmiddle => ?_, pairwise_of_length_le_one (length_ways_le_one ha bound way)⟩
      obtain ⟨u, v, -, -, -, hat', -⟩ := reads_of_mem_ways hmiddle pre post hat
      exact ihb hb hat'
    · obtain ⟨ha, hb⟩ := Bool.and_eq_true_iff.1 hr
      obtain ⟨s, hs⟩ := Option.isSome_iff_exists.1 hb
      obtain rfl := eq_set_of_set? hs
      exact pairwise_flatMap_set s (iha ha hat)
  | loop greedy least most r ih =>
    simp only [isLazy, Bool.and_eq_true, Bool.not_eq_true', Bool.or_eq_true,
      decide_eq_true_eq] at hr
    obtain ⟨rfl, hset | ⟨⟨rfl, rfl⟩, hr⟩⟩ := hr
    · obtain ⟨s, hs⟩ := Option.isSome_iff_exists.1 hset
      obtain rfl := eq_set_of_set? hs
      rw [ways, waysExactly_set]
      cases skip s least way.1 with
      | none => exact .nil
      | some cursor => simpa using (pairwise_waysUpTo_set s _ (cursor, way.2)).1
    · have hways : (loop false 0 (some 1) r).ways bound way = way :: r.ways bound way := by
        simp [ways, waysExactly, waysUpTo]
      rw [hways]
      exact List.pairwise_cons.2 ⟨fun way' => nearer_of_mem_ways hat, ih hr hat⟩
  | group index name r ih =>
    rw [ways]
    exact List.pairwise_map.2 (ih hr hat)
  | empty | set | look | checkpoint =>
    exact pairwise_of_length_le_one (length_ways_le_one hr bound way)
  | alt => cases hr

/-- If a list is in order, then what its elements are mapped to begins with what an element is
mapped to that comes first. -/
theorem exists_head?_flatMap {α β : Type} {R : α → α → Prop} (hrefl : ∀ a, R a a) {l : List α}
    (hl : l.Pairwise R) {f : α → List β} {a : α} (ha : a ∈ l) (hf : f a ≠ []) :
    ∃ first ∈ l, R first a ∧ ∃ b, (f first).head? = some b ∧ (l.flatMap f).head? = some b := by
  induction l with
  | nil => cases ha
  | cons x l ih =>
    obtain ⟨hx, hl⟩ := List.pairwise_cons.1 hl
    rw [List.flatMap_cons, List.head?_append]
    cases hfx : (f x).head? with
    | some b =>
      refine ⟨x, List.mem_cons_self, ?_, b, hfx, rfl⟩
      rcases List.mem_cons.1 ha with rfl | ha
      · exact hrefl _
      · exact hx a ha
    | none =>
      have hne : a ≠ x := by
        rintro rfl
        exact hf (List.head?_eq_none_iff.1 hfx)
      obtain ⟨first, hfirst, hle, b, hb, hhead⟩ := ih hl ((List.mem_cons.1 ha).resolve_left hne)
      exact ⟨first, List.mem_cons_of_mem x hfirst, hle, b, hb, hhead⟩

theorem eq_singleton_of_mem {α : Type} {l : List α} {a : α} (ha : a ∈ l) (hl : l.length ≤ 1) :
    l = [a] := by
  match l, hl with
  | [], _ => cases ha
  | [b], _ => rw [List.mem_singleton.1 ha]

/-- Of all readings of a sequence with a lazy part, whose other parts before it leave no choice, the
first way is one in which the lazy part reads the shortest word. -/
theorem exists_shortest (hbefore : before.all isDirect = true) (hr : r.isLazy = true)
    (hplain : (before ++ r :: after).all isPlain = true) {u w v rest : List Char}
    {bu bw bv : Bindings} (hu : ReadsEach before [] u (w ++ v ++ rest) bu)
    (hw : r.Reads u w (v ++ rest) bw) (hv : ReadsEach after (u ++ w) v rest bv)
    (hbound : (u ++ w ++ v ++ rest).length ≤ bound) :
    ∃ w' v' rest' bw' bv' stop, u ++ w ++ v ++ rest = u ++ w' ++ v' ++ rest' ∧
      w'.length ≤ w.length ∧ r.Reads u w' (v' ++ rest') bw' ∧
      ReadsEach after (u ++ w') v' rest' bv' ∧ stop.At (u ++ w' ++ v') rest' ∧
      (waysEach bound (before ++ r :: after) (.ofText (u ++ w ++ v ++ rest), [])).head? =
        some (stop, bv' ++ bw' ++ bu) := by
  simp only [List.all_append, List.all_cons, Bool.and_eq_true] at hplain
  obtain ⟨hplainBefore, hplainR, hplainAfter⟩ := hplain
  simp only [List.append_assoc, List.length_append] at hbound hu
  -- The parts before the lazy one lead to one place only.
  obtain ⟨way, hway, hat, hbindings⟩ := finds_waysEach hplainBefore bound _ _ _ _
    (.ofText (u ++ w ++ v ++ rest), []) hu (by simpa using Cursor.at_ofText (u ++ w ++ v ++ rest))
    (by simp only [List.length_append]; omega)
  have hone := eq_singleton_of_mem hway (length_waysEach_le_one hbefore bound _)
  rw [List.nil_append] at hat
  obtain ⟨middle, hmiddle, hat', -⟩ := exists_mem_ways hplainR bound _ _ _ _ way hw hat
    (by simp only [List.length_append]; omega)
  obtain ⟨final, hfinal, -, -⟩ := finds_waysEach hplainAfter bound _ _ _ _ middle hv hat'
    (by simp only [List.length_append]; omega)
  obtain ⟨first, hfirst, hle, ⟨stop, bindings⟩, hstop, hhead⟩ := exists_head?_flatMap
    Way.Nearer.refl (pairwise_ways hr bound hat) hmiddle (List.ne_nil_of_mem hfinal)
  obtain ⟨w', rest', bw', hrest, hbw', hat'', hw'⟩ := reads_of_mem_ways hfirst _ _ hat
  obtain ⟨v', rest'', bv', rfl, hbv', hat''', hv'⟩ :=
    goes_of_mem_waysEach (List.mem_of_mem_head? hstop) _ _ hat''
  refine ⟨w', v', rest'', bw', bv', stop, ?_, ?_, hw', hv', hat''', ?_⟩
  · simp only [List.append_assoc]
    exact congrArg (u ++ ·) hrest
  · have hlength := congrArg List.length hrest
    simp only [Way.Nearer, hat'.rest_eq, hat''.rest_eq, List.length_append] at hle hlength
    omega
  · rw [waysEach_append, hone, List.flatMap_singleton, waysEach, hhead]
    simp only at hbv'
    rw [hbv', hbw', hbindings, List.append_nil, List.append_assoc]

/-! ### First characters -/

/-- Does the expression, unless it reads nothing, begin with one of the characters? -/
def startsWithin (chars : List Char) : Regex → Bool
  | set s => s.isWithin chars
  | cat a b => a.startsWithin chars && (a.isNonempty || b.startsWithin chars)
  | alt a b => a.startsWithin chars && b.startsWithin chars
  | loop _ _ _ r => r.startsWithin chars
  | group _ _ r => r.startsWithin chars
  | empty | look _ | checkpoint _ => true

theorem head?_of_startsWithin {chars : List Char} (hr : r.startsWithin chars = true)
    (h : r.Reads pre word post bindings) : ∀ c ∈ word.head?, c ∈ chars := by
  induction r generalizing pre word post bindings with
  | set s =>
    obtain ⟨c, rfl, hc, -⟩ := h
    simpa using s.mem_of_isWithin hr hc
  | cat a b iha ihb =>
    obtain ⟨ha, hb⟩ := Bool.and_eq_true_iff.1 hr
    obtain ⟨u, v, _, _, rfl, -, hu, hv⟩ := h
    cases u with
    | cons c u => simpa using iha ha hu
    | nil =>
      rcases Bool.or_eq_true_iff.1 hb with hempty | hb
      · exact absurd (length_pos_of_isNonempty hempty hu) (Nat.lt_irrefl 0)
      · exact ihb hb hv
  | alt a b iha ihb =>
    obtain ⟨ha, hb⟩ := Bool.and_eq_true_iff.1 hr
    rcases h with h | h
    · exact iha ha h
    · exact ihb hb h
  | loop greedy least most r ih =>
    obtain ⟨n, -, -, h⟩ := h
    induction n generalizing pre word bindings with
    | zero => simp [h.1]
    | succ n ihn =>
      obtain ⟨u, v, _, _, rfl, -, hu, hv⟩ := h
      cases u with
      | cons c u => simpa using ih hr hu
      | nil => exact ihn hv
  | group index name r ih =>
    obtain ⟨inner, -, h⟩ := h
    exact ih hr h
  | empty | look | checkpoint => simp [h.1]

end RuledMarkup.Regex
