import RuledMarkup.Proofs.Regex.Ways
import RuledMarkup.Regex.Checkpoints
import RuledMarkup.Proofs.Text.Windows

/-!
# What an expression reads

An expression reads a word between the text before it and the text after it.  This leaves out how a
match is searched for: which way is preferred, how many rounds the matcher tries, and checkpoints,
which only take ways away.

## Main definitions

* `Regex.Reads` : an expression reads a word, and its groups have certain ranges.
* `Cursor.At` : a position between two texts.

## Main results

* `Regex.reads_of_mem_ways` : every way of matching is a reading.
* `Regex.reads_of_search` : a match in a text reads a word of it.
* `Regex.exists_mem_ways` : an expression without checkpoints matches whatever it reads.
* `Regex.located_reads` : the ranges of groups are pieces of the word.
* `Regex.length_pos_of_isNonempty` : some expressions read no empty word.
-/

namespace RuledMarkup

open Text (byteSize byteSize_append byteSize_cons byteSize_nil)

/-- The position lies between two texts, of which the first is everything before it. -/
structure Cursor.At (cursor : Cursor) (pre post : List Char) : Prop where
  before_eq : cursor.before = pre.getLast?
  rest_eq : cursor.rest = post
  offset_eq : cursor.offset = byteSize pre

/-- The position between two texts. -/
def Cursor.between (pre post : List Char) : Cursor := ⟨pre.getLast?, post, byteSize pre, []⟩

theorem Cursor.at_ofText (text : List Char) : (Cursor.ofText text).At [] text :=
  ⟨rfl, rfl, by simp [ofText]⟩

theorem Cursor.At.next {cursor : Cursor} {pre rest : List Char} {c : Char}
    (h : cursor.At pre (c :: rest)) : (cursor.next c rest).At (pre ++ [c]) rest :=
  ⟨by simp [Cursor.next], rfl, by simp [Cursor.next, h.offset_eq]⟩

theorem Cursor.At.pass {cursor : Cursor} {pre post : List Char} (h : cursor.At pre post)
    (mark : Nat) : (cursor.pass mark).At pre post :=
  ⟨h.before_eq, h.rest_eq, h.offset_eq⟩

/-- A condition on a position depends on the two texts only. -/
theorem Cursor.At.holds_eq {cursor : Cursor} {pre post : List Char} (h : cursor.At pre post)
    (l : Look) : l.holds cursor = l.holds (.between pre post) := by
  have hbefore : cursor.before = (Cursor.between pre post).before := h.before_eq
  have hrest : cursor.rest = (Cursor.between pre post).rest := h.rest_eq
  cases l <;> simp only [Look.holds, Cursor.afterWord, Cursor.beforeWord, hbefore, hrest]

namespace Regex

/-- A relation between the text before a word, the word, the text after it, and ranges of groups,
the latest first. -/
abbrev Reading : Type := List Char → List Char → List Char → Bindings → Prop

/-- One reading after the other. -/
def Reading.followed (a b : Reading) : Reading := fun pre word post bindings =>
  ∃ u v bu bv, word = u ++ v ∧ bindings = bv ++ bu ∧ a pre u (v ++ post) bu ∧ b (pre ++ u) v post bv

/-- Nothing is read. -/
def Reading.nothing : Reading := fun _ word _ bindings => word = [] ∧ bindings = []

/-- A number of readings, one after the other. -/
def Reading.times (reading : Reading) : Nat → Reading
  | 0 => nothing
  | n + 1 => reading.followed (reading.times n)

theorem Reading.nothing_followed (a : Reading) : nothing.followed a = a := by
  funext pre word post bindings
  refine propext ⟨?_, fun h => ⟨[], word, [], bindings, rfl, by simp, ⟨rfl, rfl⟩, by simpa using h⟩⟩
  rintro ⟨u, v, bu, bv, rfl, rfl, ⟨rfl, rfl⟩, h⟩
  simpa using h

theorem Reading.followed_nothing (a : Reading) : a.followed nothing = a := by
  funext pre word post bindings
  refine propext ⟨?_, fun h => ⟨word, [], bindings, [], by simp, rfl, h, rfl, rfl⟩⟩
  rintro ⟨u, v, bu, bv, rfl, rfl, h, rfl, rfl⟩
  simpa using h

theorem Reading.followed_assoc (a b c : Reading) :
    (a.followed b).followed c = a.followed (b.followed c) := by
  funext pre word post bindings
  refine propext ⟨?_, ?_⟩
  · rintro ⟨_, w, _, bw, rfl, rfl, ⟨u, v, bu, bv, rfl, rfl, hu, hv⟩, hw⟩
    exact ⟨u, v ++ w, bu, bw ++ bv, by simp, by simp, by simpa using hu,
      v, w, bv, bw, rfl, rfl, hv, by simpa using hw⟩
  · rintro ⟨u, _, bu, _, rfl, rfl, hu, v, w, bv, bw, rfl, rfl, hv, hw⟩
    exact ⟨u ++ v, w, bv ++ bu, bw, by simp, by simp,
      ⟨u, v, bu, bv, rfl, rfl, by simpa using hu, hv⟩, by simpa using hw⟩

/-- Rounds and then further rounds are rounds. -/
theorem Reading.times_add (reading : Reading) (m n : Nat) :
    reading.times (m + n) = (reading.times m).followed (reading.times n) := by
  induction m with
  | zero => rw [Nat.zero_add, times, nothing_followed]
  | succ m ih => rw [Nat.succ_add, times, times, ih, followed_assoc]

/-- The expression reads `word` between two texts, and its groups have the ranges `bindings`. -/
def Reads : Regex → Reading
  | empty, pre, word, post, bindings => Reading.nothing pre word post bindings
  | set s, _, word, _, bindings => ∃ c, word = [c] ∧ s.mem c = true ∧ bindings = []
  | look l, pre, word, post, bindings =>
    word = [] ∧ bindings = [] ∧ l.holds (.between pre post) = true
  | cat a b, pre, word, post, bindings => a.Reads.followed b.Reads pre word post bindings
  | alt a b, pre, word, post, bindings =>
    a.Reads pre word post bindings ∨ b.Reads pre word post bindings
  | loop _ least most r, pre, word, post, bindings =>
    ∃ n, least ≤ n ∧ (∀ limit ∈ most, n ≤ max least limit) ∧
      r.Reads.times n pre word post bindings
  | group index _ r, pre, word, post, bindings =>
    ∃ inner, bindings = (index, ⟨byteSize pre, byteSize (pre ++ word)⟩) :: inner ∧
      r.Reads pre word post inner
  | checkpoint _, pre, word, post, bindings => Reading.nothing pre word post bindings

/-! ### Ways are readings -/

/-- The second way is the first one after a reading. -/
def Way.Goes (reading : Reading) (way way' : Way) : Prop :=
  ∀ pre post, way.1.At pre post → ∃ word rest bindings, post = word ++ rest ∧
    way'.2 = bindings ++ way.2 ∧ way'.1.At (pre ++ word) rest ∧ reading pre word rest bindings

namespace Way.Goes

variable {a b reading : Reading} {way middle way' : Way}

theorem stay (h : ∀ {pre post}, way.1.At pre post → way'.1.At pre post ∧ reading pre [] post [])
    (hbindings : way'.2 = way.2) : Goes reading way way' := fun _ _ hat =>
  ⟨[], _, [], rfl, hbindings, by simpa using (h hat).1, (h hat).2⟩

theorem followed (h : Goes a way middle) (h' : Goes b middle way') :
    Goes (a.followed b) way way' := fun _ _ hat => by
  obtain ⟨u, rest, bu, rfl, hbu, hat', ha⟩ := h _ _ hat
  obtain ⟨v, rest, bv, rfl, hbv, hat'', hb⟩ := h' _ _ hat'
  refine ⟨u ++ v, rest, bv ++ bu, (List.append_assoc ..).symm, ?_, ?_, u, v, bu, bv, rfl, rfl,
    ha, hb⟩
  · rw [hbv, hbu, List.append_assoc]
  · rwa [← List.append_assoc]

theorem mono (h : Goes a way way')
    (himp : ∀ {pre word post bindings}, a pre word post bindings → b pre word post bindings) :
    Goes b way way' := fun _ _ hat => by
  obtain ⟨word, rest, bindings, hpost, hbindings, hat', ha⟩ := h _ _ hat
  exact ⟨word, rest, bindings, hpost, hbindings, hat', himp ha⟩

end Way.Goes

section Rounds

variable {reading : Reading} {round : Way → List Way}
  (hround : ∀ {way way'}, way' ∈ round way → Way.Goes reading way way')

include hround

theorem goes_of_mem_waysExactly {n : Nat} {way way' : Way} (h : way' ∈ waysExactly round n way) :
    Way.Goes (reading.times n) way way' := by
  induction n generalizing way with
  | zero =>
    obtain rfl := List.mem_singleton.1 h
    exact .stay (fun hat => ⟨hat, rfl, rfl⟩) rfl
  | succ n ih =>
    obtain ⟨middle, hmiddle, h⟩ := List.mem_flatMap.1 h
    exact (hround hmiddle).followed (ih h)

theorem goes_of_mem_waysUpTo {greedy : Bool} {n : Nat} {way way' : Way}
    (h : way' ∈ waysUpTo greedy round n way) :
    ∃ k, k ≤ n ∧ Way.Goes (reading.times k) way way' := by
  induction n generalizing way with
  | zero =>
    obtain rfl := List.mem_singleton.1 h
    exact ⟨0, Nat.le_refl 0, .stay (fun hat => ⟨hat, rfl, rfl⟩) rfl⟩
  | succ n ih =>
    have h : way' = way ∨ way' ∈ (round way).flatMap (waysUpTo greedy round n) := by
      rw [waysUpTo] at h
      cases greedy <;> simp_all [or_comm]
    rcases h with rfl | h
    · exact ⟨0, Nat.zero_le _, .stay (fun hat => ⟨hat, rfl, rfl⟩) rfl⟩
    · obtain ⟨middle, hmiddle, h⟩ := List.mem_flatMap.1 h
      obtain ⟨k, hk, hgoes⟩ := ih h
      exact ⟨k + 1, by omega, (hround hmiddle).followed hgoes⟩

end Rounds

/-- Every way of matching is a reading. -/
theorem reads_of_mem_ways {bound : Nat} {r : Regex} {way way' : Way}
    (h : way' ∈ r.ways bound way) : Way.Goes r.Reads way way' := by
  induction r generalizing way way' with
  | empty =>
    obtain rfl := List.mem_singleton.1 h
    exact .stay (fun hat => ⟨hat, rfl, rfl⟩) rfl
  | set s =>
    intro pre post hat
    simp only [ways, hat.rest_eq] at h
    cases post with
    | nil => simp at h
    | cons c rest =>
      simp only at h
      split_ifs at h with hc
      · obtain rfl := List.mem_singleton.1 h
        exact ⟨[c], rest, [], rfl, rfl, hat.next, c, rfl, hc, rfl⟩
      · cases h
  | look l =>
    simp only [ways] at h
    split_ifs at h with hl
    · obtain rfl := List.mem_singleton.1 h
      exact .stay (fun hat => ⟨hat, rfl, rfl, (hat.holds_eq l).symm.trans hl⟩) rfl
    · cases h
  | cat a b iha ihb =>
    obtain ⟨middle, hmiddle, h⟩ := List.mem_flatMap.1 h
    exact (iha hmiddle).followed (ihb h)
  | alt a b iha ihb =>
    rcases List.mem_append.1 h with h | h
    · exact (iha h).mono Or.inl
    · exact (ihb h).mono Or.inr
  | loop greedy least most r ih =>
    obtain ⟨middle, hmiddle, h⟩ := List.mem_flatMap.1 h
    obtain ⟨k, hk, hgoes⟩ := goes_of_mem_waysUpTo ih h
    refine ((goes_of_mem_waysExactly ih hmiddle).followed hgoes).mono fun hreads =>
      ⟨least + k, Nat.le_add_right .., ?_, by rwa [Reading.times_add]⟩
    intro limit hlimit
    obtain rfl := Option.mem_def.1 hlimit
    simp only [Option.map_some, Option.getD_some] at hk
    omega
  | group index name r ih =>
    intro pre post hat
    obtain ⟨middle, hmiddle, rfl⟩ := List.mem_map.1 h
    obtain ⟨word, rest, bindings, rfl, hbindings, hat', hreads⟩ := ih hmiddle _ _ hat
    refine ⟨word, rest, (index, ⟨byteSize pre, byteSize (pre ++ word)⟩) :: bindings, rfl, ?_, hat',
      bindings, rfl, hreads⟩
    simp only [hbindings, hat.offset_eq, hat'.offset_eq, List.cons_append]
  | checkpoint mark =>
    simp only [ways] at h
    split_ifs at h
    · cases h
    · obtain rfl := List.mem_singleton.1 h
      exact .stay (fun hat => ⟨hat.pass mark, rfl, rfl⟩) rfl

/-- A match at a position reads a word there. -/
theorem reads_of_head?_ways {r : Regex} {bound : Nat} {cursor stop : Cursor} {bindings : Bindings}
    {pre post : List Char} (hat : cursor.At pre post)
    (h : (r.ways bound (cursor, [])).head? = some (stop, bindings)) :
    ∃ word rest, post = word ++ rest ∧ stop.At (pre ++ word) rest ∧
      r.Reads pre word rest bindings := by
  obtain ⟨word, rest, bindings', hpost, hbindings, hat', hreads⟩ :=
    reads_of_mem_ways (List.mem_of_mem_head? h) pre post hat
  obtain rfl : bindings = bindings' := by simpa using hbindings
  exact ⟨word, rest, hpost, hat', hreads⟩

theorem reads_of_searchFrom {r : Regex} {bound : Nat} {cursor stop : Cursor} {bindings : Bindings}
    {pre post : List Char} (hat : cursor.At pre post)
    (h : r.searchFrom bound cursor post = some (stop, bindings)) :
    ∃ skipped word rest, post = skipped ++ word ++ rest ∧ stop.At (pre ++ skipped ++ word) rest ∧
      r.Reads (pre ++ skipped) word rest bindings := by
  induction post generalizing cursor pre with
  | nil =>
    rw [searchFrom_nil] at h
    obtain ⟨word, rest, hpost, hreads⟩ := reads_of_head?_ways hat h
    exact ⟨[], word, rest, hpost, by simpa using hreads⟩
  | cons c post ih =>
    rw [searchFrom_cons] at h
    cases hhere : (r.ways bound (cursor, [])).head? with
    | some found =>
      rw [hhere] at h
      cases h
      obtain ⟨word, rest, hpost, hreads⟩ := reads_of_head?_ways hat hhere
      exact ⟨[], word, rest, hpost, by simpa using hreads⟩
    | none =>
      rw [hhere, Option.none_or] at h
      split_ifs at h
      obtain ⟨skipped, word, rest, rfl, hreads⟩ := ih hat.next h
      exact ⟨c :: skipped, word, rest, rfl, by simpa using hreads⟩

/-- A match in a text reads a word of it. -/
theorem reads_of_search {r : Regex} {text : List Char} {stop : Cursor} {bindings : Bindings}
    (h : r.search text = some (stop, bindings)) :
    ∃ skipped word rest, text = skipped ++ word ++ rest ∧ stop.At (skipped ++ word) rest ∧
      r.Reads skipped word rest bindings :=
  reads_of_searchFrom (Cursor.at_ofText text) h

/-! ### Groups -/

/-- A range covers a piece of a word. -/
def IsPiece (pre word : List Char) (range : Text.ByteRange) : Prop :=
  ∃ u v x, word = u ++ v ++ x ∧ range = ⟨byteSize (pre ++ u), byteSize (pre ++ u ++ v)⟩

/-- All ranges that a reading gives to groups cover pieces of its word. -/
def Reading.Located (reading : Reading) : Prop :=
  ∀ pre word post bindings, reading pre word post bindings →
    ∀ entry ∈ bindings, IsPiece pre word entry.2

theorem IsPiece.left {pre u : List Char} {range : Text.ByteRange} (h : IsPiece pre u range)
    (v : List Char) : IsPiece pre (u ++ v) range := by
  obtain ⟨a, b, c, rfl, hrange⟩ := h
  exact ⟨a, b, c ++ v, by simp, hrange⟩

theorem IsPiece.right {pre v : List Char} {range : Text.ByteRange} (u : List Char)
    (h : IsPiece (pre ++ u) v range) : IsPiece pre (u ++ v) range := by
  obtain ⟨a, b, c, rfl, hrange⟩ := h
  exact ⟨u ++ a, b, c, by simp, by simpa using hrange⟩

theorem Reading.Located.followed {a b : Reading} (ha : a.Located) (hb : b.Located) :
    (a.followed b).Located := by
  rintro pre word post bindings ⟨u, v, bu, bv, rfl, rfl, hu, hv⟩ entry hentry
  rcases List.mem_append.1 hentry with hentry | hentry
  · exact .right u (hb _ _ _ _ hv entry hentry)
  · exact .left (ha _ _ _ _ hu entry hentry) v

theorem Reading.Located.times {reading : Reading} (h : reading.Located) :
    (n : Nat) → (reading.times n).Located
  | 0 => fun _ _ _ _ ⟨_, hbindings⟩ _ hentry => by simp [hbindings] at hentry
  | n + 1 => h.followed (h.times n)

/-- The ranges of groups cover pieces of the word. -/
theorem located_reads (r : Regex) : r.Reads.Located := by
  induction r with
  | empty =>
    rintro _ _ _ _ ⟨-, rfl⟩ _ hentry
    cases hentry
  | set s =>
    rintro _ _ _ _ ⟨_, -, -, rfl⟩ _ hentry
    cases hentry
  | look l =>
    rintro _ _ _ _ ⟨-, rfl, -⟩ _ hentry
    cases hentry
  | cat a b iha ihb => exact iha.followed ihb
  | alt a b iha ihb =>
    rintro pre word post bindings (h | h)
    · exact iha _ _ _ _ h
    · exact ihb _ _ _ _ h
  | loop greedy least most r ih =>
    rintro pre word post bindings ⟨n, -, -, h⟩
    exact ih.times n _ _ _ _ h
  | group index name r ih =>
    rintro pre word post bindings ⟨inner, rfl, h⟩ entry hentry
    rcases List.mem_cons.1 hentry with rfl | hentry
    · exact ⟨[], word, [], by simp, by simp⟩
    · exact ih _ _ _ _ h entry hentry
  | checkpoint mark =>
    rintro _ _ _ _ ⟨-, rfl⟩ _ hentry
    cases hentry

/-! ### Lengths -/

theorem Reading.length_times {reading : Reading} {k : Nat}
    (h : ∀ {pre word post bindings}, reading pre word post bindings → k ≤ word.length) {n : Nat}
    {pre word post : List Char} {bindings : Bindings}
    (hreads : reading.times n pre word post bindings) : n * k ≤ word.length := by
  induction n generalizing pre word bindings with
  | zero => simp
  | succ n ih =>
    obtain ⟨u, v, bu, bv, rfl, rfl, hu, hv⟩ := hreads
    have := h hu
    have := ih hv
    rw [Nat.succ_mul, List.length_append]
    omega

/-- A word is at least as long as the expression says. -/
theorem leastLength?_le {r : Regex} {k : Nat} (hk : r.leastLength? = some k)
    {pre word post : List Char} {bindings : Bindings} (h : r.Reads pre word post bindings) :
    k ≤ word.length := by
  induction r generalizing k pre word post bindings with
  | empty =>
    obtain rfl := Option.some.inj hk
    exact Nat.zero_le _
  | set s =>
    obtain ⟨c, rfl, -, -⟩ := h
    simp only [leastLength?] at hk
    split_ifs at hk
    exact Nat.le_of_eq (Option.some.inj hk).symm
  | look l =>
    obtain rfl := Option.some.inj hk
    exact Nat.zero_le _
  | cat a b iha ihb =>
    obtain ⟨u, v, bu, bv, rfl, rfl, hu, hv⟩ := h
    simp only [leastLength?, bind, Option.bind_eq_some_iff, pure, Option.some.injEq] at hk
    obtain ⟨i, hi, j, hj, rfl⟩ := hk
    rw [List.length_append]
    exact Nat.add_le_add (iha hi hu) (ihb hj hv)
  | alt a b iha ihb =>
    simp only [leastLength?, bind, Option.bind_eq_some_iff, pure, Option.some.injEq] at hk
    obtain ⟨i, hi, j, hj, rfl⟩ := hk
    rcases h with h | h
    · exact Nat.le_trans (Nat.min_le_left ..) (iha hi h)
    · exact Nat.le_trans (Nat.min_le_right ..) (ihb hj h)
  | loop greedy least most r ih =>
    obtain ⟨n, hn, -, h⟩ := h
    simp only [leastLength?, bind, Option.bind_eq_some_iff, pure, Option.some.injEq] at hk
    obtain ⟨i, hi, rfl⟩ := hk
    exact Nat.le_trans (Nat.mul_le_mul_right i hn) (Reading.length_times (ih hi) h)
  | group index name r ih =>
    obtain ⟨inner, rfl, h⟩ := h
    exact ih hk h
  | checkpoint mark =>
    obtain rfl := Option.some.inj hk
    exact Nat.zero_le _

/-- A word of an expression that is known to use up characters is not empty. -/
theorem length_pos_of_isNonempty {r : Regex} (hr : r.isNonempty = true)
    {pre word post : List Char} {bindings : Bindings} (h : r.Reads pre word post bindings) :
    0 < word.length := by
  cases hk : r.leastLength? with
  | none => simp [isNonempty, hk] at hr
  | some k =>
    have hpos : 0 < k := by simpa [isNonempty, hk] using hr
    exact Nat.lt_of_lt_of_le hpos (leastLength?_le hk h)

/-! ### Readings are ways -/

/-- Among the ways there is one for a reading. -/
def Finds (found : Way → List Way) (reading : Reading) (bound : Nat) : Prop :=
  ∀ pre word post bindings way, reading pre word post bindings → way.1.At pre (word ++ post) →
    (word ++ post).length ≤ bound →
    ∃ way' ∈ found way, way'.1.At (pre ++ word) post ∧ way'.2 = bindings ++ way.2

theorem Finds.stay {found : Way → List Way} {reading : Reading} {bound : Nat}
    (h : ∀ {pre word post bindings way}, reading pre word post bindings →
      way.1.At pre (word ++ post) → word = [] ∧ bindings = [] ∧ way ∈ found way) :
    Finds found reading bound := by
  intro pre word post bindings way hreads hat _
  obtain ⟨rfl, rfl, hmem⟩ := h hreads hat
  exact ⟨way, hmem, by simpa using hat, rfl⟩

theorem Finds.followed {f g : Way → List Way} {a b : Reading} {bound : Nat}
    (hf : Finds f a bound) (hg : Finds g b bound) :
    Finds (fun way => (f way).flatMap g) (a.followed b) bound := by
  rintro pre word post bindings way ⟨u, v, bu, bv, rfl, rfl, hu, hv⟩ hat hbound
  obtain ⟨middle, hmiddle, hat', hbu⟩ :=
    hf _ _ _ _ _ hu (by simpa using hat) (by simpa using hbound)
  obtain ⟨way', hway', hat'', hbv⟩ := hg _ _ _ _ _ hv hat' (by
    simp only [List.length_append] at hbound ⊢
    omega)
  refine ⟨way', List.mem_flatMap.2 ⟨middle, hmiddle, hway'⟩, by simpa using hat'', ?_⟩
  rw [hbv, hbu, List.append_assoc]

theorem Finds.waysExactly {round : Way → List Way} {reading : Reading} {bound : Nat}
    (h : Finds round reading bound) :
    (n : Nat) → Finds (waysExactly round n) (reading.times n) bound
  | 0 => .stay fun hreads _ => ⟨hreads.1, hreads.2, List.mem_singleton_self _⟩
  | n + 1 => h.followed (h.waysExactly n)

theorem Finds.waysUpTo {round : Way → List Way} {reading : Reading} {bound : Nat}
    (h : Finds round reading bound) (greedy : Bool) {k n : Nat} (hk : k ≤ n) :
    Finds (waysUpTo greedy round n) (reading.times k) bound := by
  induction n generalizing k with
  | zero =>
    obtain rfl := Nat.le_zero.1 hk
    exact .stay fun hreads _ => ⟨hreads.1, hreads.2, List.mem_singleton_self _⟩
  | succ n ih =>
    cases k with
    | zero =>
      refine .stay fun hreads _ => ⟨hreads.1, hreads.2, ?_⟩
      cases greedy <;> simp [Regex.waysUpTo]
    | succ k =>
      intro pre word post bindings way hreads hat hbound
      obtain ⟨way', hway', hrest⟩ :=
        h.followed (ih (Nat.le_of_succ_le_succ hk)) _ _ _ _ _ hreads hat hbound
      refine ⟨way', ?_, hrest⟩
      rw [Regex.waysUpTo]
      cases greedy with
      | true => exact List.mem_append_left _ hway'
      | false => exact List.mem_cons_of_mem _ hway'

/-- An expression in which every endless repetition uses up characters matches whatever it reads. -/
theorem exists_mem_ways {r : Regex} (hplain : r.isPlain = true) (bound : Nat) :
    Finds (r.ways bound) r.Reads bound := by
  induction r with
  | empty => exact .stay fun h _ => ⟨h.1, h.2, List.mem_singleton_self _⟩
  | set s =>
    rintro pre word post bindings way ⟨c, rfl, hc, rfl⟩ hat -
    refine ⟨(way.1.next c post, way.2), ?_, ?_, rfl⟩
    · simp [ways, hat.rest_eq, hc]
    · exact hat.next
  | look l =>
    refine .stay fun h hat => ⟨h.1, h.2.1, ?_⟩
    obtain ⟨rfl, -, hl⟩ := h
    simp only [List.nil_append] at hat
    simp [ways, hat.holds_eq, hl]
  | cat a b iha ihb =>
    simp only [isPlain, Bool.and_eq_true] at hplain
    exact (iha hplain.1).followed (ihb hplain.2)
  | alt a b iha ihb =>
    simp only [isPlain, Bool.and_eq_true] at hplain
    rintro pre word post bindings way (h | h) hat hbound
    · obtain ⟨way', hway', hrest⟩ := iha hplain.1 _ _ _ _ _ h hat hbound
      exact ⟨way', List.mem_append_left _ hway', hrest⟩
    · obtain ⟨way', hway', hrest⟩ := ihb hplain.2 _ _ _ _ _ h hat hbound
      exact ⟨way', List.mem_append_right _ hway', hrest⟩
  | loop greedy least most r ih =>
    simp only [isPlain, Bool.and_eq_true, Bool.or_eq_true] at hplain
    rintro pre word post bindings way ⟨n, hn, hlimit, h⟩ hat hbound
    -- A repetition without a limit is tried `bound` times, and each round uses up a character.
    have hmore : n - least ≤ (most.map (· - least)).getD bound := by
      cases most with
      | some limit =>
        have := hlimit limit rfl
        simp only [Option.map_some, Option.getD_some]
        omega
      | none =>
        have hpos : r.isNonempty = true := by simpa using hplain.1
        have := Reading.length_times (k := 1) (length_pos_of_isNonempty hpos) h
        simp only [Option.map_none, Option.getD_none, List.length_append] at hbound ⊢
        omega
    have hrounds := ih hplain.2
    obtain ⟨m, rfl⟩ := Nat.exists_eq_add_of_le hn
    rw [Nat.add_sub_cancel_left] at hmore
    rw [Reading.times_add] at h
    exact (hrounds.waysExactly least).followed (hrounds.waysUpTo greedy hmore)
      _ _ _ _ _ h hat hbound
  | group index name r ih =>
    rintro pre word post bindings way ⟨inner, rfl, h⟩ hat hbound
    obtain ⟨way', hway', hat', hbindings⟩ := ih hplain _ _ _ _ _ h hat hbound
    refine ⟨_, List.mem_map.2 ⟨way', hway', rfl⟩, hat', ?_⟩
    simp only [hbindings, hat.offset_eq, hat'.offset_eq, List.cons_append]
  | checkpoint mark => cases hplain

end Regex

end RuledMarkup
