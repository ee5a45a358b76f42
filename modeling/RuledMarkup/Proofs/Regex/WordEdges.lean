import RuledMarkup.Proofs.Regex.Preferred
import RuledMarkup.Proofs.Text.WordClasses

/-!
# Where words end

A word may go on behind what an expression reads, or it may not: because a character that is in no
word has been read last, because the expression asks for the edge of a word, or because a greedy run
of word characters has come to its end.  All of this shows in the expression.

## Main definitions

* `Text.CutsWord` : a word goes on from one text to the next.
* `Regex.endsOutsideWords` : no word goes on behind what an expression reads.
* `Regex.opensOutsideWords` : what an expression sees begins with no word.
* `Regex.runsOut` : the first way of an expression ends with a greedy run of characters.

## Main results

* `Regex.not_cutsWord_of_reads`, `Regex.not_cutsWord_of_opens`, `Regex.head?_of_runsOut` : what they
  say about readings and ways.
-/

namespace RuledMarkup

/-- A word goes on from the first text to the second one. -/
def Text.CutsWord (before after : List Char) : Prop :=
  before.getLast?.any isWord = true ∧ after.head?.any isWord = true

namespace Regex

open Text (CutsWord)

variable {bound : Nat} {r : Regex} {parts : List Regex} {s : CharSet} {way stop : Way}
  {pre word post : List Char} {bindings : Bindings}

/-! ### Parts as one expression -/

/-- Parts one after the other. -/
def joined (parts : List Regex) : Regex := parts.foldr cat empty

theorem reads_joined (parts : List Regex) : (joined parts).Reads = ReadsEach parts := by
  induction parts with
  | nil => rfl
  | cons r parts ih =>
    rw [ReadsEach, ← ih]
    rfl

/-! ### Behind what is read -/

/-- Is it plain that no word goes on behind what the expression reads? -/
def endsOutsideWords : Regex → Bool
  | set s => s.isOutsideWords
  | look l => l = .wordEdge || l = .finish
  | cat a b => b.endsOutsideWords || b.eachSet (·.isOutsideWords) && a.endsOutsideWords
  | alt a b => a.endsOutsideWords && b.endsOutsideWords
  | loop _ least _ r => 0 < least && r.endsOutsideWords
  | group _ _ r => r.endsOutsideWords
  | empty | checkpoint _ => false

/-- A text whose last character is in no word. -/
theorem not_cutsWord_concat {c : Char} (hc : Text.isWord c = false) (before after : List Char) :
    ¬ CutsWord (before ++ [c]) after := by
  rintro ⟨hlast, -⟩
  simp [hc] at hlast

theorem not_cutsWord_of_times
    (hr : ∀ {pre word post bindings},
      r.Reads pre word post bindings → ¬ CutsWord (pre ++ word) post) {n : Nat}
    (h : r.Reads.times (n + 1) pre word post bindings) : ¬ CutsWord (pre ++ word) post := by
  induction n generalizing pre word bindings with
  | zero =>
    rw [Reading.times, Reading.times, Reading.followed_nothing] at h
    exact hr h
  | succ n ih =>
    obtain ⟨u, v, _, _, rfl, -, -, hv⟩ := h
    rw [← List.append_assoc]
    exact ih hv

/-- At an edge of a word there is a word on one side only. -/
theorem holds_wordEdge (before after : List Char) :
    Look.wordEdge.holds (.between before after) =
      (before.getLast?.any Text.isWord != after.head?.any Text.isWord) := by
  simp [Look.holds, WordLook.holds, Cursor.afterWord, Cursor.beforeWord, Cursor.between]

/-- No word goes on behind what the expression reads. -/
theorem not_cutsWord_of_reads (hr : r.endsOutsideWords = true)
    (h : r.Reads pre word post bindings) : ¬ CutsWord (pre ++ word) post := by
  induction r generalizing pre word post bindings with
  | set s =>
    obtain ⟨c, rfl, hc, -⟩ := h
    exact not_cutsWord_concat (s.isWord_eq_false hr hc) pre post
  | look l =>
    obtain ⟨rfl, -, hl⟩ := h
    rw [List.append_nil]
    rintro ⟨hbefore, hafter⟩
    simp only [endsOutsideWords, Bool.or_eq_true, decide_eq_true_eq] at hr
    rcases hr with rfl | rfl
    · rw [holds_wordEdge, hbefore, hafter] at hl
      cases hl
    · obtain rfl : post = [] := by simpa [Look.holds, Cursor.between] using hl
      cases hafter
  | cat a b iha ihb =>
    obtain ⟨u, v, _, _, rfl, -, hu, hv⟩ := h
    rcases Bool.or_eq_true_iff.1 hr with hb | hr
    · rw [← List.append_assoc]
      exact ihb hb hv
    · obtain ⟨hb, ha⟩ := Bool.and_eq_true_iff.1 hr
      have hout := forall_mem_of_eachSet (p := (Text.isWord · = false))
        (fun hs _ => CharSet.isWord_eq_false hs) hb hv
      -- The last character is read by the second part, or that part reads nothing.
      rcases List.eq_nil_or_concat v with rfl | ⟨w, c, rfl⟩
      · simpa using iha ha hu
      · rw [List.concat_eq_append, ← List.append_assoc, ← List.append_assoc]
        exact not_cutsWord_concat (hout c (by simp)) _ post
  | alt a b iha ihb =>
    obtain ⟨ha, hb⟩ := Bool.and_eq_true_iff.1 hr
    exact h.elim (iha ha) (ihb hb)
  | loop greedy least most r ih =>
    obtain ⟨hleast, hr⟩ := Bool.and_eq_true_iff.1 hr
    obtain ⟨n, hn, -, h⟩ := h
    obtain ⟨n, rfl⟩ := Nat.exists_eq_add_one.2 (Nat.lt_of_lt_of_le (of_decide_eq_true hleast) hn)
    exact not_cutsWord_of_times (ih hr) h
  | group index name r ih =>
    obtain ⟨inner, -, h⟩ := h
    exact ih hr h
  | empty | checkpoint => cases hr

/-! ### Before what is read -/

/-- Is it plain that the text that the expression sees begins with no word? -/
def opensOutsideWords : Regex → Bool
  | set s => s.isOutsideWords
  | look l => l = .finish
  | cat a _ => a.opensOutsideWords
  | alt a b => a.opensOutsideWords && b.opensOutsideWords
  | loop _ least _ r => 0 < least && r.opensOutsideWords
  | group _ _ r => r.opensOutsideWords
  | empty | checkpoint _ => false

/-- No word goes on in what the expression sees. -/
theorem not_cutsWord_of_opens (hr : r.opensOutsideWords = true)
    (h : r.Reads pre word post bindings) (before : List Char) :
    ¬ CutsWord before (word ++ post) := by
  rintro ⟨-, hhead⟩
  induction r generalizing pre word post bindings with
  | set s =>
    obtain ⟨c, rfl, hc, -⟩ := h
    simp [s.isWord_eq_false hr hc] at hhead
  | look l =>
    obtain rfl : l = .finish := of_decide_eq_true hr
    obtain ⟨rfl, -, hl⟩ := h
    obtain rfl : post = [] := by simpa [Look.holds, Cursor.between] using hl
    cases hhead
  | cat a b iha _ =>
    obtain ⟨u, v, _, _, rfl, -, hu, -⟩ := h
    rw [List.append_assoc] at hhead
    exact iha hr hu hhead
  | alt a b iha ihb =>
    obtain ⟨ha, hb⟩ := Bool.and_eq_true_iff.1 hr
    exact h.elim (iha ha · hhead) (ihb hb · hhead)
  | loop greedy least most r ih =>
    obtain ⟨hleast, hr⟩ := Bool.and_eq_true_iff.1 hr
    obtain ⟨n, hn, -, h⟩ := h
    obtain ⟨n, rfl⟩ := Nat.exists_eq_add_one.2 (Nat.lt_of_lt_of_le (of_decide_eq_true hleast) hn)
    obtain ⟨u, v, _, _, rfl, -, hu, -⟩ := h
    rw [List.append_assoc] at hhead
    exact ih hr hu hhead
  | group index name r ih =>
    obtain ⟨inner, -, h⟩ := h
    exact ih hr h hhead
  | empty | checkpoint => cases hr

/-! ### Greedy runs -/

/-- Is it plain that the first way ends with a greedy run of characters of the set? -/
def runsOut (s : CharSet) : Regex → Bool
  | cat _ b => b.runsOut s
  | alt a b => a.runsOut s && b.runsOut s
  | loop greedy _ most r => greedy && most = none && r = set s
  | group _ _ r => r.runsOut s
  | empty | set _ | look _ | checkpoint _ => false

theorem exists_of_head?_flatMap {α β : Type} {l : List α} {f : α → List β} {b : β}
    (h : (l.flatMap f).head? = some b) : ∃ a ∈ l, (f a).head? = some b :=
  List.exists_of_findSome?_eq_some (List.head?_flatMap.symm.trans h)

/-- Behind a greedy run there is no further character of its set. -/
theorem head?_of_waysUpTo (hat : way.1.At pre post) (hbound : post.length ≤ bound)
    (h : (waysUpTo true ((set s).ways bound) bound way).head? = some stop) :
    ∀ c ∈ stop.1.rest.head?, s.mem c = false := by
  rw [← List.takeWhile_append_dropWhile (p := s.mem) (l := post)] at hat
  have hword : ∀ c ∈ post.takeWhile s.mem, s.mem c = true := List.all_eq_true.1 List.all_takeWhile
  have hpost : ∀ c ∈ (post.dropWhile s.mem).head?, s.mem c = false := by
    intro c hc
    simpa [Option.mem_def.1 hc] using List.head?_dropWhile_not s.mem post
  have hlength : (post.takeWhile s.mem).length ≤ bound :=
    (List.takeWhile_prefix s.mem).length_le.trans hbound
  obtain ⟨furthest, hfurthest, hhead⟩ := exists_head?_waysUpTo bound way hlength hword hpost hat
  obtain rfl := Option.some.inj (h.symm.trans hhead)
  rwa [hfurthest.rest_eq]

/-- The first way ends where the run has come to its end. -/
theorem head?_of_runsOut (hr : r.runsOut s = true) (hat : way.1.At pre post)
    (hbound : post.length ≤ bound) (h : (r.ways bound way).head? = some stop) :
    ∀ c ∈ stop.1.rest.head?, s.mem c = false := by
  induction r generalizing way stop pre post with
  | cat a b _ ihb =>
    obtain ⟨middle, hmiddle, h⟩ := exists_of_head?_flatMap h
    obtain ⟨word, rest, -, rfl, -, hat', -⟩ := reads_of_mem_ways hmiddle pre post hat
    rw [List.length_append] at hbound
    exact ihb hr hat' (by omega) h
  | alt a b iha ihb =>
    obtain ⟨ha, hb⟩ := Bool.and_eq_true_iff.1 hr
    rw [ways, List.head?_append, Option.or_eq_some_iff] at h
    rcases h with h | ⟨-, h⟩
    · exact iha ha hat hbound h
    · exact ihb hb hat hbound h
  | loop greedy least most r _ =>
    simp only [runsOut, Bool.and_eq_true, decide_eq_true_eq] at hr
    obtain ⟨⟨rfl, rfl⟩, rfl⟩ := hr
    obtain ⟨middle, hmiddle, h⟩ := exists_of_head?_flatMap h
    obtain ⟨word, rest, -, rfl, -, hat', -⟩ :=
      goes_of_mem_waysExactly (reads_of_mem_ways (r := set s)) hmiddle pre post hat
    rw [List.length_append] at hbound
    exact head?_of_waysUpTo hat' (by omega) h
  | group index name r ih =>
    rw [ways, List.head?_map] at h
    obtain ⟨way', hway', rfl⟩ := Option.map_eq_some_iff.1 h
    exact (ih hr hat hbound hway' :)
  | empty | set | look | checkpoint => cases hr

end Regex

end RuledMarkup
