import Mathlib.Data.List.Chain
import RuledMarkup.Inline.Rules
import RuledMarkup.Proofs.Pattern.Shortest

/-!
# Matches of inline markup

Where the patterns of inline markup match, and what their matches are: text up to a mark, and text
between two marks that do not stand between them.

## Main definitions

* `Inline.doubled`, `Inline.plain`, `Inline.slanted` : the patterns, part by part.
* `Inline.Doubles` : a pattern is one of text between double marks.
* `Inline.Apart` : no two marks stand side by side.
* `Inline.Paired` : asterisks come in pairs.
* `Inline.Rounds` : a text is read in rounds of text in italics.

## Main results

* `Inline.exists_frames_doubled` : bold, underlined and struck text.
* `Inline.exists_frames_slanted` : text in italics.
* `Inline.exists_consumed_plain` : plain text.
-/

namespace RuledMarkup.Inline

open Text (byteSize)
open Regex (ReadsEach)

/-! ### The patterns as sequences -/

/-- Any character. -/
def anything : CharSet := .union .space (.compl .space)

/-- The lookahead group of a mark: no further mark follows. -/
def noFurther (index : Nat) (mark : Char) : Regex :=
  .group index (some "ahead") (.alt (.set (.compl (.one mark))) (.look .finish))

/-- Two marks, a body, two marks, and what stands after them. -/
def doubled (mark : Char) (body : Regex) (finish : List Regex) : List Regex :=
  [.look .start, .set (.one mark), .set (.one mark)] ++
    .group 1 none body :: .set (.one mark) :: .set (.one mark) :: finish

/-- Any text that is not empty. -/
def untrimmed : Regex := .loop false 1 none (.set anything)

/-- Something that neither begins nor ends with white space. -/
def trimmed : Regex :=
  .cat (.set (.compl .space))
    (.loop false 0 (some 1)
      (.cat (.loop false 0 none (.set anything)) (.set (.compl .space))))

/-- The pattern is one of text between double marks.  Either it says that no further mark follows,
or it says nothing about what follows. -/
structure Doubles (pattern : Pattern) (mark : Char) (body : Regex) : Prop where
  isAnchored : pattern.regex.isAnchored = true
  isLazy : body.isLazy = true
  isPlain : body.isPlain = true
  items_eq : pattern.regex.items = doubled mark body [] ∧ pattern.ahead? = none ∨
    pattern.regex.items = doubled mark body [noFurther 2 mark] ∧ pattern.ahead? = some 2

instance (pattern : Pattern) (mark : Char) (body : Regex) : Decidable (Doubles pattern mark body) :=
  decidable_of_iff (pattern.regex.isAnchored = true ∧ body.isLazy = true ∧ body.isPlain = true ∧
      (pattern.regex.items = doubled mark body [] ∧ pattern.ahead? = none ∨
        pattern.regex.items = doubled mark body [noFurther 2 mark] ∧ pattern.ahead? = some 2))
    ⟨fun ⟨a, b, c, d⟩ => ⟨a, b, c, d⟩, fun ⟨a, b, c, d⟩ => ⟨a, b, c, d⟩⟩

/-- Letters, digits, white space and the characters from the first accented capital letter on. -/
def ordinary : CharSet :=
  .union (.union (.union (.union (.range '0' '9') (.range 'A' 'Z')) (.range 'a' 'z')) .space)
    (.range 'À' (.ofNat 0x10FFFF))

/-- What plain text ends before. -/
def textEnd : Regex :=
  .alt (.set (.compl ordinary))
    (.alt (.set (.one '\n'))
      (.alt (.cat (.loop true 2 none (.set (.one ' '))) (.set (.one '\n')))
        (.alt
          (.cat (.loop true 1 none (.set .word))
            (.cat (.set (.one ':')) (.set (.compl .space))))
          (.look .finish))))

/-- Something before the end of plain text. -/
def plain : List Regex := [.look .start] ++ untrimmed :: [.group 1 (some "ahead") textEnd]

/-- Two asterisks. -/
def twoStars : Regex := .cat (.set (.one '*')) (.set (.one '*'))

/-- A character that is neither white space nor an asterisk. -/
def letterLike : Regex := .set (.compl (.union .space (.one '*')))

/-- A round of text in italics: two asterisks, white space and what follows it, or a character. -/
def slantedRound : Regex :=
  .alt twoStars
    (.alt
      (.cat (.loop true 1 none (.set .space))
        (.alt (.set (.compl (.union (.one '*') .space))) twoStars))
      letterLike)

/-- What stands between the asterisks of text in italics. -/
def slantedBody : Regex := .cat (.alt twoStars letterLike) (.loop false 0 none slantedRound)

/-- Text in italics between single asterisks. -/
def slanted : Regex :=
  .cat (.set (.one '*'))
    (.cat (.group 2 none slantedBody) (.cat (.set (.one '*')) (noFurther 3 '*')))

/-- Text in italics between single underscores. -/
def underscored : Regex :=
  .cat (.look .wordEdge)
    (.cat (.set (.one '_'))
      (.cat
        (.group 1 none
          (.loop false 1 none
            (.alt (.cat (.set (.one '_')) (.set (.one '_')))
              (.alt (.cat (.set (.one '\\')) (.set anything))
                (.set (.compl (.union (.one '\\') (.one '_'))))))))
        (.cat (.set (.one '_')) (.look .wordEdge))))

/-- What the written patterns are. -/
structure PatternForms : Prop where
  bold_doubles : Doubles bold '*' untrimmed
  underline_doubles : Doubles underline '_' untrimmed
  strikethrough_doubles : Doubles strikethrough '~' trimmed
  text_isAnchored : text.regex.isAnchored = true
  text_items : text.regex.items = plain
  text_ahead? : text.ahead? = some 1
  italics_regex : italics.regex = .cat (.look .start) (.alt underscored slanted)
  italics_ahead? : italics.ahead? = some 3
  escape_opens : escape.opensWithin ['\\'] = true
  newline_opens : newline.opensWithin ['\n'] = true
  bold_opens : bold.opensWithin ['*'] = true
  underline_opens : underline.opensWithin ['_'] = true
  italics_opens : italics.opensWithin ['_', '*'] = true
  strikethrough_opens : strikethrough.opensWithin ['~'] = true

theorem patternForms : PatternForms := by constructor <;> decide +kernel

/-! ### Text between double marks -/

variable {mark : Char} {pre word rest inner : List Char} {bindings : Bindings} {window : String}

/-- No two marks stand side by side. -/
def Apart (mark : Char) (text : List Char) : Prop := text.IsChain fun a b => a = mark → b ≠ mark

namespace Apart

variable {a b : List Char}

theorem of_not_mem (h : mark ∉ a) : Apart mark a := by
  refine List.isChain_iff_forall_rel_of_append_cons_cons.2 ?_
  rintro _ _ before after rfl rfl -
  exact h (by simp)

/-- Two texts, unless the first one ends with the mark and the second one begins with it. -/
theorem append (ha : Apart mark a) (hb : Apart mark b) (h : mark ∉ a.getLast? ∨ mark ∉ b.head?) :
    Apart mark (a ++ b) := by
  refine List.isChain_append.2 ⟨ha, hb, ?_⟩
  rintro _ hlast _ hhead rfl rfl
  exact h.elim (· hlast) (· hhead)

end Apart

/-- Where two marks stand side by side for the first time. -/
theorem eq_of_apart (hapart : Apart mark inner) (hlast : mark ∉ inner.getLast?) {w t : List Char}
    (h : inner ++ mark :: mark :: rest = w ++ mark :: mark :: t) (hle : w.length ≤ inner.length) :
    w = inner := by
  obtain ⟨a, rfl⟩ : w <+: inner := List.prefix_of_prefix_length_le ⟨_, h.symm⟩ ⟨_, rfl⟩ hle
  rw [List.append_assoc] at h
  match a, List.append_cancel_left h with
  | [], _ => rw [List.append_nil]
  | [c], hc =>
    obtain ⟨rfl, -⟩ := List.cons.inj hc
    exact (hlast (by simp)).elim
  | c :: d :: a, hc =>
    -- The two marks would stand within the text.
    obtain ⟨rfl, hd⟩ := List.cons.inj hc
    obtain ⟨rfl, -⟩ := List.cons.inj hd
    exact ((List.isChain_cons_cons.1 (List.isChain_append.1 hapart).2.1).1 rfl rfl).elim

theorem mem_compl_one {c : Char} : (CharSet.compl (.one mark)).mem c = true ↔ c ≠ mark := by
  simp [CharSet.mem]

/-- If no further mark follows, then the lookahead group reads something. -/
theorem exists_readsEach_noFurther (index : Nat) (hrest : mark ∉ rest.head?) (pre : List Char) :
    ∃ x rest', rest = x ++ rest' ∧ ReadsEach [noFurther index mark] pre x rest'
      [(index, ⟨byteSize pre, byteSize (pre ++ x)⟩)] := by
  refine Regex.exists_readsEach_ahead index _ (fun c hc => mem_compl_one.2 ?_) pre
  rintro rfl
  exact hrest hc

/-- Where the lookahead group reads something, no further mark follows. -/
theorem of_readsEach_noFurther {index : Nat}
    (h : ReadsEach [noFurther index mark] pre word rest bindings) :
    mark ∉ (word ++ rest).head? ∧
      bindings = [(index, ⟨byteSize pre, byteSize (pre ++ word)⟩)] := by
  obtain ⟨hnext, hbindings⟩ := Regex.of_readsEach_ahead h
  exact ⟨fun hmark => mem_compl_one.1 (hnext mark hmark) rfl, hbindings⟩

/-- What a pattern says about what stands after the last two marks.  It reads something if no
further mark follows, it gives the first group no range, and a match is cut where it begins. -/
structure Closes (pattern : Pattern) (mark : Char) (finish : List Regex) : Prop where
  isPlain : finish.all Regex.isPlain = true
  exists_reads : ∀ {rest}, mark ∉ rest.head? → ∀ pre, ∃ x rest' bindings, rest = x ++ rest' ∧
    ReadsEach finish pre x rest' bindings
  lookup_eq : ∀ {pre word post bindings}, ReadsEach finish pre word post bindings →
    bindings.lookup 1 = none
  size_eq : ∀ {pre word post bindings stop} window others,
    ReadsEach finish pre word post bindings → stop.At (pre ++ word) post →
      (pattern.captures window stop (bindings ++ others)).size = byteSize pre

theorem Doubles.exists_closes {pattern : Pattern} {body : Regex}
    (hpattern : Doubles pattern mark body) :
    ∃ finish, pattern.regex.items = doubled mark body finish ∧ Closes pattern mark finish := by
  rcases hpattern.items_eq with ⟨hitems, hahead⟩ | ⟨hitems, hahead⟩
  · refine ⟨_, hitems, rfl, fun _ _ => ⟨[], _, [], rfl, rfl, rfl⟩, ?_, ?_⟩
    · rintro _ _ _ _ ⟨-, rfl⟩
      rfl
    · rintro pre _ _ _ stop window others ⟨rfl, rfl⟩ hstop
      rw [Pattern.size_of_ahead?_eq_none hahead, hstop.offset_eq, List.append_nil]
  · refine ⟨_, hitems, rfl, fun hrest pre => ?_, ?_, ?_⟩
    · obtain ⟨x, rest', hsplit, hx⟩ := exists_readsEach_noFurther 2 hrest pre
      exact ⟨x, rest', _, hsplit, hx⟩
    · intro _ _ _ _ hreads
      rw [(of_readsEach_noFurther hreads).2]
      rfl
    · intro pre word post bindings stop window others hreads _
      rw [(of_readsEach_noFurther hreads).2]
      exact Pattern.size_of_lookup hahead rfl

/-- Two marks, a text in which no two marks stand side by side, and two marks after which no third
one follows. -/
theorem exists_frames_doubled {pattern : Pattern} {body : Regex}
    (hpattern : Doubles pattern mark body)
    (hwindow : window.toList = [mark, mark] ++ inner ++ [mark, mark] ++ rest)
    (hbody : ∀ post, body.Reads [mark, mark] inner post [])
    (hapart : Apart mark inner) (hlast : mark ∉ inner.getLast?) (hrest : mark ∉ rest.head?) :
    ∃ captures, pattern.matchStart window = some captures ∧
      captures.Frames 1 [mark, mark] inner [mark, mark] := by
  obtain ⟨finish, hitems, hcloses⟩ := hpattern.exists_closes
  obtain ⟨x, rest, bx, rfl, hx⟩ :=
    hcloses.exists_reads hrest ([mark, mark] ++ inner ++ [mark, mark])
  have hbefore : ReadsEach [.look .start, .set (.one mark), .set (.one mark)] []
      [mark, mark] (inner ++ (mark :: mark :: x) ++ rest) [] :=
    Regex.readsEach_start_cons.2 (Regex.readsEach_one_cons.2 ⟨[mark], rfl,
      Regex.readsEach_one_cons.2 ⟨[], rfl, rfl, rfl⟩⟩)
  have hinner : (Regex.group 1 none body).Reads [mark, mark] inner ((mark :: mark :: x) ++ rest)
      [(1, ⟨byteSize [mark, mark], byteSize ([mark, mark] ++ inner)⟩)] :=
    ⟨[], rfl, hbody _⟩
  have hafter : ReadsEach (.set (.one mark) :: .set (.one mark) :: finish)
      ([mark, mark] ++ inner) (mark :: mark :: x) rest bx :=
    Regex.readsEach_one_cons.2 ⟨mark :: x, rfl, Regex.readsEach_one_cons.2 ⟨x, rfl, by
      simpa using hx⟩⟩
  obtain ⟨w, v, rest', bw, bv, stop, hsplit, hle, ⟨bw', rfl, -⟩, hv, hstop, hreads, hmatch⟩ :=
    Pattern.exists_shortest hpattern.isAnchored hitems rfl hpattern.isLazy
      (by simp [Regex.isPlain, hpattern.isPlain, hcloses.isPlain]) (by simpa using hwindow) hbefore
      hinner hafter
  obtain ⟨v', rfl, hv'⟩ := Regex.readsEach_one_cons.1 hv
  obtain ⟨x', rfl, hx'⟩ := Regex.readsEach_one_cons.1 hv'
  obtain rfl : w = inner := eq_of_apart (t := x' ++ rest') hapart hlast
    (by simpa using hwindow.symm.trans hsplit) hle
  refine ⟨_, hmatch, Pattern.frames_captures hreads Nat.one_ne_zero ?_ (by simpa using hwindow) ?_⟩
  · simp [List.lookup_append, hcloses.lookup_eq hx']
  · rw [List.append_assoc, hcloses.size_eq window _ hx' (by simpa using hstop)]
    simp

/-- There is no match where the second character is no mark. -/
theorem Doubles.matchStart_eq_none {pattern : Pattern} {body : Regex} {c d : Char}
    (hpattern : Doubles pattern mark body) (hwindow : window.toList = c :: d :: rest)
    (hd : d ≠ mark) : pattern.matchStart window = none := by
  rw [Option.eq_none_iff_forall_ne_some]
  intro captures hmatch
  obtain ⟨stop, bindings, word, post, -, hsplit, -, hreads⟩ :=
    Pattern.exists_reads_of_matchStart hpattern.isAnchored hmatch
  obtain ⟨finish, hitems, -⟩ := hpattern.exists_closes
  rw [← Regex.readsEach_items, hitems, doubled, List.cons_append] at hreads
  obtain ⟨v, rfl, hv⟩ := Regex.readsEach_one_cons.1 (Regex.readsEach_start_cons.1 hreads)
  obtain ⟨v', rfl, -⟩ := Regex.readsEach_one_cons.1 hv
  rw [hwindow] at hsplit
  simp only [List.cons_append, List.cons.injEq] at hsplit
  exact hd hsplit.2.1

theorem mem_anything (c : Char) : anything.mem c = true := CharSet.mem_of_isFull rfl c

/-- Any characters are read by a repetition of all of them. -/
theorem reads_anything {greedy : Bool} {least : Nat} (h : least ≤ word.length)
    (pre post : List Char) :
    (Regex.loop greedy least none (.set anything)).Reads pre word post [] :=
  ⟨word.length, h, by simp, Regex.times_set (fun c _ => mem_anything c) pre post⟩

theorem reads_untrimmed (hne : inner ≠ []) (pre post : List Char) :
    untrimmed.Reads pre inner post [] :=
  reads_anything (List.length_pos_iff.2 hne) pre post

/-- A text that neither begins nor ends with white space is read between the tildes. -/
theorem reads_trimmed (hne : inner ≠ []) (hfirst : ∀ c ∈ inner.head?, Text.isSpace c = false)
    (hlast : ∀ c ∈ inner.getLast?, Text.isSpace c = false) (pre post : List Char) :
    trimmed.Reads pre inner post [] := by
  have hset : ∀ {c}, Text.isSpace c = false → (CharSet.compl .space).mem c = true := by
    simp [CharSet.mem]
  obtain ⟨c, tail, rfl⟩ := List.exists_cons_of_ne_nil hne
  have hc := hset (hfirst c rfl)
  refine ⟨[c], tail, [], [], rfl, rfl, ⟨c, rfl, hc, rfl⟩, ?_⟩
  rcases List.eq_nil_or_concat tail with rfl | ⟨middle, d, rfl⟩
  · exact ⟨0, Nat.le_refl 0, by simp, rfl, rfl⟩
  · rw [List.concat_eq_append] at hlast ⊢
    have hd := hset (hlast d (by rw [← List.cons_append]; exact List.getLast?_concat ..))
    refine ⟨1, Nat.zero_le 1, by simp, ?_⟩
    rw [Regex.Reading.times, Regex.Reading.times, Regex.Reading.followed_nothing]
    exact ⟨middle, [d], [], [], by simp, rfl, reads_anything (Nat.zero_le _) _ _, d, rfl, hd, rfl⟩

/-! ### Plain text -/

/-- What is read as the end of plain text. -/
theorem of_reads_textEnd {post : List Char} (h : textEnd.Reads pre word post bindings) :
    '\n' ∈ word ∨ ':' ∈ word ∨ (∃ c, word = [c] ∧ ordinary.mem c = false) ∨
      word = [] ∧ post = [] := by
  rcases h with ⟨c, rfl, hc, -⟩ | h | h | h | h
  · exact .inr (.inr (.inl ⟨c, rfl, by simpa [CharSet.mem] using hc⟩))
  · exact .inl (Regex.mem_of_mem_items (by decide) h)
  · exact .inl (Regex.mem_of_mem_items (by decide) h)
  · exact .inr (.inl (Regex.mem_of_mem_items (by decide) h))
  · obtain ⟨rfl, -, hfinish⟩ := h
    exact .inr (.inr (.inr ⟨rfl, by simpa [Look.holds, Cursor.between] using hfinish⟩))

/-- Plain text does not end before an ordinary character, if there are neither line ends nor
colons. -/
theorem eq_of_reads_textEnd {content w v post : List Char}
    (hcontent : ∀ c ∈ content, ordinary.mem c = true) (hline : '\n' ∉ content ++ rest)
    (hcolon : ':' ∉ content ++ rest) (h : content ++ rest = w ++ (v ++ post))
    (hle : w.length ≤ content.length) (hreads : textEnd.Reads w v post bindings) :
    w = content := by
  have hmem {c : Char} (hc : c ∈ v) : c ∈ content ++ rest := by simp [h, hc]
  obtain ⟨a, rfl⟩ : w <+: content := List.prefix_of_prefix_length_le ⟨_, h.symm⟩ ⟨_, rfl⟩ hle
  rw [List.append_assoc] at h
  rcases of_reads_textEnd hreads with hv | hv | ⟨c, rfl, hc⟩ | ⟨rfl, rfl⟩
  · exact (hline (hmem hv)).elim
  · exact (hcolon (hmem hv)).elim
  · cases a with
    | nil => rw [List.append_nil]
    | cons d a =>
      obtain ⟨rfl, -⟩ := List.cons.inj (List.append_cancel_left h)
      simp [hcontent d (by simp)] at hc
  · obtain ⟨rfl, -⟩ := List.append_eq_nil_iff.1 (List.append_cancel_left h)
    rw [List.append_nil]

/-- Plain text: ordinary characters up to one that is not, or up to the end, if there are neither
line ends nor colons. -/
theorem exists_consumed_plain {pattern : Pattern} (hanchored : pattern.regex.isAnchored = true)
    (hitems : pattern.regex.items = plain) (hahead : pattern.ahead? = some 1) {content : List Char}
    (hwindow : window.toList = content ++ rest) (hne : content ≠ [])
    (hcontent : ∀ c ∈ content, ordinary.mem c = true)
    (hrest : ∀ c ∈ rest.head?, ordinary.mem c = false) (hline : '\n' ∉ window.toList)
    (hcolon : ':' ∉ window.toList) :
    ∃ captures, pattern.matchStart window = some captures ∧ captures.consumed.toList = content := by
  obtain ⟨x, rest, bx, rfl, hx⟩ : ∃ x rest' bx, rest = x ++ rest' ∧
      textEnd.Reads content x rest' bx := by
    cases rest with
    | nil => exact ⟨[], [], [], rfl, .inr (.inr (.inr (.inr ⟨rfl, rfl, rfl⟩)))⟩
    | cons c rest =>
      exact ⟨[c], rest, [], rfl, .inl ⟨c, rfl, by simpa [CharSet.mem] using hrest c rfl, rfl⟩⟩
  have hbefore : ReadsEach [.look .start] [] [] (content ++ x ++ rest) [] :=
    Regex.readsEach_start_cons.2 ⟨rfl, rfl⟩
  have hafter : ReadsEach [.group 1 (some "ahead") textEnd] content x rest
      ((1, ⟨byteSize content, byteSize (content ++ x)⟩) :: bx) := by
    rw [Regex.readsEach_singleton]
    exact ⟨bx, rfl, hx⟩
  obtain ⟨w, v, rest', bw, bv, stop, hsplit, hle, -, hv, -, hreads, hmatch⟩ :=
    Pattern.exists_shortest hanchored hitems rfl rfl rfl (by simpa using hwindow) hbefore
      (reads_untrimmed hne [] _) hafter
  rw [Regex.readsEach_singleton] at hv
  obtain ⟨bv', rfl, htextEnd⟩ := hv
  simp only [List.nil_append, List.append_assoc] at hsplit htextEnd
  rw [hwindow] at hline hcolon
  obtain rfl : w = content := eq_of_reads_textEnd hcontent hline hcolon (hwindow.symm.trans hsplit)
    hle htextEnd
  refine ⟨_, hmatch, Pattern.toList_consumed hsplit ?_⟩
  rw [Pattern.size_of_lookup hahead rfl]
  rfl

/-! ### Text in italics -/

/-- Asterisks come in pairs. -/
inductive Paired : List Char → Prop
  | nil : Paired []
  | pair {text : List Char} (h : Paired text) : Paired ('*' :: '*' :: text)
  | other {c : Char} {text : List Char} (hc : c ≠ '*') (h : Paired text) : Paired (c :: text)

namespace Paired

theorem append {a b : List Char} (ha : Paired a) (hb : Paired b) : Paired (a ++ b) := by
  induction ha with
  | nil => exact hb
  | pair _ ih => exact ih.pair
  | other hc _ ih => exact ih.other hc

theorem of_not_mem {text : List Char} (h : '*' ∉ text) : Paired text := by
  induction text with
  | nil => exact nil
  | cons c text ih =>
    rw [List.mem_cons, not_or] at h
    exact (ih h.2).other (Ne.symm h.1)

/-- Where the first asterisk stands that is not one of a pair. -/
theorem eq_of_append {a b x y : List Char} (ha : Paired a) (hb : Paired b)
    (h : a ++ '*' :: x = b ++ '*' :: y) (hx : '*' ∉ x.head?) (hy : '*' ∉ y.head?) : a = b := by
  induction ha generalizing b with
  | nil =>
    cases hb with
    | nil => rfl
    | pair hb =>
      simp only [List.nil_append, List.cons_append, List.cons.injEq] at h
      exact (hx (by simp [h.2])).elim
    | other hc hb => exact (hc (List.cons.inj h).1.symm).elim
  | pair ha ih =>
    cases hb with
    | nil =>
      simp only [List.nil_append, List.cons_append, List.cons.injEq] at h
      exact (hy (by simp [← h.2])).elim
    | pair hb =>
      simp only [List.cons_append, List.cons.injEq, true_and] at h
      rw [ih hb h]
    | other hc hb => exact (hc (List.cons.inj h).1.symm).elim
  | other hc ha ih =>
    cases hb with
    | nil => exact (hc (List.cons.inj h).1).elim
    | pair hb => exact (hc (List.cons.inj h).1).elim
    | other hc' hb =>
      obtain ⟨rfl, htail⟩ := List.cons.inj h
      rw [ih hb htail]

end Paired

theorem reads_twoStars {post : List Char} :
    twoStars.Reads pre word post bindings ↔ word = ['*', '*'] ∧ bindings = [] := by
  constructor
  · rintro ⟨u, v, _, _, rfl, rfl, ⟨c, rfl, hc, rfl⟩, ⟨d, rfl, hd, rfl⟩⟩
    obtain rfl : c = '*' := by simpa [CharSet.mem] using hc
    obtain rfl : d = '*' := by simpa [CharSet.mem] using hd
    exact ⟨rfl, rfl⟩
  · rintro ⟨rfl, rfl⟩
    exact ⟨['*'], ['*'], [], [], rfl, rfl, ⟨'*', rfl, by decide, rfl⟩, '*', rfl, by decide, rfl⟩

theorem reads_letterLike {post : List Char} :
    letterLike.Reads pre word post bindings ↔
      ∃ c, word = [c] ∧ (Text.isSpace c = false ∧ c ≠ '*') ∧ bindings = [] := by
  simp [letterLike, Regex.Reads, CharSet.mem]

theorem paired_of_reads_letterLike {post : List Char}
    (h : letterLike.Reads pre word post bindings) : Paired word := by
  obtain ⟨c, rfl, ⟨-, hc⟩, -⟩ := reads_letterLike.1 h
  exact .other hc .nil

theorem paired_of_reads_twoStars {post : List Char} (h : twoStars.Reads pre word post bindings) :
    Paired word := by
  obtain ⟨rfl, -⟩ := reads_twoStars.1 h
  exact .pair .nil

/-- Asterisks come in pairs in each round of text in italics. -/
theorem paired_of_reads_slantedRound {post : List Char}
    (h : slantedRound.Reads pre word post bindings) : Paired word := by
  rcases h with h | ⟨u, v, _, _, rfl, -, ⟨n, -, -, hu⟩, hv⟩ | h
  · exact paired_of_reads_twoStars h
  · have hspace : ∀ c ∈ u, Text.isSpace c = true := Regex.Reading.forall_mem_times (by
      rintro _ _ _ _ ⟨c, rfl, hc, -⟩ d hd
      rw [List.mem_singleton.1 hd]
      exact hc) hu
    refine (Paired.of_not_mem fun hmem => absurd (hspace _ hmem) (by decide)).append ?_
    rcases hv with ⟨c, rfl, hc, -⟩ | hv
    · have hne : c ≠ '*' := by
        rintro rfl
        exact absurd hc (by decide)
      exact .other hne .nil
    · exact paired_of_reads_twoStars hv
  · exact paired_of_reads_letterLike h

theorem paired_of_times {reading : Regex.Reading}
    (h : ∀ {pre word post bindings}, reading pre word post bindings → Paired word) {n : Nat}
    {post : List Char} (hreads : reading.times n pre word post bindings) : Paired word := by
  induction n generalizing pre word bindings with
  | zero => exact hreads.1 ▸ .nil
  | succ n ih =>
    obtain ⟨u, v, _, _, rfl, -, hu, hv⟩ := hreads
    exact (h hu).append (ih hv)

theorem paired_of_reads_slantedBody {post : List Char}
    (h : slantedBody.Reads pre word post bindings) : Paired word := by
  obtain ⟨u, v, _, _, rfl, -, hu, ⟨n, -, -, hv⟩⟩ := h
  refine Paired.append ?_ (paired_of_times paired_of_reads_slantedRound hv)
  rcases hu with hu | hu
  · exact paired_of_reads_twoStars hu
  · exact paired_of_reads_letterLike hu

/-- The text is read in rounds of text in italics, whatever stands around it. -/
def Rounds (text : List Char) : Prop :=
  ∀ pre post, ∃ n, slantedRound.Reads.times n pre text post []

namespace Rounds

variable {c : Char} {a b : List Char}

theorem nil : Rounds [] := fun _ _ => ⟨0, rfl, rfl⟩

theorem append (ha : Rounds a) (hb : Rounds b) : Rounds (a ++ b) := by
  intro pre post
  obtain ⟨m, ha⟩ := ha pre (b ++ post)
  obtain ⟨n, hb⟩ := hb (pre ++ a) post
  refine ⟨m + n, ?_⟩
  rw [Regex.Reading.times_add]
  exact ⟨a, b, [], [], rfl, rfl, ha, hb⟩

theorem of_reads (h : ∀ pre post, slantedRound.Reads pre a post []) : Rounds a := fun pre post => by
  refine ⟨1, ?_⟩
  rw [Regex.Reading.times, Regex.Reading.times, Regex.Reading.followed_nothing]
  exact h pre post

theorem stars : Rounds ['*', '*'] := of_reads fun _ _ => .inl (reads_twoStars.2 ⟨rfl, rfl⟩)

theorem single (hspace : Text.isSpace c = false) (hstar : c ≠ '*') : Rounds [c] :=
  of_reads fun _ _ => .inr (.inr (reads_letterLike.2 ⟨c, rfl, ⟨hspace, hstar⟩, rfl⟩))

theorem reads_space (pre post : List Char) :
    (Regex.loop true 1 none (.set .space)).Reads pre [' '] post [] := by
  have hspace : ∀ c ∈ [' '], CharSet.space.mem c = true := List.forall_mem_singleton.2 rfl
  exact ⟨1, Nat.le_refl 1, by simp, Regex.times_set hspace pre post⟩

theorem space_single (hspace : Text.isSpace c = false) (hstar : c ≠ '*') : Rounds [' ', c] :=
  of_reads fun _ _ => .inr (.inl ⟨[' '], [c], [], [], rfl, rfl, reads_space _ _,
    .inl ⟨c, rfl, by simp [CharSet.mem, hspace, hstar], rfl⟩⟩)

theorem space_stars : Rounds [' ', '*', '*'] :=
  of_reads fun _ _ => .inr (.inl ⟨[' '], ['*', '*'], [], [], rfl, rfl, reads_space _ _,
    .inr (reads_twoStars.2 ⟨rfl, rfl⟩)⟩)

/-- Where a text in italics may begin. -/
theorem reads_slantedBody {post : List Char} (hspace : Text.isSpace c = false) (hstar : c ≠ '*')
    (ha : Rounds a) : slantedBody.Reads pre (c :: a) post [] := by
  obtain ⟨n, ha⟩ := ha (pre ++ [c]) post
  exact ⟨[c], a, [], [], rfl, rfl, .inr (reads_letterLike.2 ⟨c, rfl, ⟨hspace, hstar⟩, rfl⟩),
    n, Nat.zero_le n, by simp, ha⟩

end Rounds

/-- Text in italics is read part by part. -/
theorem reads_slanted {post : List Char} :
    slanted.Reads pre word post bindings ↔ ∃ body inner x bx, word = ['*'] ++ body ++ ['*'] ++ x ∧
      bindings = bx ++ (2, ⟨byteSize (pre ++ ['*']), byteSize (pre ++ ['*'] ++ body)⟩) :: inner ∧
      slantedBody.Reads (pre ++ ['*']) body (['*'] ++ x ++ post) inner ∧
      ReadsEach [noFurther 3 '*'] (pre ++ ['*'] ++ body ++ ['*']) x post bx := by
  rw [← Regex.readsEach_items, show slanted.items = [.set (.one '*'), .group 2 none slantedBody,
    .set (.one '*'), noFurther 3 '*'] from rfl, Regex.readsEach_one_cons]
  simp only [Regex.readsEach_group_cons, Regex.readsEach_one_cons]
  constructor
  · rintro ⟨_, rfl, body, _, inner, bx, rfl, rfl, hbody, x, rfl, hx⟩
    exact ⟨body, inner, x, bx, by simp, rfl, hbody, hx⟩
  · rintro ⟨body, inner, x, bx, rfl, rfl, hbody, hx⟩
    exact ⟨body ++ '*' :: x, by simp, body, '*' :: x, inner, bx, rfl, rfl, hbody, x, rfl, hx⟩

/-- Text in italics: an asterisk, a text that is read in rounds, and an asterisk after which no
second one follows. -/
theorem exists_frames_slanted {pattern : Pattern}
    (hregex : pattern.regex = .cat (.look .start) (.alt underscored slanted))
    (hahead : pattern.ahead? = some 3) (hwindow : window.toList = ['*'] ++ inner ++ ['*'] ++ rest)
    (hinner : ∀ pre post, slantedBody.Reads pre inner post []) (hrest : '*' ∉ rest.head?) :
    ∃ captures, pattern.matchStart window = some captures ∧
      captures.Frames 2 ['*'] inner ['*'] := by
  have hanchored : pattern.regex.isAnchored = true := by rw [hregex]; rfl
  obtain ⟨captures, hmatch⟩ : ∃ captures, pattern.matchStart window = some captures := by
    obtain ⟨x, rest', hsplit, hx⟩ := exists_readsEach_noFurther 3 hrest (['*'] ++ inner ++ ['*'])
    obtain ⟨bindings, hslanted⟩ : ∃ bindings,
        slanted.Reads [] (['*'] ++ inner ++ ['*'] ++ x) rest' bindings :=
      ⟨_, reads_slanted.2 ⟨inner, [], x, _, rfl, rfl, hinner _ _, hx⟩⟩
    have hreads : pattern.regex.Reads [] (['*'] ++ inner ++ ['*'] ++ x) rest' (bindings ++ []) := by
      rw [hregex]
      exact ⟨[], _, [], _, rfl, rfl, ⟨rfl, rfl, rfl⟩, .inr hslanted⟩
    exact Pattern.exists_matchStart_of_reads hanchored (by rw [hregex]; rfl)
      (by simpa [hsplit] using hwindow) hreads
  refine ⟨captures, hmatch, ?_⟩
  obtain ⟨stop, bindings, word, post, rfl, hword, -, hreads⟩ :=
    Pattern.exists_reads_of_matchStart hanchored hmatch
  have halternatives := hregex ▸ hreads
  obtain ⟨_, word, _, bindings, rfl, rfl, ⟨rfl, rfl, -⟩, hunder | hslanted⟩ := halternatives
  · -- The other alternative begins with an underscore.
    have hnonempty : underscored.isNonempty = true := rfl
    have hstarts : underscored.startsWithin ['_'] = true := rfl
    have hlength := Regex.length_pos_of_isNonempty hnonempty hunder
    have hhead := Regex.head?_of_startsWithin hstarts hunder
    cases word with
    | nil => exact absurd hlength (Nat.lt_irrefl 0)
    | cons d word =>
      obtain rfl : d = '*' := by simpa using (List.cons.inj (hword.symm.trans hwindow)).1
      exact absurd (hhead '*' rfl) (by decide)
  · obtain ⟨body, within, x, bx, rfl, rfl, hbody, hx⟩ := reads_slanted.1 hslanted
    obtain ⟨hnone, rfl⟩ := of_readsEach_noFurther hx
    have hparts : body ++ '*' :: (x ++ post) = inner ++ '*' :: rest := by
      simpa using hword.symm.trans hwindow
    obtain rfl : body = inner := Paired.eq_of_append (paired_of_reads_slantedBody hbody)
      (paired_of_reads_slantedBody (hinner [] [])) hparts hnone hrest
    refine Pattern.frames_captures hreads (by decide) rfl (by simpa using hword) ?_
    rw [Pattern.size_of_lookup hahead rfl]
    rfl

end RuledMarkup.Inline
