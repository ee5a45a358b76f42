import Mathlib.Data.List.Basic
import RuledMarkup.Proofs.Viewer.Cuts

/-!
# What a rendered text looks like

Each character of a rendered text is shown once, in the styles whose ranges hold its byte, and each
newline leads to the next line.  The pieces between two cuts are in one style, since the spans
around a piece are those around each of its characters.

## Main definitions

* `StyledChar`, `shown` : a character in its style, and what a list of lines shows.
* `styleAt` : the styles of the spans that hold a byte, each laid over the ones before.
* `painted` : a text whose characters are shown in styles given for each byte.

## Main results

* `shown_toLines` : what the lines of a rendered text show.
-/

namespace RuledMarkup.Viewer

open Text Terminal

/-! ### Characters -/

/-- A character in its style. -/
structure StyledChar (σ : Type) where
  char : Char
  style : σ
deriving DecidableEq, Repr

variable {σ : Type}

/-- The characters of a segment. -/
def Segment.chars (segment : Segment σ) : List (StyledChar σ) :=
  segment.content.toList.map (⟨·, segment.style⟩)

/-- What lines show, from the first to the last: their characters, and `none` for each step to the
next line. -/
def shown (lines : List (Line σ)) : List (Option (StyledChar σ)) :=
  [none].intercalate (lines.map fun line => (line.flatMap Segment.chars).map some)

/-- What a piece shows. -/
def Piece.shown : Piece σ → List (Option (StyledChar σ))
  | .segment content => content.chars.map some
  | .lineEnd => [none]

/-- The lines of a list of pieces show what the pieces show. -/
theorem shown_lines (pieces : List (Piece σ)) :
    shown (lines pieces) = pieces.flatMap Piece.shown := by
  induction pieces with
  | nil => rfl
  | cons piece pieces ih =>
    obtain ⟨line, rest, hlines⟩ := List.exists_cons_of_ne_nil (lines_ne_nil pieces)
    rw [List.flatMap_cons, ← ih]
    cases piece with
    | lineEnd => simp [lines, hlines, shown, Piece.shown]
    | segment segment =>
      cases rest <;> simp [lines, hlines, shown, Piece.shown, List.intercalate]

/-- A text from byte `i` on, whose characters are shown in the styles of their first bytes, each
behind what is put before its byte.  A newline leads to the next line. -/
def painted (before : Nat → List (StyledChar σ)) (style : Nat → σ) (i : Nat) :
    List Char → List (Option (StyledChar σ))
  | [] => (before i).map some
  | c :: chars =>
    (before i).map some ++
      (if c = '\n' then none else some ⟨c, style i⟩) ::
        painted before style (i + c.utf8Size) chars

/-- Characters of one style with nothing in between. -/
theorem painted_append {before : Nat → List (StyledChar σ)} {style : Nat → σ} {upper : σ}
    {i : Nat} {chars : List Char} (hchars : '\n' ∉ chars)
    (hplain : ∀ k, i ≤ k → k < i + byteSize chars → before k = [] ∧ style k = upper)
    (more : List Char) :
    painted before style i (chars ++ more) =
      chars.map (fun c => some ⟨c, upper⟩) ++ painted before style (i + byteSize chars) more := by
  induction chars generalizing i with
  | nil => simp
  | cons c chars ih =>
    obtain ⟨hc, hchars⟩ := not_or.1 (mt List.mem_cons.2 hchars)
    have hsize := c.utf8Size_pos
    rw [byteSize_cons] at hplain
    obtain ⟨hbefore, hstyle⟩ := hplain i (Nat.le_refl i) (by omega)
    rw [List.cons_append, painted, hbefore, hstyle, if_neg (Ne.symm hc),
      ih hchars fun k hk hlt => hplain k (by omega) (by omega)]
    simp [Nat.add_assoc]

/-! ### Styles at a byte -/

variable {text : String} {spans : List (AttributeSpan σ)}

section Layers

variable [Layered σ]

/-- The style with that of a span laid over it, if the span holds the byte. -/
def layAt (i : Nat) (style : σ) (span : AttributeSpan σ) : σ :=
  match span.style with
  | .style upper => if span.range.contains i then Layered.patch style upper else style
  | .bullet _ => style

/-- The style at a byte: those of the spans that hold it, each laid over the ones before. -/
def styleAt (spans : List (AttributeSpan σ)) (i : Nat) : σ := spans.foldl (layAt i) Layered.plain

end Layers

/-- The bullets before a byte. -/
def bulletChars (spans : List (AttributeSpan σ)) (i : Nat) : List (StyledChar σ) :=
  (bulletsAt spans i).flatMap Segment.chars

theorem flatMap_shown_bullets (spans : List (AttributeSpan σ)) (i : Nat) :
    ((bulletsAt spans i).map Piece.segment).flatMap Piece.shown =
      (bulletChars spans i).map some := by
  rw [List.flatMap_map, bulletChars, List.map_flatMap]
  rfl

/-- Two bytes between which nothing is cut. -/
structure Uncut (text : String) (spans : List (AttributeSpan σ)) (start stop : Nat) : Prop where
  lt : start < stop
  cuts : ∀ k ∈ cuts text spans, k ≤ start ∨ stop ≤ k

namespace Uncut

variable {start stop i : Nat}

/-- No bullet stands within a piece. -/
theorem bulletChars_eq_nil (h : Uncut text spans start stop) (hstart : start < i)
    (hstop : i < stop) : bulletChars spans i = [] := by
  rw [bulletChars, bulletsAt, List.flatMap_eq_nil_iff]
  intro segment hsegment
  obtain ⟨span, hspan, hbullet⟩ := List.mem_filterMap.1 hsegment
  have hcut := h.cuts span.range.start (mem_cuts.2 (.inr (.inr (.inl ⟨span, hspan, .inl rfl⟩))))
  split at hbullet
  · split at hbullet
    · omega
    · cases hbullet
  · cases hbullet

/-- A span holds a byte of a piece if and only if it goes around the piece. -/
theorem contains_iff (h : Uncut text spans start stop) (hstart : start ≤ i) (hstop : i < stop)
    {span : AttributeSpan σ} (hspan : span ∈ spans) :
    span.range.contains i = true ↔ span.range.start ≤ start ∧ stop ≤ span.range.stop := by
  have hfirst := h.cuts span.range.start (mem_cuts.2 (.inr (.inr (.inl ⟨span, hspan, .inl rfl⟩))))
  have hlast := h.cuts span.range.stop (mem_cuts.2 (.inr (.inr (.inl ⟨span, hspan, .inr rfl⟩))))
  simp only [ByteRange.contains, Bool.and_eq_true, decide_eq_true_eq]
  omega

/-- All bytes of a piece have the style of the piece. -/
theorem styleAt_eq [Layered σ] (h : Uncut text spans start stop) (hstart : start ≤ i)
    (hstop : i < stop) : styleAt spans i = styleOf spans ⟨start, stop⟩ := by
  refine List.foldl_ext _ _ _ fun style span hspan => ?_
  rw [layAt]
  cases span.style with
  | bullet => rfl
  | style upper => simp only [h.contains_iff hstart hstop hspan]

/-- A piece with a newline is a newline. -/
theorem eq_newline_of_mem (h : Uncut text spans start stop) {content : String}
    (hcontent : slice? text ⟨start, stop⟩ = some content) (hnewline : '\n' ∈ content.toList) :
    content = "\n" := by
  obtain ⟨u, v, huv⟩ := List.append_of_mem hnewline
  obtain ⟨a, b, rfl, rfl, hsize⟩ := slice?_eq_some_iff.1 hcontent
  have hend : byteSize (a.toList ++ u) ∈ lineEnds 0 (a ++ content ++ b).toList :=
    mem_lineEnds.2 ⟨a.toList ++ u, v ++ b.toList, by simp [huv], by simp⟩
  have hbefore := h.cuts _ (mem_cuts.2 (.inr (.inr (.inr ⟨_, hend, .inl rfl⟩))))
  have hbehind := h.cuts _ (mem_cuts.2 (.inr (.inr (.inr ⟨_, hend, .inr rfl⟩))))
  have hone : '\n'.utf8Size = 1 := by decide
  rw [← byteSize_toList content, huv] at hsize
  simp only [byteSize_append, byteSize_toList, byteSize_cons, hone] at hbefore hbehind hsize
  obtain rfl : u = [] := byteSize_eq_zero_iff.1 (by omega)
  obtain rfl : v = [] := byteSize_eq_zero_iff.1 (by omega)
  exact String.toList_inj.1 huv

end Uncut

/-! ### What the pieces show -/

/-- The piece between two cuts shows its characters, all but the first of which have nothing put
before them. -/
theorem shown_pieceAt [Layered σ] {start stop : Nat} {content : String}
    (h : Uncut text spans start stop) (hcontent : slice? text ⟨start, stop⟩ = some content)
    (more : List Char) :
    (bulletChars spans start).map some ++ (pieceAt text spans ⟨start, stop⟩).shown ++
        painted (bulletChars spans) (styleAt spans) stop more =
      painted (bulletChars spans) (styleAt spans) start (content.toList ++ more) := by
  have hlt := h.lt
  have hsize : start + byteSize content.toList = stop := by
    rw [byteSize_toList]
    exact utf8ByteSize_of_slice? hcontent
  cases hchars : content.toList with
  | nil =>
    rw [hchars, byteSize_nil] at hsize
    omega
  | cons c chars =>
    have hc := c.utf8Size_pos
    rw [hchars, byteSize_cons, ← Nat.add_assoc] at hsize
    rw [List.cons_append, painted, pieceAt, slice_of_slice? hcontent]
    by_cases hnewline : '\n' ∈ content.toList
    · obtain rfl := h.eq_newline_of_mem hcontent hnewline
      obtain ⟨rfl, rfl⟩ : '\n' = c ∧ [] = chars := List.cons_eq_cons.1 hchars
      have hone : '\n'.utf8Size = 1 := by decide
      rw [byteSize_nil, hone] at hsize
      simp [Piece.shown, hone, ← hsize]
    · have hne : content ≠ "\n" := by
        rintro rfl
        exact hnewline (by decide)
      have hplain : ∀ k, start + c.utf8Size ≤ k → k < start + c.utf8Size + byteSize chars →
          bulletChars spans k = [] ∧ styleAt spans k = styleOf spans ⟨start, stop⟩ :=
        fun k hk hk' =>
          ⟨h.bulletChars_eq_nil (by omega) (by omega), h.styleAt_eq (by omega) (by omega)⟩
      rw [hchars, List.mem_cons, not_or] at hnewline
      rw [if_neg hne, if_neg (Ne.symm hnewline.1), h.styleAt_eq (Nat.le_refl _) hlt,
        painted_append hnewline.2 hplain, hsize]
      simp [Piece.shown, Segment.chars, hchars]

/-- Nothing is cut between neighbouring cuts. -/
theorem uncut_of_isSuffix {start stop : Nat} {rest : List Nat}
    (h : start :: stop :: rest <:+ cuts text spans) : Uncut text spans start stop := by
  obtain ⟨earlier, hearlier⟩ := h
  have hsorted := pairwise_cuts text spans
  rw [← hearlier, List.pairwise_append, List.pairwise_cons, List.pairwise_cons] at hsorted
  obtain ⟨-, ⟨hstart, hstop, -⟩, hbefore⟩ := hsorted
  refine ⟨hstart stop (by simp), fun k hk => ?_⟩
  rw [← hearlier, List.mem_append, List.mem_cons, List.mem_cons] at hk
  rcases hk with hk | rfl | rfl | hk
  · exact .inl (Nat.le_of_lt (hbefore k hk start (by simp)))
  · exact .inl (Nat.le_refl _)
  · exact .inr (Nat.le_refl _)
  · exact .inr (Nat.le_of_lt (hstop k hk))

/-- The last cut is the end of the text. -/
theorem le_of_singleton_isSuffix {start : Nat} (h : [start] <:+ cuts text spans) :
    text.utf8ByteSize ≤ start := by
  obtain ⟨earlier, hearlier⟩ := h
  have hsorted := pairwise_cuts text spans
  have hend : text.utf8ByteSize ∈ cuts text spans := mem_cuts.2 (.inr (.inl rfl))
  rw [← hearlier] at hsorted hend
  rcases List.mem_append.1 hend with hmem | hmem
  · exact Nat.le_of_lt ((List.pairwise_append.1 hsorted).2.2 _ hmem start (by simp))
  · exact Nat.le_of_eq (List.mem_singleton.1 hmem)

/-- What the pieces from one cut on show. -/
theorem shown_piecesBetween [Layered σ] (h : Bounded text spans) {start : Nat} {rest : List Nat}
    (hcuts : start :: rest <:+ cuts text spans) {more : String}
    (hmore : slice? text ⟨start, text.utf8ByteSize⟩ = some more) :
    (piecesBetween text spans (start :: rest)).flatMap Piece.shown =
      painted (bulletChars spans) (styleAt spans) start more.toList := by
  induction rest generalizing start more with
  | nil =>
    have hle := le_of_singleton_isSuffix hcuts
    have hsize : start + more.utf8ByteSize = text.utf8ByteSize := utf8ByteSize_of_slice? hmore
    obtain rfl : more = "" := String.utf8ByteSize_eq_zero_iff.1 (by omega)
    rw [piecesBetween, flatMap_shown_bullets]
    rfl
  | cons stop rest ih =>
    have hrest : stop :: rest <:+ cuts text spans := (List.suffix_cons ..).trans hcuts
    have hstop : isBoundary text stop = true :=
      isBoundary_of_mem_cuts h (hrest.subset (List.mem_cons_self ..))
    have hpair : [start, stop] <:+: cuts text spans :=
      List.IsInfix.trans ⟨[], rest, rfl⟩ hcuts.isInfix
    obtain ⟨content, hcontent⟩ := Option.isSome_iff_exists.1 (isSome_slice?_cuts h hpair)
    obtain ⟨later, -, -, hlater⟩ := exists_append_of_isBoundary hstop
    obtain rfl : more = content ++ later :=
      Option.some.inj (hmore.symm.trans (slice?_append hcontent hlater))
    rw [piecesBetween, List.flatMap_append, List.flatMap_cons, flatMap_shown_bullets,
      ih hrest hlater, ← List.append_assoc, shown_pieceAt (uncut_of_isSuffix hcuts) hcontent,
      String.toList_append]

/-- The lines of a text show its characters, each in the styles whose ranges hold its first byte,
and its bullets.  Of the styles the narrower ones are laid over the wider ones. -/
theorem shown_toLines [Layered σ] (styled : StyledText (Attribute σ))
    (h : Bounded styled.text (byWidth styled.spans.toList)) :
    shown (toLines styled) =
      painted (bulletChars (byWidth styled.spans.toList)) (styleAt (byWidth styled.spans.toList)) 0
        styled.text.toList := by
  obtain ⟨rest, hrest⟩ := exists_cuts_eq_cons styled.text (byWidth styled.spans.toList)
  rw [toLines, shown_lines, pieces, hrest]
  exact shown_piecesBetween h ⟨[], hrest.symm⟩ (slice?_self _)

end RuledMarkup.Viewer
