import RuledMarkup.Proofs.Node.Spans
import RuledMarkup.Viewer.Lines

/-!
# Where a rendered text is cut

The cuts of a text stand in strictly ascending order.  They are the ends of the text, the ends of
its spans, and the places before and after each line end.  As the spans of a rendered forest begin
and end between characters, so do the pieces between its cuts.

## Main results

* `mem_cuts`, `pairwise_cuts` : which cuts there are, and that they ascend.
* `isSome_slice?_cuts` : neighbouring cuts name a slice.
* `filter_byWidth`, `pairwise_byWidth` : wider spans come first, those of one width in their order.
* `render_spans_nest` : the spans of a rendered forest.
-/

namespace RuledMarkup.Viewer

open Text

/-! ### Erasing repetitions from a sorted list -/

section

variable {α : Type} [BEq α] [LawfulBEq α]

theorem mem_eraseRepsLoop {x a : α} {l found : List α} :
    x ∈ List.eraseRepsBy.loop (· == ·) a l found ↔ x ∈ found ∨ x = a ∨ x ∈ l := by
  induction l generalizing a found with
  | nil => simp [List.eraseRepsBy.loop, or_comm]
  | cons b l ih =>
    rw [List.eraseRepsBy.loop]
    cases hab : a == b with
    | true => simp [ih, ← eq_of_beq hab]
    | false => simp [ih, or_comm, or_left_comm, or_assoc]

theorem mem_eraseReps {x : α} {l : List α} : x ∈ l.eraseReps ↔ x ∈ l := by
  cases l with
  | nil => simp [List.eraseReps, List.eraseRepsBy]
  | cons a l => simp [List.eraseReps, List.eraseRepsBy, mem_eraseRepsLoop]

end

theorem pairwise_eraseRepsLoop {a : Nat} {l found : List Nat} (hl : (a :: l).Pairwise (· ≤ ·))
    (hfound : found.Pairwise (· > ·)) (ha : ∀ x ∈ found, x < a) :
    (List.eraseRepsBy.loop (· == ·) a l found).Pairwise (· < ·) := by
  induction l generalizing a found with
  | nil =>
    rw [List.eraseRepsBy.loop, List.pairwise_reverse]
    exact List.pairwise_cons.2 ⟨ha, hfound⟩
  | cons b l ih =>
    obtain ⟨hab, hl⟩ := List.pairwise_cons.1 hl
    rw [List.eraseRepsBy.loop]
    cases heq : a == b with
    | true => exact ih (eq_of_beq heq ▸ hl) hfound ha
    | false =>
      have hlt : a < b := Nat.lt_of_le_of_ne (hab b (by simp)) (by simpa using heq)
      refine ih hl (List.pairwise_cons.2 ⟨ha, hfound⟩) ?_
      rintro x (_ | ⟨_, hx⟩)
      · exact hlt
      · exact Nat.lt_trans (ha x hx) hlt

theorem pairwise_eraseReps {l : List Nat} (hl : l.Pairwise (· ≤ ·)) :
    l.eraseReps.Pairwise (· < ·) := by
  cases l with
  | nil => exact .nil
  | cons a l => exact pairwise_eraseRepsLoop hl .nil (by simp)

/-! ### Cuts -/

variable {σ : Type} {text : String} {spans : List (AttributeSpan σ)}

/-- A line end stands wherever there is a newline. -/
theorem mem_lineEnds {i start : Nat} {chars : List Char} :
    i ∈ lineEnds start chars ↔ ∃ a b, chars = a ++ '\n' :: b ∧ i = start + byteSize a := by
  induction chars generalizing start with
  | nil => simp [lineEnds]
  | cons c chars ih =>
    have hlater : (∃ a b, chars = a ++ '\n' :: b ∧ i = start + c.utf8Size + byteSize a) ↔
        ∃ a b, c :: chars = (c :: a) ++ '\n' :: b ∧ i = start + byteSize (c :: a) := by
      simp [Nat.add_assoc]
    rw [lineEnds]
    split
    · next hc =>
      rw [List.mem_cons, ih, hlater]
      constructor
      · rintro (rfl | ⟨a, b, h⟩)
        · exact ⟨[], chars, by rw [hc]; rfl, by simp⟩
        · exact ⟨c :: a, b, h⟩
      · rintro ⟨_ | ⟨d, a⟩, b, h, hi⟩
        · exact .inl (by simpa using hi)
        · obtain ⟨rfl, -⟩ := List.cons_eq_cons.1 h
          exact .inr ⟨a, b, h, hi⟩
    · next hc =>
      rw [ih, hlater]
      constructor
      · rintro ⟨a, b, h⟩
        exact ⟨c :: a, b, h⟩
      · rintro ⟨_ | ⟨d, a⟩, b, h, hi⟩
        · exact absurd (List.cons_eq_cons.1 h).1 hc
        · obtain ⟨rfl, -⟩ := List.cons_eq_cons.1 h
          exact ⟨a, b, h, hi⟩

theorem mem_cuts {i : Nat} :
    i ∈ cuts text spans ↔ i = 0 ∨ i = text.utf8ByteSize ∨
      (∃ span ∈ spans, i = span.range.start ∨ i = span.range.stop) ∨
      ∃ k ∈ lineEnds 0 text.toList, i = k ∨ i = k + 1 := by
  simp [cuts, mem_eraseReps]

/-- The cuts ascend. -/
theorem pairwise_cuts (text : String) (spans : List (AttributeSpan σ)) :
    (cuts text spans).Pairwise (· < ·) := by
  refine pairwise_eraseReps ?_
  have h := @List.pairwise_mergeSort Nat (fun a b => decide (a ≤ b))
    (by simpa only [decide_eq_true_eq] using fun a b c => Nat.le_trans)
    (by simpa using Nat.le_total)
  simpa only [decide_eq_true_eq] using h _

/-- The first cut is the beginning of the text. -/
theorem exists_cuts_eq_cons (text : String) (spans : List (AttributeSpan σ)) :
    ∃ rest, cuts text spans = 0 :: rest := by
  have hzero : 0 ∈ cuts text spans := mem_cuts.2 (.inl rfl)
  have hsorted := pairwise_cuts text spans
  cases hcuts : cuts text spans with
  | nil => exact absurd (hcuts ▸ hzero) List.not_mem_nil
  | cons first rest =>
    rw [hcuts] at hzero hsorted
    rcases List.mem_cons.1 hzero with rfl | hmem
    · exact ⟨rest, rfl⟩
    · exact absurd (List.rel_of_pairwise_cons hsorted hmem) (Nat.not_lt_zero _)

/-- The ends of the spans stand between characters. -/
def Bounded (text : String) (spans : List (AttributeSpan σ)) : Prop :=
  ∀ span ∈ spans, isBoundary text span.range.start = true ∧ isBoundary text span.range.stop = true

/-- The cuts stand between characters if the ends of the spans do. -/
theorem isBoundary_of_mem_cuts (h : Bounded text spans) {i : Nat} (hi : i ∈ cuts text spans) :
    isBoundary text i = true := by
  rcases mem_cuts.1 hi with rfl | rfl | ⟨span, hspan, rfl | rfl⟩ | ⟨k, hk, hik⟩
  · exact isBoundary_zero text
  · exact isBoundary_utf8ByteSize text
  · exact (h span hspan).1
  · exact (h span hspan).2
  · obtain ⟨a, b, htext, rfl⟩ := mem_lineEnds.1 hk
    rw [Nat.zero_add] at hik
    rw [← String.ofList_toList (s := text), htext, isBoundary_iff]
    rcases hik with rfl | rfl
    · exact ⟨String.ofList a, String.ofList ('\n' :: b), String.ofList_append, rfl⟩
    · refine ⟨String.ofList (a ++ ['\n']), String.ofList b, ?_, byteSize_append ..⟩
      rw [← String.ofList_append, List.append_assoc, List.singleton_append]

/-- Neighbouring cuts name a slice of the text. -/
theorem isSome_slice?_cuts (h : Bounded text spans) {start stop : Nat}
    (hcuts : [start, stop] <:+: cuts text spans) : (slice? text ⟨start, stop⟩).isSome = true := by
  have hlt : [start, stop].Pairwise (· < ·) := (pairwise_cuts text spans).sublist hcuts.sublist
  refine isSome_slice?_iff.2 ⟨?_, ?_, ?_⟩
  · exact Nat.le_of_lt (List.rel_of_pairwise_cons hlt (by simp))
  · exact isBoundary_of_mem_cuts h (hcuts.subset (by simp))
  · exact isBoundary_of_mem_cuts h (hcuts.subset (by simp))

/-! ### Widths -/

/-- Spans of one width keep their order. -/
theorem filter_byWidth (spans : List (AttributeSpan σ)) (width : Nat) :
    (byWidth spans).filter (·.range.size = width) = spans.filter (·.range.size = width) := by
  have hsorted : (spans.filter (·.range.size = width)).Pairwise fun a b =>
      decide (b.range.size ≤ a.range.size) = true := by
    refine List.pairwise_of_forall_mem_list fun a ha b hb => ?_
    have ha := (List.mem_filter.1 ha).2
    have hb := (List.mem_filter.1 hb).2
    simp only [decide_eq_true_eq] at ha hb ⊢
    omega
  have hsublist : List.Sublist (spans.filter (·.range.size = width)) (byWidth spans) :=
    List.sublist_mergeSort (by simpa using fun a b c h h' => Nat.le_trans h' h)
      (by simpa using fun a b => Nat.le_total ..) hsorted List.filter_sublist
  have hfilter := hsublist.filter (fun span => decide (span.range.size = width))
  rw [List.filter_filter] at hfilter
  simp only [Bool.and_self] at hfilter
  exact (hfilter.eq_of_length ((byWidth_perm spans).filter _).length_eq.symm).symm

/-- Wider spans come first. -/
theorem pairwise_byWidth (spans : List (AttributeSpan σ)) :
    (byWidth spans).Pairwise fun a b => b.range.size ≤ a.range.size := by
  have h := @List.pairwise_mergeSort (AttributeSpan σ)
    (fun a b => decide (b.range.size ≤ a.range.size))
    (by simpa using fun a b c h h' => Nat.le_trans h' h) (by simpa using fun a b => Nat.le_total ..)
  rw [byWidth]
  simpa only [decide_eq_true_eq] using h spans

/-! ### Rendered forests -/

/-- The spans of a forest that is rendered behind a text whose spans begin and end between
characters, in any order. -/
theorem bounded_render {R : Type} (ctx : R) (forest : List (Node R (Terminal.Attribute σ)))
    {out : StyledText (Terminal.Attribute σ)} (hout : Bounded out.text out.spans.toList)
    {spans : List (AttributeSpan σ)} (h : spans.Perm (Forest.render ctx forest out).spans.toList) :
    Bounded (Forest.render ctx forest out).text spans := by
  intro span hspan
  rw [h.mem_iff, Forest.spans_render ctx 0, List.mem_append] at hspan
  rcases hspan with hold | hnew
  · rw [Forest.text_render]
    obtain ⟨hstart, hstop⟩ := hout span hold
    exact ⟨isBoundary_append_left hstart _, isBoundary_append_left hstop _⟩
  · obtain ⟨mark, hmark, hrange, -⟩ := mem_spansOf.1 hnew
    have hfits := Forest.fits_marks_behind ctx 0 forest out
    rw [hrange]
    exact ⟨hfits.starts mark hmark, hfits.stops mark hmark⟩

/-- The spans of a rendered forest, from the widest to the narrowest. -/
theorem bounded_byWidth {R : Type} (ctx : R)
    (forest : List (Node R (Terminal.Attribute σ))) :
    Bounded (Forest.renderText ctx forest).text
      (byWidth (Forest.renderText ctx forest).spans.toList) :=
  bounded_render ctx forest (by simp [Bounded]) (byWidth_perm _)

/-- Rendering leaves the text and the spans that are there in front.  The new spans lie in the new
text, begin and end between characters, and any two of them are disjoint or one holds the other; to
clamp their ranges changes nothing.  The pieces between the cuts of such a text are slices of it. -/
theorem render_spans_nest {R : Type} (ctx : R) :
    (∀ (T : Type) (forest : List (Node R T)) (out : StyledText T),
      (∃ more, (Forest.render ctx forest out).text = out.text ++ more) ∧
      (∃ new, (Forest.render ctx forest out).spans.toList = out.spans.toList ++ new ∧
        (∀ span ∈ new, out.size ≤ span.range.start ∧ span.range.start ≤ span.range.stop ∧
          span.range.stop ≤ (Forest.render ctx forest out).size ∧
          isBoundary (Forest.render ctx forest out).text span.range.start = true ∧
          isBoundary (Forest.render ctx forest out).text span.range.stop = true) ∧
        new.Pairwise fun a b => a.range.Nests b.range) ∧
      Forest.renderWith StyledText.setStylesUnclamped ctx forest out =
        Forest.render ctx forest out) ∧
    ∀ (forest : List (Node R Terminal.Attribute)) (out : StyledText Terminal.Attribute),
      Bounded out.text out.spans.toList →
      ∀ start stop,
        [start, stop] <:+: cuts (Forest.render ctx forest out).text
          (byWidth (Forest.render ctx forest out).spans.toList) →
        (slice? (Forest.render ctx forest out).text ⟨start, stop⟩).isSome = true := by
  refine ⟨fun T forest out => ⟨⟨_, Forest.text_render ctx forest out⟩,
    ⟨_, Forest.spans_render ctx 0 forest out, fun span hspan => ?_, ?_⟩, ?_⟩,
    fun forest out hout start stop => isSome_slice?_cuts ?_⟩
  · obtain ⟨mark, hmark, hrange, -⟩ := mem_spansOf.1 hspan
    have hfits := Forest.fits_marks_behind ctx 0 forest out
    rw [hrange]
    exact ⟨(Forest.range_of_mem_marks hmark).1, hfits.ordered mark hmark, hfits.stop_le hmark,
      hfits.starts mark hmark, hfits.stops mark hmark⟩
  · exact (Forest.fits_marks_behind ctx 0 forest out).nests_spansOf
  · exact Forest.renderWith_eq StyledText.setStylesUnclamped_eq ctx forest out
  · exact bounded_render ctx forest hout (byWidth_perm _)

end RuledMarkup.Viewer
