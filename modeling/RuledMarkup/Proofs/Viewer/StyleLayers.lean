import RuledMarkup.Proofs.Viewer.Segments

/-!
# The styles of a byte

Which style a byte of a rendered text has can be said without cutting the text: the styles of all
spans that hold the byte are laid over each other, those of wider spans first, and those of spans of
one width in the order in which they were attached.  The piece of a line in which the byte is shown
has that style.

## Main definitions

* `layersAt` : the styles that are laid over each other at a byte.

## Main results

* `styleAt_byWidth` : the style at a byte, by its layers.
* `exists_mem_placedBetween` : each byte but those of newlines stands in a piece of a line.
* `pieces_styled_by_layers` : the pieces of the lines are in the styles of their bytes.
-/

namespace RuledMarkup

open Text Terminal

/-- The style that the attribute lays over the text. -/
def Terminal.Attribute.layer? {σ : Type} : Attribute σ → Option σ
  | .style upper => some upper
  | .bullet _ => none

namespace Viewer

variable {σ : Type}

/-! ### Layers -/

/-- The styles that are laid over each other at byte `i`: for each width, from the whole text down,
those of the spans of that width that hold the byte, in the order in which they were attached. -/
def layersAt (styled : StyledText (Attribute σ)) (i : Nat) : List σ :=
  (List.range (styled.size + 1)).reverse.flatMap fun width =>
    (styled.spans.toList.filter fun span =>
      span.range.contains i && span.range.size = width).filterMap (·.style.layer?)

/-- In a list that is sorted from great to small the items with the greatest key come first. -/
theorem filter_append_filter_of_pairwise {α : Type} {key : α → Nat} {l : List α} {bound : Nat}
    (hsorted : l.Pairwise fun a b => key b ≤ key a) (hbound : ∀ a ∈ l, key a ≤ bound) :
    l.filter (key · = bound) ++ l.filter (key · < bound) = l := by
  induction l with
  | nil => rfl
  | cons a l ih =>
    obtain ⟨ha, hsorted⟩ := List.pairwise_cons.1 hsorted
    obtain ⟨hle, hbound⟩ := List.forall_mem_cons.1 hbound
    rcases Nat.eq_or_lt_of_le hle with hkey | hlt
    · simp [hkey, ih hsorted hbound]
    · have hsmall : ∀ b ∈ l, key b < bound := fun b hb => Nat.lt_of_le_of_lt (ha b hb) hlt
      have hnone : l.filter (key · = bound) = [] :=
        List.filter_eq_nil_iff.2 fun b hb => by simpa using Nat.ne_of_lt (hsmall b hb)
      have hall : l.filter (key · < bound) = l :=
        List.filter_eq_self.2 fun b hb => by simpa using hsmall b hb
      simp [hlt, Nat.ne_of_lt hlt, hnone, hall]

/-- A list that is sorted from great to small is made of its items with each key. -/
theorem flatMap_filter_of_pairwise {α : Type} {key : α → Nat} {l : List α} {bound : Nat}
    (hsorted : l.Pairwise fun a b => key b ≤ key a) (hbound : ∀ a ∈ l, key a < bound) :
    ((List.range bound).reverse.flatMap fun k => l.filter (key · = k)) = l := by
  induction bound generalizing l with
  | zero =>
    rw [List.eq_nil_iff_forall_not_mem.2 fun a ha => Nat.not_lt_zero _ (hbound a ha)]
    rfl
  | succ bound ih =>
    have hsplit := filter_append_filter_of_pairwise hsorted fun a ha =>
      Nat.le_of_lt_succ (hbound a ha)
    have hrest := ih (hsorted.filter (key · < bound)) fun a ha => by
      simpa using (List.mem_filter.1 ha).2
    rw [List.range_succ, List.reverse_append, List.reverse_singleton, List.singleton_append,
      List.flatMap_cons]
    conv_rhs => rw [← hsplit, ← hrest]
    congr 1
    refine List.flatMap_congr fun k hk => ?_
    rw [List.filter_filter]
    refine List.filter_congr fun a _ => ?_
    rw [List.mem_reverse, List.mem_range] at hk
    by_cases ha : key a = k <;> simp [ha, hk]

/-- A span of a text whose spans begin and end between characters is not wider than the text. -/
theorem size_le_of_bounded {text : String} {spans : List (AttributeSpan σ)} (h : Bounded text spans)
    {span : AttributeSpan σ} (hspan : span ∈ spans) : span.range.size ≤ text.utf8ByteSize :=
  Nat.le_trans (Nat.sub_le ..) (le_of_isBoundary (h span hspan).2)

/-- The style at a byte is made of its layers. -/
theorem styleAt_byWidth [Layered σ] {styled : StyledText (Attribute σ)}
    (h : Bounded styled.text styled.spans.toList) (i : Nat) :
    styleAt (byWidth styled.spans.toList) i =
      (layersAt styled i).foldl Layered.patch Layered.plain := by
  have hbound : ∀ span ∈ byWidth styled.spans.toList, span.range.size < styled.size + 1 :=
    fun span hspan => Nat.lt_succ_of_le (size_le_of_bounded h ((byWidth_perm _).mem_iff.1 hspan))
  have hlayers : layersAt styled i = (byWidth styled.spans.toList).filterMap fun span =>
      if span.range.contains i then span.style.layer? else none := by
    rw [← flatMap_filter_of_pairwise (pairwise_byWidth _) hbound, List.filterMap_flatMap, layersAt]
    refine List.flatMap_congr fun width _ => ?_
    rw [filter_byWidth, List.filterMap_filter, List.filterMap_filter]
    refine List.filterMap_congr fun span _ => ?_
    by_cases hwidth : span.range.size = width <;> simp [hwidth]
  rw [hlayers, List.foldl_filterMap, styleAt]
  congr 1
  funext style span
  rw [layAt]
  cases span.style with
  | bullet => cases span.range.contains i <;> rfl
  | style upper => cases span.range.contains i <;> rfl

/-! ### Pieces -/

/-- The byte of a newline. -/
theorem getElem?_newline (a b : String) :
    (a ++ "\n" ++ b).toByteArray[a.utf8ByteSize]? = some 10 := by
  have ha : a.toByteArray.size = a.utf8ByteSize := String.size_toByteArray
  have hone : "\n".toByteArray.size = 1 := by decide
  have hlt : a.utf8ByteSize < (a.toByteArray ++ ("\n".toByteArray ++ b.toByteArray)).size := by
    rw [ByteArray.size_append, ByteArray.size_append]
    omega
  rw [String.append_assoc, String.toByteArray_append, String.toByteArray_append,
    getElem?_pos (a.toByteArray ++ _) _ hlt, ByteArray.getElem_append_right (by omega),
    ByteArray.getElem_append_left (by omega)]
  simp only [ha, Nat.sub_self]
  rfl

variable {text : String} {spans : List (AttributeSpan σ)}

/-- A piece of a line stands between two cuts. -/
theorem uncut_of_mem_placedBetween [Layered σ] (h : Bounded text spans) {later : List Nat}
    (hcuts : later <:+ cuts text spans) {start : Nat} {content : String} {style : σ}
    (hmem : (start, .piece content style) ∈ placedBetween text spans later) :
    Uncut text spans start (start + content.utf8ByteSize) ∧
      style = styleOf spans ⟨start, start + content.utf8ByteSize⟩ := by
  have hnone (i j : Nat) : (start, .piece content style) ∉ (bulletParts spans i).map (j, ·) := by
    simp [bulletParts]
  induction later with
  | nil => cases hmem
  | cons first rest ih =>
    cases rest with
    | nil => exact absurd hmem (hnone first first)
    | cons stop rest =>
      have hrest : stop :: rest <:+ cuts text spans := (List.suffix_cons ..).trans hcuts
      rw [placedBetween, List.mem_append, List.map_append, List.mem_append] at hmem
      rcases hmem with (hmem | hmem) | hmem
      · exact absurd hmem (hnone first first)
      · have hpair : [first, stop] <:+: cuts text spans :=
          List.IsInfix.trans ⟨[], rest, rfl⟩ hcuts.isInfix
        obtain ⟨found, hfound⟩ := Option.isSome_iff_exists.1 (isSome_slice?_cuts h hpair)
        rw [piecePart, slice_of_slice? hfound] at hmem
        split_ifs at hmem with hnewline
        · cases hmem
        · obtain ⟨rfl, rfl, rfl⟩ : start = first ∧ content = found ∧
              style = styleOf spans ⟨first, stop⟩ := by
            simpa using hmem
          rw [utf8ByteSize_of_slice? hfound]
          exact ⟨uncut_of_isSuffix hcuts, rfl⟩
      · exact ih hrest hmem

/-- Each byte from a cut on, but those of newlines, stands in a piece of a line. -/
theorem exists_mem_placedBetween [Layered σ] (h : Bounded text spans) {first : Nat}
    {rest : List Nat} (hcuts : first :: rest <:+ cuts text spans) {i : Nat} (hfirst : first ≤ i)
    (hi : i < text.utf8ByteSize) (hbyte : text.toByteArray[i]? ≠ some 10) :
    ∃ start content style,
      (start, .piece content style) ∈ placedBetween text spans (first :: rest) ∧
      start ≤ i ∧ i < start + content.utf8ByteSize := by
  induction rest generalizing first with
  | nil => exact absurd (le_of_singleton_isSuffix hcuts) (by omega)
  | cons stop rest ih =>
    have hpair : [first, stop] <:+: cuts text spans :=
      List.IsInfix.trans ⟨[], rest, rfl⟩ hcuts.isInfix
    obtain ⟨content, hcontent⟩ := Option.isSome_iff_exists.1 (isSome_slice?_cuts h hpair)
    have hstop := utf8ByteSize_of_slice? hcontent
    simp only at hstop
    rw [placedBetween, piecePart, slice_of_slice? hcontent]
    by_cases hlt : i < stop
    · have hne : content ≠ "\n" := by
        rintro rfl
        have hone : "\n".utf8ByteSize = 1 := by decide
        obtain ⟨a, b, rfl, ha, -⟩ := slice?_eq_some_iff.1 hcontent
        obtain rfl : i = a.utf8ByteSize := by
          simp only at ha
          omega
        exact hbyte (getElem?_newline a b)
      rw [if_neg hne]
      exact ⟨first, content, _, List.mem_append_left _ (List.mem_map.2
        ⟨_, List.mem_append_right _ (List.mem_singleton_self _), rfl⟩), hfirst, by omega⟩
    · obtain ⟨start, found, style, hmem, hin⟩ :=
        ih ((List.suffix_cons ..).trans hcuts) (by omega)
      exact ⟨start, found, style, List.mem_append_right _ hmem, hin⟩

/-- Each byte of a text but those of newlines is shown in a piece of a line, and every piece in
which it is shown has the style that is made of the layers at the byte, however styles are laid over
each other. -/
theorem pieces_styled_by_layers [Layered σ] (styled : StyledText (Attribute σ))
    (h : Bounded styled.text styled.spans.toList) :
    ∃ parts : List (List (Part σ)), toLines styled = parts.map (·.map Part.segment) ∧
      parts.map textOf = (styled.text.toList.splitOn '\n').map String.ofList ∧
      ∀ i b, styled.text.toByteArray[i]? = some b → b ≠ 10 →
        (∃ start content style, (start, .piece content style) ∈ placeLines 0 parts ∧
          start ≤ i ∧ i < start + content.utf8ByteSize) ∧
        ∀ start content style, (start, .piece content style) ∈ placeLines 0 parts →
          start ≤ i → i < start + content.utf8ByteSize →
          style = (layersAt styled i).foldl Layered.patch Layered.plain := by
  have hwidth : Bounded styled.text (byWidth styled.spans.toList) := fun span hspan =>
    h span ((byWidth_perm _).mem_iff.1 hspan)
  obtain ⟨parts, hlines, htext, hplace⟩ := exists_parts_toLines styled h
  refine ⟨parts, hlines, htext, fun i b hb hne => ⟨?_, ?_⟩⟩
  · obtain ⟨rest, hrest⟩ := exists_cuts_eq_cons styled.text (byWidth styled.spans.toList)
    obtain ⟨hi, -⟩ := getElem?_eq_some_iff.1 hb
    rw [String.size_toByteArray] at hi
    rw [hplace, hrest]
    refine exists_mem_placedBetween hwidth ⟨[], hrest.symm⟩ (Nat.zero_le i) hi ?_
    rw [hb]
    simpa using hne
  · intro start content style hmem hstart hstop
    rw [hplace] at hmem
    obtain ⟨huncut, rfl⟩ := uncut_of_mem_placedBetween hwidth (List.suffix_refl _) hmem
    rw [← huncut.styleAt_eq hstart hstop, styleAt_byWidth h]

/-- Of two spans over one character of two bytes the one that was attached last is laid over the
other one, also at the second byte. -/
theorem pieces_styled_by_layers_last :
    let red : Style := { foreground := some (.named .red) }
    let blue : Style := { foreground := some (.named .blue) }
    Bounded "é" [⟨.style red, ⟨0, 2⟩⟩, ⟨.style blue, ⟨0, 2⟩⟩] ∧
      ∃ parts : List (List (Part Style)),
        toLines ⟨"é", #[⟨.style red, ⟨0, 2⟩⟩, ⟨.style blue, ⟨0, 2⟩⟩]⟩ =
            parts.map (·.map Part.segment) ∧
        ∀ start content style, (start, .piece content style) ∈ placeLines 0 parts → start ≤ 1 →
          1 < start + content.utf8ByteSize → style.foreground = some (.named .blue) := by
  intro red blue
  have h : Bounded "é" [⟨.style red, ⟨0, 2⟩⟩, ⟨.style blue, ⟨0, 2⟩⟩] := by
    unfold Bounded
    decide
  obtain ⟨parts, hlines, -, hstyle⟩ := pieces_styled_by_layers ⟨"é", #[_, _]⟩ h
  refine ⟨h, parts, hlines, fun start content style hmem hstart hstop => ?_⟩
  rw [(hstyle 1 0xa9 rfl (by decide)).2 start content style hmem hstart hstop]
  rfl

end Viewer

end RuledMarkup
