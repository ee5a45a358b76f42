import RuledMarkup.Proofs.Viewer.Characters

/-!
# The segments of a line

A segment of a line is the bullet of a span or a piece of the text.  With the bullets left out, the
lines are those into which the newlines part the text, and each part of a line stands at a byte of
the text.  A bullet stands at the byte at which its span begins, and every piece is in one style.

## Main definitions

* `Part` : what a segment of a line is.
* `placeLines` : the parts of lines with the bytes at which they stand.
* `bulletPlaces` : the bullets of spans with the bytes at which they belong.
* `placedBetween` : what stands between the cuts of a text, line ends apart.
* `DrawnFrom` : lines of parts are what is drawn from one cut on.

## Main results

* `exists_drawnFrom` : from each cut on lines of parts are drawn.
* `exists_parts_toLines` : the lines of a text as parts.
* `filterMap_bullet?_placedBetween` : the bullets that stand between the cuts.
* `toLines_split_text` : the text and the bullets of the lines.
-/

namespace RuledMarkup

open Text Terminal

/-- The style of the bullet that the attribute asks for. -/
def Terminal.Attribute.bullet? {σ : Type} : Attribute σ → Option σ
  | .style _ => none
  | .bullet own => some own

namespace Viewer

/-! ### Parts of lines -/

/-- What a segment of a line is: a bullet, or a piece of the text. -/
inductive Part (σ : Type) where
  | bullet (style : σ)
  | piece (content : String) (style : σ)
deriving DecidableEq, Repr

variable {σ : Type}

namespace Part

/-- The segment that is shown. -/
def segment : Part σ → Segment σ
  | bullet style => ⟨"• ", style⟩
  | piece content style => ⟨content, style⟩

/-- The text of a part.  A bullet is not a part of the text. -/
def text : Part σ → String
  | bullet _ => ""
  | piece content _ => content

/-- The style of a bullet. -/
def bullet? : Part σ → Option σ
  | bullet style => some style
  | piece _ _ => none

end Part

/-- The text of a line, its bullets left out. -/
def textOf (line : List (Part σ)) : String := String.join (line.map Part.text)

/-- The parts of a line that begins at byte `i`, with the bytes at which they stand. -/
def placeLine (i : Nat) : List (Part σ) → List (Nat × Part σ)
  | [] => []
  | part :: line => (i, part) :: placeLine (i + part.text.utf8ByteSize) line

/-- The parts of lines from byte `i` on, with the bytes at which they stand.  Behind each line but
the last stands a newline. -/
def placeLines (i : Nat) : List (List (Part σ)) → List (Nat × Part σ)
  | [] => []
  | line :: lines => placeLine i line ++ placeLines (i + (textOf line).utf8ByteSize + 1) lines

@[simp] theorem textOf_nil : textOf ([] : List (Part σ)) = "" := rfl

@[simp] theorem textOf_cons (part : Part σ) (line : List (Part σ)) :
    textOf (part :: line) = part.text ++ textOf line := by
  simp [textOf, String.join_cons]

@[simp] theorem textOf_append (a b : List (Part σ)) : textOf (a ++ b) = textOf a ++ textOf b := by
  induction a with
  | nil => simp
  | cons part a ih => simp [ih, String.append_assoc]

theorem placeLine_append (i : Nat) (a b : List (Part σ)) :
    placeLine i (a ++ b) = placeLine i a ++ placeLine (i + (textOf a).utf8ByteSize) b := by
  induction a generalizing i with
  | nil => simp [placeLine]
  | cons part a ih => simp [placeLine, ih, Nat.add_assoc]

/-! ### Bullets -/

/-- The bullets of spans, with the bytes at which the spans begin. -/
def bulletPlaces (spans : List (AttributeSpan σ)) : List (Nat × σ) :=
  spans.filterMap fun span => span.style.bullet?.map (span.range.start, ·)

/-- The bullets that belong before byte `i`. -/
def bulletParts (spans : List (AttributeSpan σ)) (i : Nat) : List (Part σ) :=
  ((bulletPlaces spans).filter (·.1 = i)).map fun bullet => .bullet bullet.2

theorem map_segment_bulletParts (spans : List (AttributeSpan σ)) (i : Nat) :
    (bulletParts spans i).map Part.segment = bulletsAt spans i := by
  induction spans with
  | nil => rfl
  | cons span spans ih =>
    rw [bulletsAt] at ih ⊢
    rw [bulletParts, bulletPlaces] at ih ⊢
    rw [List.filterMap_cons, List.filterMap_cons, ← ih]
    cases span.style with
    | style => rfl
    | bullet => by_cases hi : span.range.start = i <;> simp [Attribute.bullet?, hi, Part.segment]

@[simp] theorem textOf_bulletParts (spans : List (AttributeSpan σ)) (i : Nat) :
    textOf (bulletParts spans i) = "" := by
  rw [bulletParts]
  induction (bulletPlaces spans).filter (·.1 = i) with
  | nil => rfl
  | cons bullet bullets ih => simp [ih, Part.text]

/-- Bullets take no room in the text. -/
theorem placeLine_bulletParts (spans : List (AttributeSpan σ)) (i j : Nat) :
    placeLine i (bulletParts spans j) = (bulletParts spans j).map (i, ·) := by
  rw [bulletParts]
  induction (bulletPlaces spans).filter (·.1 = j) with
  | nil => rfl
  | cons bullet bullets ih =>
    rw [List.map_cons, placeLine, List.map_cons, ← ih]
    simp [Part.text]

/-- Sorting a list by keys that are all different and among which are those of all its items. -/
theorem perm_flatMap_filter {α κ : Type} [DecidableEq κ] (key : α → κ) {keys : List κ}
    (hkeys : keys.Nodup) {l : List α} (hl : ∀ a ∈ l, key a ∈ keys) :
    (keys.flatMap fun k => l.filter (key · = k)).Perm l := by
  induction keys generalizing l with
  | nil =>
    rw [List.eq_nil_iff_forall_not_mem.2 fun a ha => List.not_mem_nil (hl a ha)]
    rfl
  | cons k keys ih =>
    obtain ⟨hk, hkeys⟩ := List.nodup_cons.1 hkeys
    have hothers : (keys.flatMap fun k => l.filter (key · = k)) =
        keys.flatMap fun k' => (l.filter fun a => !decide (key a = k)).filter (key · = k') := by
      refine List.flatMap_congr fun k' hk' => ?_
      rw [List.filter_filter]
      refine List.filter_congr fun a _ => ?_
      have hne : k' ≠ k := fun h => hk (h ▸ hk')
      by_cases ha : key a = k' <;> simp [ha, hne]
    rw [List.flatMap_cons, hothers]
    refine .trans (.append_left _ (ih hkeys fun a ha => ?_)) (List.filter_append_perm _ l)
    obtain ⟨ha, hne⟩ := List.mem_filter.1 ha
    exact (List.mem_cons.1 (hl a ha)).resolve_left (by simpa using hne)

/-! ### Lines as parts -/

variable {text : String} {spans : List (AttributeSpan σ)}

/-- What stands between two cuts; a line end is not a part of a line. -/
def piecePart [Layered σ] (text : String) (spans : List (AttributeSpan σ)) (range : ByteRange) :
    List (Part σ) :=
  if slice text range = "\n" then [] else [.piece (slice text range) (styleOf spans range)]

/-- What stands between cuts, with the bytes at which it stands. -/
def placedBetween [Layered σ] (text : String) (spans : List (AttributeSpan σ)) :
    List Nat → List (Nat × Part σ)
  | [] => []
  | [final] => (bulletParts spans final).map (final, ·)
  | start :: stop :: rest =>
    (bulletParts spans start ++ piecePart text spans ⟨start, stop⟩).map (start, ·) ++
      placedBetween text spans (stop :: rest)

/-- Segments at the beginning of a line. -/
theorem lines_segments_append {pieces : List (Piece σ)} {line : Line σ} {rest : List (Line σ)}
    (h : lines pieces = line :: rest) (segments : List (Segment σ)) :
    lines (segments.map .segment ++ pieces) = (segments ++ line) :: rest := by
  induction segments with
  | nil => exact h
  | cons segment segments ih => rw [List.map_cons, List.cons_append, lines, ih]; rfl

/-- Characters other than newlines belong to the line that they stand before. -/
theorem splitOn_append_of_not_mem {α : Type} [BEq α] [LawfulBEq α] {x : α} {a : List α}
    (ha : x ∉ a) (b : List α) : (a ++ b).splitOn x = (b.splitOn x).modifyHead (a ++ ·) := by
  induction a with
  | nil => exact (congrFun List.modifyHead_id _).symm
  | cons c a ih =>
    obtain ⟨hc, ha⟩ := not_or.1 (mt List.mem_cons.2 ha)
    have hne : (c == x) = false := beq_eq_false_iff_ne.2 (Ne.symm hc)
    rw [List.cons_append, List.splitOn_cons_eq_if_modifyHead, hne, ih ha,
      List.modifyHead_modifyHead]
    rfl

/-- Lines of parts are what is drawn from one cut on: they show the rest of the text, and each part
stands at its byte. -/
structure DrawnFrom [Layered σ] (text : String) (spans : List (AttributeSpan σ)) (start : Nat)
    (rest : List Nat) (more : String) (line : List (Part σ)) (others : List (List (Part σ))) :
    Prop where
  lines_eq : lines (piecesBetween text spans (start :: rest)) =
    (line :: others).map (·.map Part.segment)
  texts_eq : (line :: others).map textOf = (more.toList.splitOn '\n').map String.ofList
  places_eq : placeLines start (line :: others) = placedBetween text spans (start :: rest)

section DrawnFrom

variable [Layered σ] {start stop : Nat} {rest : List Nat} {content later : String}
  {line : List (Part σ)} {others : List (List (Part σ))}

/-- At the last cut there are bullets only. -/
theorem drawnFrom_last (text : String) (spans : List (AttributeSpan σ)) (start : Nat) :
    DrawnFrom text spans start [] "" (bulletParts spans start) [] where
  lines_eq := by
    rw [piecesBetween, ← List.append_nil (List.map _ _),
      lines_segments_append (show lines [] = [] :: [] from rfl), List.append_nil, List.map_cons,
      map_segment_bulletParts, List.map_nil]
  texts_eq := by simp [List.splitOn_nil]
  places_eq := by simp [placeLines, placedBetween, placeLine_bulletParts]

/-- A newline ends the line that consists of the bullets before it. -/
theorem DrawnFrom.newline (h : DrawnFrom text spans stop rest later line others)
    (hcontent : slice? text ⟨start, stop⟩ = some "\n") :
    DrawnFrom text spans start (stop :: rest) ("\n" ++ later) (bulletParts spans start)
      (line :: others) := by
  have hone : "\n".utf8ByteSize = 1 := by decide
  obtain rfl : start + "\n".utf8ByteSize = stop := utf8ByteSize_of_slice? hcontent
  refine ⟨?_, ?_, ?_⟩
  · rw [piecesBetween, pieceAt, slice_of_slice? hcontent, if_pos rfl,
      lines_segments_append (show lines (.lineEnd :: _) = [] :: _ from rfl), h.lines_eq,
      ← map_segment_bulletParts, List.append_nil]
    rfl
  · have hchars : "\n".toList = ['\n'] := rfl
    rw [List.map_cons, h.texts_eq, textOf_bulletParts, String.toList_append, hchars,
      List.singleton_append, List.splitOn_cons_eq_if_modifyHead, if_pos (by decide)]
    rfl
  · rw [placedBetween, piecePart, slice_of_slice? hcontent, ← h.places_eq]
    simp [placeLines, placeLine_bulletParts, hone]

/-- A piece without a newline is put before the line that begins behind it, with the bullets. -/
theorem DrawnFrom.piece (h : DrawnFrom text spans stop rest later line others)
    (hcontent : slice? text ⟨start, stop⟩ = some content) (hmem : '\n' ∉ content.toList) :
    DrawnFrom text spans start (stop :: rest) (content ++ later)
      (bulletParts spans start ++ .piece content (styleOf spans ⟨start, stop⟩) :: line) others := by
  obtain rfl : start + content.utf8ByteSize = stop := utf8ByteSize_of_slice? hcontent
  have hnewline : content ≠ "\n" := by
    rintro rfl
    exact hmem (by decide)
  refine ⟨?_, ?_, ?_⟩
  · have hpiece (segment : Segment σ) (pieces : List (Piece σ))
        (h : lines pieces = (line :: others).map (·.map Part.segment)) :
        lines (.segment segment :: pieces) =
          (segment :: line.map Part.segment) :: others.map (·.map Part.segment) := by
      rw [lines, h]
      rfl
    rw [piecesBetween, pieceAt, slice_of_slice? hcontent, if_neg hnewline,
      lines_segments_append (hpiece _ _ h.lines_eq), List.map_cons, List.map_append,
      map_segment_bulletParts, List.map_cons]
    rfl
  · have htext := h.texts_eq
    rw [String.toList_append, splitOn_append_of_not_mem hmem]
    cases hsplit : later.toList.splitOn '\n' with
    | nil => exact absurd hsplit (List.splitOn_ne_nil _ _)
    | cons first others' =>
      rw [hsplit, List.map_cons, List.map_cons] at htext
      obtain ⟨hfirst, hothers⟩ := List.cons_eq_cons.1 htext
      simp [hfirst, hothers, Part.text, String.ofList_append]
  · rw [placedBetween, piecePart, slice_of_slice? hcontent, if_neg hnewline, ← h.places_eq]
    simp [placeLines, placeLine_append, placeLine_bulletParts, placeLine, Part.text,
      Nat.add_assoc]

end DrawnFrom

/-- From one cut on lines of parts are drawn. -/
theorem exists_drawnFrom [Layered σ] (h : Bounded text spans) {start : Nat} {rest : List Nat}
    (hcuts : start :: rest <:+ cuts text spans) {more : String}
    (hmore : slice? text ⟨start, text.utf8ByteSize⟩ = some more) :
    ∃ line others, DrawnFrom text spans start rest more line others := by
  induction rest generalizing start more with
  | nil =>
    have hle := le_of_singleton_isSuffix hcuts
    have hsize : start + more.utf8ByteSize = text.utf8ByteSize := utf8ByteSize_of_slice? hmore
    obtain rfl : more = "" := String.utf8ByteSize_eq_zero_iff.1 (by omega)
    exact ⟨_, _, drawnFrom_last text spans start⟩
  | cons stop rest ih =>
    have hrest : stop :: rest <:+ cuts text spans := (List.suffix_cons ..).trans hcuts
    have hstop : isBoundary text stop = true :=
      isBoundary_of_mem_cuts h (hrest.subset (List.mem_cons_self ..))
    have hpair : [start, stop] <:+: cuts text spans :=
      List.IsInfix.trans ⟨[], rest, rfl⟩ hcuts.isInfix
    obtain ⟨content, hcontent⟩ := Option.isSome_iff_exists.1 (isSome_slice?_cuts h hpair)
    obtain ⟨later, -, -, hlater⟩ := exists_append_of_isBoundary hstop
    obtain rfl : more = content ++ later :=
      Option.some.inj (hmore.symm.trans (slice?_append hcontent hlater))
    obtain ⟨line, others, hdrawn⟩ := ih hrest hlater
    -- What stands between neighbouring cuts is a newline, or it has none in it.
    by_cases hmem : '\n' ∈ content.toList
    · obtain rfl := (uncut_of_isSuffix hcuts).eq_newline_of_mem hcontent hmem
      exact ⟨_, _, hdrawn.newline hcontent⟩
    · exact ⟨_, _, hdrawn.piece hcontent hmem⟩

/-- The lines of a text as parts that stand between its cuts. -/
theorem exists_parts_toLines [Layered σ] (styled : StyledText (Attribute σ))
    (h : Bounded styled.text styled.spans.toList) :
    ∃ parts : List (List (Part σ)), toLines styled = parts.map (·.map Part.segment) ∧
      parts.map textOf = (styled.text.toList.splitOn '\n').map String.ofList ∧
      placeLines 0 parts = placedBetween styled.text (byWidth styled.spans.toList)
        (cuts styled.text (byWidth styled.spans.toList)) := by
  have hwidth : Bounded styled.text (byWidth styled.spans.toList) := fun span hspan =>
    h span ((byWidth_perm _).mem_iff.1 hspan)
  obtain ⟨rest, hrest⟩ := exists_cuts_eq_cons styled.text (byWidth styled.spans.toList)
  obtain ⟨line, others, hdrawn⟩ := exists_drawnFrom hwidth ⟨[], hrest.symm⟩ (slice?_self _)
  rw [toLines, pieces, hrest]
  exact ⟨line :: others, hdrawn.lines_eq, hdrawn.texts_eq, hdrawn.places_eq⟩

/-- The bullets that stand between cuts, with the bytes at which they stand. -/
theorem filterMap_bullet?_placedBetween [Layered σ] (text : String) (spans : List (AttributeSpan σ))
    (cuts : List Nat) :
    (placedBetween text spans cuts).filterMap (fun part => part.2.bullet?.map (part.1, ·)) =
      cuts.flatMap fun i => (bulletPlaces spans).filter (·.1 = i) := by
  have hbullets (i : Nat) : ((bulletParts spans i).map (i, ·)).filterMap
      (fun part => part.2.bullet?.map (part.1, ·)) = (bulletPlaces spans).filter (·.1 = i) := by
    rw [bulletParts, List.map_map, List.filterMap_map]
    refine (List.filterMap_congr fun bullet hbullet => ?_).trans List.filterMap_some
    obtain ⟨-, hi⟩ := List.mem_filter.1 hbullet
    simp [Part.bullet?, ← of_decide_eq_true hi]
  induction cuts with
  | nil => rfl
  | cons start rest ih =>
    cases rest with
    | nil => rw [placedBetween, hbullets, List.flatMap_singleton]
    | cons stop rest =>
      have hpiece : ((piecePart text spans ⟨start, stop⟩).map (start, ·)).filterMap
          (fun part => part.2.bullet?.map (part.1, ·)) = [] := by
        rw [piecePart]
        split_ifs <;> rfl
      rw [placedBetween, List.map_append, List.filterMap_append, List.filterMap_append, hbullets,
        hpiece, ih, List.append_nil]
      rfl

/-- Every span that asks for a bullet begins at a cut. -/
theorem perm_bullets_placedBetween [Layered σ] (text : String) (spans : List (AttributeSpan σ)) :
    ((placedBetween text spans (cuts text spans)).filterMap
      fun part => part.2.bullet?.map (part.1, ·)).Perm (bulletPlaces spans) := by
  rw [filterMap_bullet?_placedBetween]
  refine perm_flatMap_filter _ ((pairwise_cuts text spans).imp Nat.ne_of_lt) ?_
  intro bullet hbullet
  obtain ⟨span, hspan, hbullet⟩ := List.mem_filterMap.1 hbullet
  obtain ⟨style, -, rfl⟩ := Option.map_eq_some_iff.1 hbullet
  exact mem_cuts.2 (.inr (.inr (.inl ⟨span, hspan, .inl rfl⟩)))

/-- There is one line more than there are separators. -/
theorem length_splitOn {α : Type} [BEq α] [LawfulBEq α] (x : α) (l : List α) :
    (l.splitOn x).length = l.count x + 1 := by
  induction l with
  | nil => rfl
  | cons a l ih =>
    rw [List.splitOn_cons_eq_if_modifyHead, List.count_cons]
    split <;> simp [ih]

/-- The lines of a text whose spans begin and end between characters.  There is one more of them
than there are newlines.  With the bullets left out they are the lines of the text, and the bullets
are those of the spans, each at the byte at which its span begins. -/
theorem toLines_split_text [Layered σ] (styled : StyledText (Attribute σ))
    (h : Bounded styled.text styled.spans.toList) :
    (toLines styled).length = styled.text.toList.count '\n' + 1 ∧
      ∃ parts : List (List (Part σ)), toLines styled = parts.map (·.map Part.segment) ∧
        parts.map textOf = (styled.text.toList.splitOn '\n').map String.ofList ∧
        ((placeLines 0 parts).filterMap fun part => part.2.bullet?.map (part.1, ·)).Perm
          (bulletPlaces styled.spans.toList) := by
  obtain ⟨parts, hlines, htext, hplace⟩ := exists_parts_toLines styled h
  refine ⟨?_, parts, hlines, htext, ?_⟩
  · rw [hlines, List.length_map, ← length_splitOn, ← List.length_map textOf, htext,
      List.length_map]
  · rw [hplace]
    exact (perm_bullets_placedBetween ..).trans ((byWidth_perm _).filterMap _)

/-- A text that is a single newline, with two bullets before it and one behind it: there are two
lines, and the first two bullets are on the first one. -/
theorem toLines_split_text_newline :
    Bounded "\n" [⟨.bullet ({} : Style), ⟨0, 0⟩⟩, ⟨.bullet {}, ⟨0, 1⟩⟩, ⟨.bullet {}, ⟨1, 1⟩⟩] ∧
      ∃ parts : List (List (Part Style)),
        toLines ⟨"\n", #[⟨.bullet {}, ⟨0, 0⟩⟩, ⟨.bullet {}, ⟨0, 1⟩⟩, ⟨.bullet {}, ⟨1, 1⟩⟩]⟩ =
          parts.map (·.map Part.segment) ∧
        parts.map textOf = ["", ""] ∧
        ((placeLines 0 parts).filterMap fun part => part.2.bullet?.map (part.1, ·)).Perm
          [(0, {}), (0, {}), (1, {})] := by
  have h : Bounded "\n"
      [⟨.bullet ({} : Style), ⟨0, 0⟩⟩, ⟨.bullet {}, ⟨0, 1⟩⟩, ⟨.bullet {}, ⟨1, 1⟩⟩] := by
    unfold Bounded
    decide
  exact ⟨h, (toLines_split_text ⟨"\n", #[_, _, _]⟩ h).2⟩

end Viewer

end RuledMarkup
