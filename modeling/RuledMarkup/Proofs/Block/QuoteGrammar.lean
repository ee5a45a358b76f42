import RuledMarkup.Block.Quote
import RuledMarkup.Inline.Rules
import RuledMarkup.Proofs.Pattern.Shortest

/-!
# Where a quote begins and ends

Three brackets quote the rest of the window and one bracket quotes the rest of the line.  The
pattern for quotes reads that in two alternatives, in each of which the space behind the brackets
may be left out.  The second alternative also reads one bracket where there are three, so that has
to be told apart afterwards.

## Main definitions

* `Block.Separates` : what stands between brackets and the text behind them.
* `Block.Quotation` : a text begins with a quote.

## Main results

* `Block.exists_matchQuote` : quotes are found, with their text.
* `Block.exists_quotation` : what is found is a quote.
* `Block.quoteRule_accepts_quotations` : the rule for quotes finds quotes at the starts of lines
  outside of quotes, and nothing else.
-/

namespace RuledMarkup.Block

open Text (byteSize)
open Regex (Prefers PrefersEach)

/-! ### Quotes -/

/-- What stands between brackets and the text behind them: a space, or nothing if the text does not
begin with a space or is nothing but a space. -/
def Separates (gap text : List Char) : Prop :=
  gap = [' '] ∨ gap = [] ∧ (text.head? = some ' ' → text = [' '])

/-- A text begins with a quote: it consists of what comes before the quoted text, the quoted text,
and what comes after it. -/
inductive Quotation : List Char → List Char → List Char → List Char → Prop
  /-- Three brackets quote everything behind them. -/
  | rest {indent gap text : List Char} (hindent : ∀ c ∈ indent, c = ' ') (htext : text ≠ [])
      (hgap : Separates gap text) :
      Quotation (indent ++ ['>', '>', '>'] ++ gap ++ text) (indent ++ ['>', '>', '>'] ++ gap) text
        []
  /-- One bracket that is not the first of three quotes the rest of the line, with its end. -/
  | line {indent gap text finish after : List Char} (hindent : ∀ c ∈ indent, c = ' ')
      (htext : text ≠ []) (hline : '\n' ∉ text) (hgap : Separates gap text)
      (hfinish : finish = ['\n'] ∨ finish = [] ∧ after = [])
      (hmarker : ¬ ['>', '>'] <+: gap ++ (text ++ finish) ++ after) :
      Quotation (indent ++ ['>'] ++ gap ++ (text ++ finish) ++ after) (indent ++ ['>'] ++ gap)
        (text ++ finish) after

/-- A text that is not empty can be parted from the brackets before it. -/
theorem exists_separates {text : List Char} (htext : text ≠ []) :
    ∃ gap inner, text = gap ++ inner ∧ inner ≠ [] ∧ Separates gap inner := by
  by_cases hspace : ∃ c rest, text = ' ' :: c :: rest
  · obtain ⟨c, rest, rfl⟩ := hspace
    exact ⟨[' '], c :: rest, rfl, List.cons_ne_nil _ _, .inl rfl⟩
  · refine ⟨[], text, rfl, htext, .inr ⟨rfl, fun hhead => ?_⟩⟩
    obtain ⟨rest, rfl⟩ := List.head?_eq_some_iff.1 hhead
    cases rest with
    | nil => rfl
    | cons c rest => exact absurd ⟨c, rest, rfl⟩ hspace

/-- Three brackets and a character behind them are a quote. -/
theorem exists_quotation_rest {indent text : List Char} (hindent : ∀ c ∈ indent, c = ' ')
    (htext : text ≠ []) :
    ∃ before content after, Quotation (indent ++ ['>', '>', '>'] ++ text) before content after := by
  obtain ⟨gap, text, rfl, hne, hgap⟩ := exists_separates htext
  rw [← List.append_assoc]
  exact ⟨_, _, _, .rest hindent hne hgap⟩

/-- The first line of a text, with its end. -/
theorem exists_line (text : List Char) : ∃ line finish after, text = line ++ finish ++ after ∧
    line = text.takeWhile (· ≠ '\n') ∧ '\n' ∉ line ∧
    (finish = ['\n'] ∨ finish = [] ∧ after = []) := by
  obtain ⟨line, rest, rfl, hline, hrest⟩ := Text.exists_run (· ≠ '\n') text
  have hbegin := (Text.takeWhile_append_of_head? hline hrest).symm
  have hmem : '\n' ∉ line := fun hmem => by simpa using hline _ hmem
  cases rest with
  | nil => exact ⟨line, [], [], by simp, hbegin, hmem, .inr ⟨rfl, rfl⟩⟩
  | cons c after =>
    obtain rfl : c = '\n' := by simpa using hrest c rfl
    exact ⟨line, ['\n'], after, by simp, hbegin, hmem, .inl rfl⟩

/-- One bracket that is not the first of three, and a character of the line behind it, are a
quote. -/
theorem exists_quotation_line {indent rest : List Char} {c : Char}
    (hindent : ∀ c ∈ indent, c = ' ') (hc : c ≠ '\n') (hmarker : ¬ ['>', '>'] <+: c :: rest) :
    ∃ before content after, Quotation (indent ++ ['>'] ++ c :: rest) before content after := by
  obtain ⟨line, finish, after, hsplit, hbegin, hline, hfinish⟩ := exists_line (c :: rest)
  have hne : line ≠ [] := by
    rw [hbegin, List.takeWhile_cons_of_pos (by simpa using hc)]
    exact List.cons_ne_nil _ _
  obtain ⟨gap, text, rfl, htext, hgap⟩ := exists_separates hne
  rw [List.append_assoc gap] at hsplit
  rw [hsplit] at hmarker ⊢
  rw [← List.append_assoc (indent ++ ['>']), ← List.append_assoc (indent ++ ['>'])]
  exact ⟨_, _, _, .line hindent htext (fun hmem => hline (List.mem_append_right gap hmem)) hgap
    hfinish hmarker⟩

/-! ### The two alternatives -/

/-- Three brackets and everything behind them, as the pattern reads them. -/
def restBranch : Regex :=
  .cat (.set (.one '>')) (.cat (.set (.one '>')) (.cat (.set (.one '>'))
    (.cat (.loop true 0 (some 1) (.set (.one ' ')))
      (.group 1 none (.loop true 1 none (.set .any))))))

/-- One bracket and the rest of the line, as the pattern reads them. -/
def lineBranch : Regex :=
  .cat (.set (.one '>')) (.cat (.loop true 0 (some 1) (.set (.one ' ')))
    (.group 2 none (.cat (.loop true 1 none (.set (.compl (.one '\n'))))
      (.loop true 0 (some 1) (.set (.one '\n'))))))

/-- A pattern reads spaces and then one of the alternatives. -/
structure QuoteForm (pattern : Pattern) : Prop where
  isAnchored : pattern.regex.isAnchored = true
  items : pattern.regex.items =
    [.look .start, .loop true 0 none (.set (.one ' ')), .alt restBranch lineBranch]
  ahead? : pattern.ahead? = none

theorem quoteForm : QuoteForm quote := by constructor <;> decide +kernel

section Branches

variable {pre gap text finish post : List Char} {r : Regex} {bindings : Bindings}

/-- The preferred way through what stands between brackets and their text, and through the text: if
nothing can be read behind the text, then a space at the beginning of the text belongs to it when it
is all there is. -/
theorem prefers_gap (hgap : Separates gap text) (htext : text ≠ [])
    (h : r.Prefers (pre ++ gap) (text ++ finish) post bindings)
    (hnone : ∀ u v inner, finish ++ post = u ++ v → ¬ r.Reads (pre ++ [' ']) u v inner) :
    (Regex.cat (.loop true 0 (some 1) (.set (.one ' '))) r).Prefers pre (gap ++ (text ++ finish))
      post bindings := by
  rcases hgap with rfl | ⟨rfl, hspace⟩
  · have hset : (Regex.set (.one ' ')).Prefers pre [' '] (text ++ finish ++ post) [] :=
      Regex.prefers_set rfl
    simpa using hset.optional.cat h
  · rw [List.append_nil] at h
    refine h.optional_set_cat fun c rest hrest hc u v inner huv => ?_
    obtain rfl : c = ' ' := by simpa [CharSet.mem] using hc
    obtain ⟨d, inside, rfl⟩ := List.exists_cons_of_ne_nil htext
    simp only [List.cons_append, List.append_assoc, List.cons.injEq] at hrest
    obtain ⟨rfl, hrest⟩ := hrest
    obtain rfl : inside = [] := by simpa using hspace rfl
    exact hnone u v inner (by simpa [huv] using hrest)

/-- The preferred way through three brackets and what is behind them. -/
theorem prefers_restBranch (hgap : Separates gap text) (htext : text ≠ []) :
    restBranch.Prefers pre (['>', '>', '>'] ++ gap ++ text) []
      [(1, ⟨byteSize (pre ++ ['>', '>', '>'] ++ gap),
        byteSize (pre ++ ['>', '>', '>'] ++ gap ++ text)⟩)] := by
  have hbracket (pre post : List Char) : (Regex.set (.one '>')).Prefers pre ['>'] post [] :=
    Regex.prefers_set rfl
  have hrun : (Regex.loop true 1 none (.set .any)).Prefers (pre ++ ['>', '>', '>'] ++ gap)
      (text ++ []) [] [] :=
    Regex.prefers_run (List.length_pos_iff.2 (by simpa using htext)) (fun _ _ => rfl) (by simp)
  have hbehind := prefers_gap hgap htext (hrun.group 1 none) fun u v inner huv hreads => by
    obtain ⟨inner', -, hreads⟩ := hreads
    obtain ⟨rfl, -⟩ := List.append_eq_nil_iff.1 huv.symm
    exact Nat.not_succ_le_zero 0 (Regex.reads_run_iff.1 hreads).1
  rw [List.append_nil] at hbehind
  have := (hbracket pre _).cat ((hbracket _ _).cat ((hbracket _ _).cat (by simpa using hbehind)))
  simpa [restBranch] using this

/-- A line is read with a character that does not end it. -/
theorem exists_of_reads_line (h : (Regex.group 2 none (.cat
    (.loop true 1 none (.set (.compl (.one '\n'))))
    (.loop true 0 (some 1) (.set (.one '\n'))))).Reads pre text post bindings) :
    ∃ c behind, text = c :: behind ∧ c ≠ '\n' := by
  obtain ⟨_, -, line, finish, _, _, rfl, -, hline, -⟩ := h
  obtain ⟨hlength, hmem, -⟩ := Regex.reads_run_iff.1 hline
  obtain ⟨c, behind, rfl⟩ := List.exists_cons_of_length_pos hlength
  exact ⟨c, behind ++ finish, rfl, by simpa [CharSet.mem] using hmem c List.mem_cons_self⟩

/-- The preferred way through one bracket and the line behind it. -/
theorem prefers_lineBranch (hgap : Separates gap text) (htext : text ≠ []) (hline : '\n' ∉ text)
    (hfinish : finish = ['\n'] ∨ finish = [] ∧ post = []) :
    lineBranch.Prefers pre (['>'] ++ gap ++ (text ++ finish)) post
      [(2, ⟨byteSize (pre ++ ['>'] ++ gap),
        byteSize (pre ++ ['>'] ++ gap ++ (text ++ finish))⟩)] := by
  have hset : ∀ c ∈ text, (CharSet.compl (.one '\n')).mem c = true := by
    rintro c hc
    simpa [CharSet.mem] using ne_of_mem_of_not_mem hc hline
  have hends : ∀ c ∈ (finish ++ post).head?, c = '\n' := by
    rcases hfinish with rfl | ⟨rfl, rfl⟩ <;> simp
  have hrun : (Regex.loop true 1 none (.set (.compl (.one '\n')))).Prefers (pre ++ ['>'] ++ gap)
      text (finish ++ post) [] :=
    Regex.prefers_run (List.length_pos_iff.2 htext) hset fun c hc => by
      rw [hends c hc]
      rfl
  have hend : (Regex.loop true 0 (some 1) (.set (.one '\n'))).Prefers (pre ++ ['>'] ++ gap ++ text)
      finish post [] := by
    rcases hfinish with rfl | ⟨rfl, rfl⟩
    · exact (Regex.prefers_set rfl).optional
    · exact Regex.prefers_optional_set (by simp)
  have hbracket : (Regex.set (.one '>')).Prefers pre ['>'] (gap ++ (text ++ finish) ++ post) [] :=
    Regex.prefers_set rfl
  have hbehind := prefers_gap hgap htext ((hrun.cat hend).group 2 none)
    fun u v inner huv hreads => by
      obtain ⟨c, behind, rfl, hc⟩ := exists_of_reads_line hreads
      exact hc (hends c (by rw [huv]; rfl))
  simpa [lineBranch] using hbracket.cat hbehind

/-- Three brackets are read with a character behind them. -/
theorem exists_of_reads_restBranch (h : restBranch.Reads pre text post bindings) :
    ∃ behind, text = ['>', '>', '>'] ++ behind ∧ behind ≠ [] := by
  rw [restBranch, ← Regex.readsEach_items] at h
  simp only [Regex.items, Regex.readsEach_one_cons] at h
  obtain ⟨-, rfl, -, rfl, behind, rfl, h⟩ := h
  exact ⟨behind, rfl, Regex.ne_nil_of_any_isNonempty (by decide) h⟩

/-- One bracket is read with a character of its line behind it. -/
theorem exists_of_reads_lineBranch (h : lineBranch.Reads pre text post bindings) :
    ∃ c behind, text = '>' :: c :: behind ∧ c ≠ '\n' := by
  rw [lineBranch, ← Regex.readsEach_items] at h
  simp only [Regex.items, Regex.readsEach_one_cons] at h
  obtain ⟨-, rfl, gap, line, _, _, rfl, -, hgap, hline⟩ := h
  rw [Regex.readsEach_singleton] at hline
  obtain ⟨c, behind, rfl, hc⟩ := exists_of_reads_line hline
  cases gap with
  | nil => exact ⟨c, behind, rfl, hc⟩
  | cons d gap =>
    rw [← Regex.readsEach_singleton] at hgap
    have hd : d ∈ [' '] := Regex.forall_mem_of_all_isWithin (by decide) hgap d List.mem_cons_self
    obtain rfl := List.mem_singleton.1 hd
    exact ⟨' ', gap ++ c :: behind, rfl, by decide⟩

end Branches

/-! ### What is found -/

section Found

variable {pattern : Pattern} {window : String} {captures : Captures}
  {before content after : List Char}

/-- A text has a long marker if three brackets come behind its spaces. -/
theorem hasLongMarker_iff :
    hasLongMarker window = true ↔ ['>', '>', '>'] <+: window.toList.dropWhile (· == ' ') := by
  rw [hasLongMarker]
  split
  · rename_i rest heq
    simp [heq]
  · rename_i hne
    simp only [Bool.false_eq_true, false_iff]
    rintro ⟨rest, hrest⟩
    exact hne rest hrest.symm

theorem hasLongMarker_bracket {indent rest : List Char} (hindent : ∀ c ∈ indent, c = ' ')
    (hwindow : window.toList = indent ++ ['>'] ++ rest) :
    hasLongMarker window = true ↔ ['>', '>'] <+: rest := by
  have hdrop : window.toList.dropWhile (· == ' ') = '>' :: rest := by
    rw [hwindow, List.append_assoc, List.dropWhile_append_of_pos (by simpa using hindent)]
    rfl
  rw [hasLongMarker_iff, hdrop, List.cons_prefix_cons]
  simp

/-- The match of the pattern, if the way through the two alternatives is known that is preferred. -/
theorem QuoteForm.exists_matchStart (hpattern : QuoteForm pattern) {indent word : List Char}
    {group : Nat}
    (hindent : ∀ c ∈ indent, c = ' ') (hword : word.head? = some '>')
    (hwindow : window.toList = indent ++ word ++ after)
    (hsplit : indent ++ word = before ++ content) (hgroup : group ≠ 0)
    (h : (Regex.alt restBranch lineBranch).Prefers indent word after
      [(group, ⟨byteSize before, byteSize (before ++ content)⟩)]) :
    ∃ captures, pattern.matchStart window = some captures ∧
      captures.Frames group before content [] ∧
      ∀ other, other ≠ 0 → other ≠ group → captures.range? other = none := by
  have hstart : (Regex.look .start).Prefers [] [] (indent ++ word ++ after) [] :=
    Regex.prefers_look rfl
  have hspaces : (Regex.loop true 0 none (.set (.one ' '))).Prefers [] indent (word ++ after)
      [] := by
    obtain ⟨rest, rfl⟩ := List.head?_eq_some_iff.1 hword
    exact Regex.prefers_run (Nat.zero_le _) (by simpa [CharSet.mem] using hindent)
      (by simp [CharSet.mem])
  have hparts : PrefersEach
      [.look .start, .loop true 0 none (.set (.one ' ')), .alt restBranch lineBranch] []
      (indent ++ word) after [(group, ⟨byteSize before, byteSize (before ++ content)⟩)] := by
    refine ⟨[], _, [], _, rfl, (List.append_nil _).symm, by simpa using hstart, ?_⟩
    refine ⟨indent, word, [], _, rfl, (List.append_nil _).symm, by simpa using hspaces, ?_⟩
    exact ⟨word, [], _, [], by simp, rfl, by simpa using h, rfl, rfl⟩
  obtain ⟨stop, hstop, hreads, hmatch⟩ :=
    Pattern.exists_preferred hpattern.isAnchored hpattern.items hwindow hparts
  refine ⟨_, hmatch, ?_, fun other hzero hother => ?_⟩
  · have hframed : window.toList = before ++ content ++ [] ++ after := by
      rw [hwindow, hsplit, List.append_nil]
    refine Pattern.frames_captures hreads hgroup List.lookup_cons_self hframed ?_
    rw [Pattern.size_of_ahead?_eq_none hpattern.ahead?, hstop.offset_eq, hsplit, List.append_nil]
  · rw [Pattern.range?_captures hreads hzero]
    simp [List.lookup_cons, beq_eq_false_iff_ne.2 hother]

/-- Quotes are found, with their text. -/
theorem exists_matchQuote (h : Quotation window.toList before content after) :
    ∃ captures, matchQuote window = some captures ∧
      (captures.Frames 1 before content [] ∨
        captures.range? 1 = none ∧ captures.Frames 2 before content []) := by
  generalize hwindow : window.toList = text at h
  cases h with
  | @rest indent gap text hindent htext hgap =>
    have hbranch : restBranch.Prefers indent _ _ _ := prefers_restBranch hgap htext
    have hsplit : window.toList = indent ++ (['>', '>', '>'] ++ gap ++ content) ++ [] := by
      simpa using hwindow
    obtain ⟨captures, hmatch, hframes, -⟩ := quoteForm.exists_matchStart hindent rfl hsplit
      (by simp) (Nat.succ_ne_zero 0) (hbranch.alt_left lineBranch)
    refine ⟨captures, ?_, .inl hframes⟩
    rw [matchQuote, hmatch]
    simp [hframes.range?_eq]
  | @line indent gap text finish after hindent htext hline hgap hfinish hmarker =>
    have hlong : hasLongMarker window = false := by
      rw [← Bool.not_eq_true, hasLongMarker_bracket hindent (by simpa using hwindow)]
      simpa using hmarker
    have hbranch : lineBranch.Prefers indent _ _ _ :=
      prefers_lineBranch hgap htext hline hfinish
    have hsplit : window.toList = indent ++ (['>'] ++ gap ++ (text ++ finish)) ++ after := by
      simpa using hwindow
    have hnone : ∀ u v inner, ['>'] ++ gap ++ (text ++ finish) ++ after = u ++ v →
        ¬ restBranch.Reads indent u v inner := by
      intro u v inner huv hreads
      obtain ⟨behind, rfl, -⟩ := exists_of_reads_restBranch hreads
      refine hmarker ⟨behind ++ v, ?_⟩
      simpa using huv.symm
    obtain ⟨captures, hmatch, hframes, hother⟩ := quoteForm.exists_matchStart hindent rfl hsplit
      (by simp) (Nat.succ_ne_zero 1) (hbranch.alt_right_of_not_reads hnone)
    have hrange := hother 1 (by decide) (by decide)
    refine ⟨captures, ?_, .inr ⟨hrange, hframes⟩⟩
    rw [matchQuote, hmatch]
    simp [hlong]

/-- A match has read spaces and then one of the alternatives, of which the second one leaves out
group one. -/
theorem QuoteForm.exists_reads (hpattern : QuoteForm pattern)
    (h : pattern.matchStart window = some captures) :
    ∃ indent word after, window.toList = indent ++ word ++ after ∧ (∀ c ∈ indent, c = ' ') ∧
      ((∃ bindings, restBranch.Reads indent word after bindings) ∨
        (∃ bindings, lineBranch.Reads indent word after bindings) ∧
          captures.range? 1 = none) := by
  obtain ⟨stop, bindings, word, rest, rfl, hwindow, -, hreads⟩ :=
    Pattern.exists_reads_of_matchStart hpattern.isAnchored h
  have hparts := hreads
  rw [← Regex.readsEach_items, hpattern.items, Regex.readsEach_start_cons] at hparts
  obtain ⟨indent, word, _, inner, rfl, rfl, hspaces, hbranches⟩ := hparts
  rw [Regex.readsEach_singleton] at hbranches
  obtain ⟨-, hindent, rfl⟩ := Regex.reads_run_iff.1 hspaces
  refine ⟨indent, word, rest, hwindow, by simpa [CharSet.mem] using hindent, ?_⟩
  rcases hbranches with hbranch | hbranch
  · exact .inl ⟨_, hbranch⟩
  · refine .inr ⟨⟨_, hbranch⟩, ?_⟩
    rw [Pattern.range?_captures hreads (Nat.succ_ne_zero 0), List.append_nil]
    exact Regex.lookup_eq_none (by rwa [Regex.readsEach_singleton]) (by decide)

/-- What is found is a quote. -/
theorem exists_quotation (h : matchQuote window = some captures) :
    ∃ before content after, Quotation window.toList before content after := by
  rw [matchQuote] at h
  cases hmatch : quote.matchStart window with
  | none => simp [hmatch] at h
  | some found =>
    obtain ⟨indent, word, after, hwindow, hindent, hbranch⟩ := quoteForm.exists_reads hmatch
    rcases hbranch with ⟨_, hbranch⟩ | ⟨⟨_, hbranch⟩, hrange⟩
    · obtain ⟨behind, rfl, hbehind⟩ := exists_of_reads_restBranch hbranch
      rw [hwindow]
      simpa using exists_quotation_rest hindent (List.append_ne_nil_of_left_ne_nil hbehind after)
    · obtain ⟨c, behind, rfl, hc⟩ := exists_of_reads_lineBranch hbranch
      have hbracket : window.toList = indent ++ ['>'] ++ c :: (behind ++ after) := by
        simpa using hwindow
      rw [hbracket]
      refine exists_quotation_line hindent hc fun hmarker => ?_
      simp [hmatch, hrange, (hasLongMarker_bracket hindent hbracket).2 hmarker] at h

end Found

/-- The rule for quotes finds a quote outside of quotes at the start of a line, and nothing else.
It consumes the quote up to the end of its text, and that text is parsed inside the quote. -/
theorem quoteRule_accepts_quotations {R T S : Type} [QuoteState S] (styles : List T)
    (window : String) (last : Option String) (state : S) :
    (((quoteRule styles : Rule R T S).tryMatch window last state).isSome = true ↔
      QuoteState.inQuote state = false ∧ (∀ text ∈ last, text.endsWith '\n' = true) ∧
        ∃ before content after, Quotation window.toList before content after) ∧
    ∀ captures, (quoteRule styles : Rule R T S).tryMatch window last state = some captures →
      ∀ before content after, Quotation window.toList before content after →
        captures.consumed.toList = before ++ content ∧
        (quoteRule styles : Rule R T S).build captures state =
          .quiet (.ok (.nonterminal (.style styles []) (QuoteState.setInQuote true state)
            ⟨byteSize before, byteSize (before ++ content)⟩)) := by
  have htry : (quoteRule styles : Rule R T S).tryMatch window last state =
      if startsLine last then
        if QuoteState.inQuote state then none else matchQuote window
      else none := rfl
  have hlast : startsLine last = true ↔ ∀ text ∈ last, text.endsWith '\n' = true := by
    cases last <;> simp [startsLine]
  constructor
  · rw [htry, ← hlast]
    constructor
    · intro hsome
      split_ifs at hsome with hline hquote
      · cases hsome
      · obtain ⟨captures, hmatch⟩ := Option.isSome_iff_exists.1 hsome
        exact ⟨by simpa using hquote, hline, exists_quotation hmatch⟩
      · cases hsome
    · rintro ⟨hquote, hline, before, content, after, hquotation⟩
      obtain ⟨captures, hmatch, -⟩ := exists_matchQuote hquotation
      simp [hline, hquote, hmatch]
  · intro captures hmatch before content after hquotation
    obtain ⟨found, hfound, hframes⟩ := exists_matchQuote hquotation
    rw [htry] at hmatch
    split_ifs at hmatch with hline hquote
    obtain rfl := Option.some.inj (hfound.symm.trans hmatch)
    rcases hframes with hframes | ⟨hnone, hframes⟩
    · exact ⟨by simpa using hframes.toList_consumed,
        by simp only [quoteRule, Rule.atLineStart, hframes.range?_eq, Except.map]⟩
    · refine ⟨by simpa using hframes.toList_consumed, ?_⟩
      have hspan := Captures.span_of_range? hframes.range?_eq
      simp only [quoteRule, Rule.atLineStart, hnone, hspan, Except.map]

/-- The space behind a bracket is quoted if nothing else is on its line. -/
theorem quoteRule_accepts_quotations_blank_line :
    ∃ captures, (quoteRule [.italic] : Rule Unit TextStyle Bool).tryMatch " > \nx" none false =
        some captures ∧
      captures.consumed = " > \n" ∧
      (quoteRule [.italic] : Rule Unit TextStyle Bool).build captures false =
        .quiet (.ok (.nonterminal (.style [.italic] []) true ⟨2, 4⟩)) := by
  have hquotation : Quotation " > \nx".toList [' ', '>'] [' ', '\n'] ['x'] :=
    @Quotation.line [' '] [] [' '] ['\n'] ['x'] (by simp) (by simp) (by decide)
      (.inr ⟨rfl, fun _ => rfl⟩) (.inl rfl) (by decide)
  obtain ⟨hsome, hfound⟩ := quoteRule_accepts_quotations (R := Unit) [TextStyle.italic] " > \nx"
    none false
  obtain ⟨captures, hmatch⟩ := Option.isSome_iff_exists.1
    (hsome.2 ⟨rfl, by simp, _, _, _, hquotation⟩)
  obtain ⟨hconsumed, hbuild⟩ := hfound captures hmatch _ _ _ hquotation
  exact ⟨captures, hmatch, String.toList_inj.1 hconsumed, hbuild⟩

end RuledMarkup.Block
