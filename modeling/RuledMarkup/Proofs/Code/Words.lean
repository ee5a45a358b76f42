import RuledMarkup.Proofs.Code.Verbatim
import RuledMarkup.Proofs.Inline.Matches
import RuledMarkup.Proofs.Parse.Sequential
import RuledMarkup.Proofs.Pattern.WordEdges

/-!
# Highlighted words

A keyword, a built-in name or a number is looked for at the start of a window, and its pattern asks
for the edge of a word there.  What stands before the window is not seen.  The rules for code ask
for no spans, so a window begins where the rule before it has stopped: where no word goes on, or
before a character that no highlighted word begins with.  The rule for text may also stop within a
word, if a colon and something other than white space come after the word.

## Main definitions

* `Code.wordRules` : the rules for keywords, built-in names and numbers.
* `Code.TokenEnd` : where the rules for code stop.

## Main results

* `Code.stopsAt_of_mem_tables` : the rules for code stop at such places.
* `Code.highlighted_words_are_whole` : what is highlighted as a word is a whole word, unless a colon
  and something other than white space come after it.
* `Code.not_highlighted_words_are_whole` : it need not be a whole word otherwise.
-/

namespace RuledMarkup.Code

open Inline (ordinary textEnd)
open Text (CutsWord byteSize isSpace isWord)

variable {R T S : Type} {window : String} {captures : Captures} {last : Option Char}
  {pre word post rest : List Char} {bindings : Bindings}

/-! ### Where tokens end -/

/-- A character of highlighted words: an ordinary one that is a word character. -/
def wordChar (c : Char) : Bool := isWord c && ordinary.mem c

/-- The text begins with a word, or nothing, before a colon and something other than white space. -/
def BeginsWithLabel (text : List Char) : Prop :=
  ∃ word c rest, text = word ++ ':' :: c :: rest ∧ (∀ d ∈ word, isWord d = true) ∧
    isSpace c = false

/-- Where a word goes on with a character of highlighted words, a label begins. -/
def TokenEnd (last : Option Char) (rest : List Char) : Prop :=
  last.any isWord = true → rest.head?.any wordChar = true → BeginsWithLabel rest

theorem tokenEnd_of_not_cutsWord {before after : List Char} (h : ¬ CutsWord before after) :
    TokenEnd before.getLast? after := by
  intro hlast hhead
  obtain ⟨c, hc, hword⟩ := (Option.any_eq_true _ _).1 hhead
  exact absurd ⟨hlast, (Option.any_eq_true _ _).2 ⟨c, hc, (Bool.and_eq_true_iff.1 hword).1⟩⟩ h

theorem tokenEnd_cons {c : Char} (hc : wordChar c = false) (rest : List Char) :
    TokenEnd last (c :: rest) := by
  intro _ hhead
  cases hc.symm.trans hhead

/-- Where text ends: what the group that looks ahead reads stands there. -/
theorem tokenEnd_of_reads
    (h : (Regex.alt (.look .wordEdge) textEnd).Reads pre word post bindings) :
    TokenEnd pre.getLast? (word ++ post) := by
  rcases h with hedge | ⟨c, rfl, hc, -⟩ | hline | hspaces |
    ⟨u, _, _, _, rfl, -, ⟨n, -, -, hu⟩, hlabel⟩ | hfinish
  · obtain ⟨rfl, -⟩ := id hedge
    have hapart := Regex.not_cutsWord_of_reads (r := .look .wordEdge) rfl hedge
    exact tokenEnd_of_not_cutsWord (by simpa using hapart)
  · have hnot : ordinary.mem c = false := by simpa [CharSet.mem] using hc
    exact tokenEnd_cons (by rw [wordChar, hnot, Bool.and_false]) post
  · exact tokenEnd_of_not_cutsWord (Regex.not_cutsWord_of_opens (by decide) hline pre)
  · exact tokenEnd_of_not_cutsWord (Regex.not_cutsWord_of_opens (by decide) hspaces pre)
  · obtain ⟨_, _, _, _, rfl, -, ⟨colon, rfl, hcolon, -⟩, c, rfl, hc, -⟩ := hlabel
    obtain rfl : colon = ':' := by simpa [CharSet.mem] using hcolon
    intro _ _
    refine ⟨u, c, post, by simp, ?_, by simpa [CharSet.mem] using hc⟩
    refine Regex.Reading.forall_mem_times (fun hreads d hd => ?_) hu
    obtain ⟨d', rfl, hd', -⟩ := hreads
    rwa [List.mem_singleton.1 hd]
  · exact tokenEnd_of_not_cutsWord (Regex.not_cutsWord_of_opens (by decide) hfinish pre)

/-! ### Patterns -/

/-- Is it plain that all characters of the set are characters of highlighted words? -/
def isWordSet : CharSet → Bool
  | .one c => wordChar c
  | .digit => true
  | _ => false

/-- A decimal digit is ordinary. -/
theorem ordinary_of_isDigit {c : Char} (hc : Text.isDigit c = true) : ordinary.mem c = true := by
  simp only [ordinary, CharSet.mem, Bool.or_eq_true, Bool.and_eq_true, decide_eq_true_eq]
  rcases Text.le_of_isDigit hc with hdigit | hle
  · have hrange : '0' ≤ c ∧ c ≤ '9' := by
      simpa [Char.isDigit, Char.le_def] using hdigit
    simp only [hrange, true_and, true_or]
  · have hlast : c.toNat < 0x110000 := by
      rcases c.valid with h | h
      · exact Nat.lt_trans h (by decide)
      · exact h.2
    exact .inr ⟨hle, Nat.le_of_lt_succ hlast⟩

theorem wordChar_of_isWordSet {s : CharSet} (hs : isWordSet s = true) {c : Char}
    (hc : s.mem c = true) : wordChar c = true := by
  cases s with
  | one d =>
    obtain rfl : c = d := by simpa [CharSet.mem] using hc
    exact hs
  | digit => rw [wordChar, Text.isWord_of_isDigit hc, ordinary_of_isDigit hc, Bool.and_true]
  | _ => cases hs

/-- Are all characters that the pattern consumes characters of highlighted words? -/
def readsWord (pattern : Pattern) : Bool :=
  pattern.isAdvancing && pattern.regex.strands.all fun strand =>
    (pattern.consuming strand).all (·.eachSet isWordSet)

/-- A match is a word, or a part of one. -/
theorem wordChar_of_readsWord {pattern : Pattern} (hpattern : readsWord pattern = true)
    (h : pattern.matchStart window = some captures) :
    ∀ c ∈ captures.consumed.toList, wordChar c = true := by
  obtain ⟨hadvancing, hstrands⟩ := Bool.and_eq_true_iff.1 hpattern
  obtain ⟨strand, hmem, bindings, hconsumed⟩ :=
    Pattern.exists_consumed (Bool.and_eq_true_iff.1 hadvancing).1 h
  obtain ⟨post, -, hreads⟩ := hconsumed.reads
  exact Regex.forall_mem_of_all_eachSet (p := (wordChar · = true))
    (fun hs _ hc => wordChar_of_isWordSet hs hc) (List.all_eq_true.1 hstrands strand hmem) hreads

/-- What the patterns show about words. -/
structure WordShapes : Prop where
  patterns_keepWords : ∀ pattern ∈ patterns, pattern.keepsWords = true ∨ pattern = text
  lexicons_keepWords : ∀ lexicon ∈ lexicons, lexicon.definitions.keepsWords = true ∧
    lexicon.builtIns.keepsWords = true ∧ lexicon.keywords.keepsWords = true
  lexicons_readWords : ∀ lexicon ∈ lexicons, readsWord lexicon.builtIns = true ∧
    readsWord lexicon.keywords = true
  numbers_keepsWords : numbers.keepsWords = true
  numbers_readsWord : readsWord numbers = true
  text_isCut : text.isCut = true
  text_looking : text.regex.strands.map text.looking =
    [[.group 1 (some "ahead") (.alt (.look .wordEdge) textEnd)]]

theorem wordShapes : WordShapes := by constructor <;> decide +kernel

/-! ### Rules -/

/-- Text ends where tokens may end. -/
theorem exists_after_of_text (h : text.matchStart window = some captures) :
    ∃ after, window.toList = captures.consumed.toList ++ after ∧
      TokenEnd captures.consumed.toList.getLast? after := by
  obtain ⟨strand, hmem, bindings, ahead, after, looked, hwindow, -, hlooks, -⟩ :=
    Pattern.exists_looking wordShapes.text_isCut h
  have hlooking := List.mem_map_of_mem (f := text.looking) hmem
  rw [wordShapes.text_looking, List.mem_singleton] at hlooking
  rw [hlooking, Regex.readsEach_singleton] at hlooks
  obtain ⟨inner, -, hlooks⟩ := hlooks
  exact ⟨ahead ++ after, by rw [hwindow, List.append_assoc], tokenEnd_of_reads hlooks⟩

/-- A rule whose pattern keeps words whole, or is the one for text. -/
theorem stopsAt_of_pattern {rule : Rule R T S} {pattern : Pattern}
    (hpattern : pattern.keepsWords = true ∨ pattern = text)
    (hadvancing : pattern.isAdvancing = true)
    (hmatch : ∀ {window last state captures}, rule.tryMatch window last state = some captures →
      pattern.matchStart window = some captures)
    (hbuild : ∀ {captures state spec}, (rule.build captures state).value = .ok spec →
      spec.span = none) : rule.StopsAt TokenEnd where
  exists_after {window _ _ captures} h := by
    have h := hmatch h
    refine ⟨Pattern.consumed_ne_empty hadvancing h, ?_⟩
    rcases hpattern with hkeeps | rfl
    · obtain ⟨after, hwindow, hapart⟩ := Pattern.exists_after_of_keepsWords hkeeps h
      exact ⟨after, hwindow, tokenEnd_of_not_cutsWord hapart⟩
    · exact exists_after_of_text h
  span_eq_none := hbuild

theorem stopsAt_matchGroup {pattern : Pattern}
    (hpattern : pattern.keepsWords = true ∨ pattern = text)
    (hadvancing : pattern.isAdvancing = true) (styles : Option (StyleProvider R T)) :
    (Rule.matchGroup pattern 0 styles : Rule R T S).StopsAt TokenEnd :=
  stopsAt_of_pattern hpattern hadvancing id fun hbuilt => by
    rw [← Except.ok.inj hbuilt, Spec.terminal]

/-- A leaf of what a pattern of a language consumes. -/
theorem stopsAt_leafRule {pattern : Pattern} (h : pattern ∈ patterns)
    (styles : Option (StyleProvider R T)) :
    (Rule.matchGroup pattern 0 styles : Rule R T S).StopsAt TokenEnd :=
  stopsAt_matchGroup (wordShapes.patterns_keepWords pattern h)
    (patternShapes.patterns_isAdvancing pattern h) styles

/-- The rules of a language stop where tokens end if its own rules do. -/
theorem stopsAt_of_mem_tokenRules {styles : TokenStyles R T} {own : List (Rule R T S)}
    {lexicon : Lexicon} (hlexicon : lexicon ∈ lexicons)
    (hown : ∀ rule ∈ own, rule.StopsAt TokenEnd) :
    ∀ rule ∈ tokenRules styles own lexicon, rule.StopsAt TokenEnd := by
  have hsound := patternShapes.lexicons_isSound lexicon hlexicon
  simp only [Lexicon.isSound, Bool.and_eq_true] at hsound
  obtain ⟨⟨⟨-, hdefinitions⟩, hbuiltIns⟩, hkeywords⟩ := hsound
  obtain ⟨hdefinitions', hbuiltIns', hkeywords'⟩ := wordShapes.lexicons_keepWords lexicon hlexicon
  intro rule hrule
  simp only [tokenRules, List.mem_append, List.mem_cons, List.not_mem_nil, or_false] at hrule
  rcases hrule with hrule | rfl | rfl | rfl | rfl | rfl | rfl
  · exact hown rule hrule
  · refine stopsAt_of_pattern (.inl hdefinitions') hdefinitions id fun hbuilt => ?_
    obtain ⟨keyword, name, rfl⟩ := exists_of_build_definitionRule hbuilt
    rfl
  · exact stopsAt_matchGroup (.inl hbuiltIns') hbuiltIns _
  · exact stopsAt_matchGroup (.inl hkeywords') hkeywords _
  · exact stopsAt_leafRule (by simp [patterns]) _
  · exact stopsAt_leafRule (by simp [patterns]) _
  · exact stopsAt_leafRule (by simp [patterns]) _

namespace Kotlin

theorem stopsAt_fieldRule (styles : TokenStyles R T) :
    (fieldRule styles : Rule R T S).StopsAt TokenEnd := by
  have hmem : field ∈ patterns := by simp [patterns]
  refine stopsAt_of_pattern (wordShapes.patterns_keepWords _ hmem)
    (patternShapes.patterns_isAdvancing _ hmem) id fun hbuilt => ?_
  obtain ⟨keyword, name, rfl⟩ := exists_of_build_fieldRule hbuilt
  rfl

theorem stopsAt_functionRule (styles : TokenStyles R T) :
    (functionRule styles : Rule R T S).StopsAt TokenEnd := by
  have hmem : functionHead ∈ patterns := by simp [patterns]
  refine stopsAt_of_pattern (wordShapes.patterns_keepWords _ hmem)
    (patternShapes.patterns_isAdvancing _ hmem) id fun hbuilt => ?_
  obtain ⟨keyword, name, params, rfl⟩ := exists_of_build_functionRule hbuilt
  rfl

end Kotlin

/-- The languages whose words are highlighted, each with its lexicon. -/
def tables (styles : TokenStyles R T) : List (Lexicon × List (Rule R T S)) :=
  [(Kotlin.lexicon, Kotlin.rules styles), (protobufLexicon, protobufRules styles),
    (pythonLexicon, pythonRules styles), (rustLexicon, rustRules styles)]

variable {styles : TokenStyles R T} {lexicon : Lexicon} {rules : List (Rule R T S)}

/-- The rules of every table stop where tokens end. -/
theorem stopsAt_of_mem_tables (h : (lexicon, rules) ∈ tables styles) :
    ∀ rule ∈ rules, rule.StopsAt TokenEnd := by
  simp only [tables, List.mem_cons, List.not_mem_nil, or_false, Prod.mk.injEq] at h
  rcases h with ⟨rfl, rfl⟩ | ⟨rfl, rfl⟩ | ⟨rfl, rfl⟩ | ⟨rfl, rfl⟩
  all_goals
    refine stopsAt_of_mem_tokenRules (by simp [lexicons]) fun rule hrule => ?_
    simp only [List.mem_cons, List.not_mem_nil, or_false] at hrule
  · rcases hrule with rfl | rfl | rfl | rfl | rfl
    · exact stopsAt_leafRule (by simp [patterns]) _
    · exact stopsAt_leafRule (by simp [patterns]) _
    · exact stopsAt_leafRule (by simp [patterns]) _
    · exact Kotlin.stopsAt_fieldRule styles
    · exact Kotlin.stopsAt_functionRule styles
  · rcases hrule with rfl | rfl <;> exact stopsAt_leafRule (by simp [patterns]) _
  · rcases hrule with rfl | rfl | rfl | rfl <;> exact stopsAt_leafRule (by simp [patterns]) _
  · rcases hrule with rfl | rfl | rfl <;> exact stopsAt_leafRule (by simp [patterns]) _

/-- Every table is the one of a language. -/
theorem exists_mem_languages (h : (lexicon, rules) ∈ tables styles) :
    lexicon ∈ lexicons ∧ ∃ language, (language, rules) ∈ languages styles := by
  simp only [tables, List.mem_cons, List.not_mem_nil, or_false, Prod.mk.injEq] at h
  rcases h with ⟨rfl, rfl⟩ | ⟨rfl, rfl⟩ | ⟨rfl, rfl⟩ | ⟨rfl, rfl⟩
  · exact ⟨by simp [lexicons], "kt", by simp [languages]⟩
  · exact ⟨by simp [lexicons], "pb", by simp [languages]⟩
  · exact ⟨by simp [lexicons], "py", by simp [languages]⟩
  · exact ⟨by simp [lexicons], "rs", by simp [languages]⟩

/-! ### Highlighted words -/

/-- The rules for built-in names, keywords and numbers. -/
def wordRules (styles : TokenStyles R T) (lexicon : Lexicon) : List (Rule R T S) :=
  [.matchGroup lexicon.builtIns 0 (some styles.generics),
    .matchGroup lexicon.keywords 0 (some styles.keyword),
    .matchGroup numbers 0 (some styles.literal)]

/-- A word behind which no word goes on comes to its end. -/
theorem isWord_eq_false_of_mem_head? {after : List Char} (hne : word ≠ [])
    (hword : ∀ c ∈ word, isWord c = true) (h : ¬ CutsWord word after) :
    ∀ c ∈ after.head?, isWord c = false := by
  intro c hc
  refine Bool.eq_false_iff.2 fun hgoes => h ⟨?_, (Option.any_eq_true _ _).2 ⟨c, hc, hgoes⟩⟩
  rw [List.getLast?_eq_some_getLast hne]
  exact hword _ (List.getLast_mem hne)

/-- A rule for words makes a leaf of a word behind which no word goes on. -/
theorem exists_after_of_mem_wordRules (hlexicon : lexicon ∈ lexicons) {rule : Rule R T S}
    (hrule : rule ∈ wordRules styles lexicon) {last : Option String} {state : S}
    {spec : Spec R T S} (hmatch : rule.tryMatch window last state = some captures)
    (hbuilt : (rule.build captures state).value = .ok spec) :
    spec.root.textContent = captures.consumed ∧ captures.consumed ≠ "" ∧
      (∀ c ∈ captures.consumed.toList, wordChar c = true) ∧
      ∃ after, window.toList = captures.consumed.toList ++ after ∧
        ∀ c ∈ after.head?, isWord c = false := by
  obtain ⟨-, hbuiltIns, hkeywords⟩ := wordShapes.lexicons_keepWords lexicon hlexicon
  obtain ⟨hbuiltIns', hkeywords'⟩ := wordShapes.lexicons_readWords lexicon hlexicon
  obtain ⟨pattern, provider, rfl, hkeeps, hreads⟩ : ∃ pattern provider,
      rule = .matchGroup pattern 0 (some provider) ∧ pattern.keepsWords = true ∧
        readsWord pattern = true := by
    simp only [wordRules, List.mem_cons, List.not_mem_nil, or_false] at hrule
    rcases hrule with rfl | rfl | rfl
    · exact ⟨_, _, rfl, hbuiltIns, hbuiltIns'⟩
    · exact ⟨_, _, rfl, hkeywords, hkeywords'⟩
    · exact ⟨_, _, rfl, wordShapes.numbers_keepsWords, wordShapes.numbers_readsWord⟩
  have hne := Pattern.consumed_ne_empty (Bool.and_eq_true_iff.1 hreads).1 hmatch
  have hchars := wordChar_of_readsWord hreads hmatch
  obtain ⟨after, hwindow, hapart⟩ := Pattern.exists_after_of_keepsWords hkeeps hmatch
  refine ⟨?_, hne, hchars, after, hwindow, isWord_eq_false_of_mem_head? (by simpa using hne)
    (fun c hc => (Bool.and_eq_true_iff.1 (hchars c hc)).1) hapart⟩
  obtain rfl := Except.ok.inj hbuilt
  rw [Pattern.text?_zero hmatch]
  rfl

/-- A word that begins where tokens may end is a whole word, or it is what is left of the word of a
label. -/
theorem whole_or_label {before token after : List Char} (htoken : token ≠ [])
    (hchars : ∀ c ∈ token, wordChar c = true) (hend : TokenEnd before.getLast? (token ++ after))
    (hafter : ∀ c ∈ after.head?, isWord c = false) :
    (∀ c ∈ before.getLast?, isWord c = false) ∨
      ∃ c rest, after = ':' :: c :: rest ∧ isSpace c = false := by
  by_cases hlast : before.getLast?.any isWord = true
  · right
    have hhead : (token ++ after).head?.any wordChar = true := by
      obtain ⟨c, token, rfl⟩ := List.exists_cons_of_ne_nil htoken
      simpa using hchars c List.mem_cons_self
    obtain ⟨word, c, rest, htext, hword, hc⟩ := hend hlast hhead
    have hwords : ∀ c ∈ token, isWord c = true := fun c hc =>
      (Bool.and_eq_true_iff.1 (hchars c hc)).1
    -- Both the token and the word of the label are all that there is of a word.
    have hcolon : ∀ d ∈ (':' :: c :: rest).head?, isWord d = false := by
      rintro _ ⟨⟩
      decide
    obtain ⟨-, hafter⟩ := Text.append_inj_of_head? hwords hword hafter hcolon htext
    exact ⟨c, rest, hafter, hc⟩
  · left
    intro c hc
    simpa [Option.mem_def.1 hc] using hlast

/-- What is highlighted as a built-in name, a keyword or a number is a whole word of the source, or
it is the last part of a word after which a colon and something other than white space come. -/
theorem highlighted_words_are_whole (styles : TokenStyles R T)
    (htable : (lexicon, rules) ∈ tables styles) (source : String) (state : S)
    {found : Match R T S} {rule : Rule R T S} (hmade : found.MadeBy rules source state rule)
    (hrule : rule ∈ wordRules styles lexicon) :
    found.spec.root.textContent = found.consumed ∧
      ∃ before after, source.toList = before ++ found.consumed.toList ++ after ∧
        byteSize before = found.offset ∧ (∀ c ∈ after.head?, isWord c = false) ∧
        ((∀ c ∈ before.getLast?, isWord c = false) ∨
          ∃ c rest, after = ':' :: c :: rest ∧ isSpace c = false) := by
  obtain ⟨hlexicon, language, hlanguage⟩ := exists_mem_languages htable
  obtain ⟨before, hsource, hoffset, hend⟩ := exists_before_of_madeBy
    (keepsToWindow_of_accounts (accounts_of_mem_languages hlanguage))
    (stopsAt_of_mem_tables htable) (fun hlast => by cases hlast) hmade
  obtain ⟨last, hmatch, hbuilt⟩ := hmade.exists_last
  obtain ⟨hcontent, hne, hchars, after, hwindow, hafter⟩ :=
    exists_after_of_mem_wordRules hlexicon hrule hmatch hbuilt
  rw [hwindow] at hsource hend
  exact ⟨hcontent, before, after, by rw [hsource, List.append_assoc]; rfl, hoffset, hafter,
    whole_or_label (by simpa using hne) hchars hend hafter⟩

/-- The last part of a word is found as a keyword if a colon and a digit come after it. -/
theorem exists_keywordRule_madeBy_within_word :
    ∃ found : Match Unit Unit Unit, found.MadeBy (pythonRules {}) "min:0" ()
        (.matchGroup pythonLexicon.keywords 0 (some (TokenStyles.keyword {}))) ∧
      found.offset = 1 := by
  have hrules : (pythonRules {} : List (Rule Unit Unit Unit)) =
      [.matchGroup hashComment 0 (some (TokenStyles.comment {})),
        .matchGroup strings 0 (some (TokenStyles.literal {})),
        .matchGroup singleQuoted 0 (some (TokenStyles.literal {})),
        .matchGroup atName 0 (some (TokenStyles.generics {})),
        definitionRule pythonLexicon.definitions {},
        .matchGroup pythonLexicon.builtIns 0 (some (TokenStyles.generics {}))] ++
      .matchGroup pythonLexicon.keywords 0 (some (TokenStyles.keyword {})) ::
        [.matchGroup numbers 0 (some (TokenStyles.literal {})), .matchGroup leadingSpace 0 none,
          .matchGroup text 0 none] := by
    simp only [pythonRules, tokenRules, List.cons_append, List.nil_append]
  have hafter : ((Machine.start "min:0" () : Machine Unit Unit Unit).after? (pythonRules {})
      "min:0" 1).any (fun machine =>
        machine.pending.map (fun item => (item.state, item.range)) = [((), ⟨1, 5⟩)] &&
          machine.last = some "m" && (machine.after? (pythonRules {}) "min:0" 1).isSome) =
        true := by
    decide +kernel
  have hwindow : Text.slice? "min:0" ⟨1, 5⟩ = some "in:0" := by decide +kernel
  obtain ⟨found, hmade, hrange⟩ := exists_madeBy_of_after? hrules hafter hwindow
    (by decide +kernel) (by decide +kernel)
  exact ⟨found, hmade, congrArg Text.ByteRange.start hrange⟩

theorem python_mem_tables (styles : TokenStyles R T) :
    (pythonLexicon, (pythonRules styles : List (Rule R T S))) ∈ tables styles := by
  simp [tables]

theorem keywordRule_mem_wordRules (styles : TokenStyles R T) (lexicon : Lexicon) :
    (.matchGroup lexicon.keywords 0 (some styles.keyword) : Rule R T S) ∈
      wordRules styles lexicon := by
  simp [wordRules]

/-- The `in` of `min` before a colon: no word goes on behind it. -/
theorem highlighted_words_are_whole_before_colon :
    ∃ (found : Match Unit Unit Unit) (rule : Rule Unit Unit Unit),
      (pythonLexicon, (pythonRules {} : List (Rule Unit Unit Unit))) ∈ tables {} ∧
      found.MadeBy (pythonRules {}) "min:0" () rule ∧ rule ∈ wordRules {} pythonLexicon ∧
      found.offset = 1 ∧ found.spec.root.textContent = found.consumed ∧
      ∃ before after, "min:0".toList = before ++ found.consumed.toList ++ after ∧
        byteSize before = found.offset ∧ (∀ c ∈ after.head?, isWord c = false) ∧
        ((∀ c ∈ before.getLast?, isWord c = false) ∨
          ∃ c rest, after = ':' :: c :: rest ∧ isSpace c = false) := by
  obtain ⟨found, hmade, hoffset⟩ := exists_keywordRule_madeBy_within_word
  have hrule := keywordRule_mem_wordRules (S := Unit) ({} : TokenStyles Unit Unit) pythonLexicon
  exact ⟨found, _, python_mem_tables {}, hmade, hrule, hoffset,
    highlighted_words_are_whole {} (python_mem_tables {}) "min:0" () hmade hrule⟩

/-- What is highlighted as a built-in name, a keyword or a number need not be a whole word. -/
theorem not_highlighted_words_are_whole :
    ¬ ∀ (lexicon : Lexicon) (rules : List (Rule Unit Unit Unit)),
      (lexicon, rules) ∈ tables {} →
      ∀ (source : String) (found : Match Unit Unit Unit) (rule : Rule Unit Unit Unit),
        found.MadeBy rules source () rule → rule ∈ wordRules {} lexicon →
        ∃ before after, source.toList = before ++ found.consumed.toList ++ after ∧
          byteSize before = found.offset ∧ (∀ c ∈ before.getLast?, isWord c = false) ∧
          ∀ c ∈ after.head?, isWord c = false := by
  intro h
  obtain ⟨found, hmade, hoffset⟩ := exists_keywordRule_madeBy_within_word
  obtain ⟨before, after, hsource, hbefore, hlast, -⟩ := h _ _ (python_mem_tables {}) _ found _ hmade
    (keywordRule_mem_wordRules {} pythonLexicon)
  -- The character before the keyword is an `m`.
  have hlist : "min:0".toList = ['m', 'i', 'n', ':', '0'] := by decide
  rw [hlist, List.append_assoc] at hsource
  rw [hoffset] at hbefore
  match before, hsource with
  | [], _ => cases hbefore
  | [c], hsource =>
    obtain rfl : 'm' = c := (List.cons.inj hsource).1
    cases hlast 'm' rfl
  | c :: d :: before, _ =>
    have := c.utf8Size_pos
    have := d.utf8Size_pos
    simp only [Text.byteSize_cons] at hbefore
    omega

end RuledMarkup.Code
