import RuledMarkup.Code.Languages
import RuledMarkup.Proofs.Node.Text
import RuledMarkup.Proofs.Parse.Accounts
import RuledMarkup.Proofs.Pattern.Groups

/-!
# Highlighting leaves code as it is

The tokens of a piece of code have the text of the code: every rule of a language makes tokens that
show just what the rule has consumed, and some rule matches every window.

## Main definitions

* `Account.verbatim` : a forest shows its window as it is.
* `Code.Lexicon.isSound` : the patterns of a lexicon consume something and read what they show.

## Main results

* `Code.accounts_of_mem_tokenRules` : the rules that languages share show what they consume.
* `Code.Xml.accounts_tagRule` : a tag is shown in its brackets, with its content between its two
  parts.
* `Code.parse_verbatim` : highlighting leaves code as it is.
-/

namespace RuledMarkup

open Text (byteSize)
open Pattern (Piece)

variable {R T S : Type}

/-! ### Forests that show their windows -/

/-- A forest shows its window in every context of a rendering.  If the forest is `plain`, then the
window is also its text. -/
def Account.verbatim (R T : Type) (plain : Prop) : Account R T where
  whole window forest :=
    (∀ ctx, Forest.renderedText ctx forest = window) ∧ (plain → Forest.textContent forest = window)
  part _ _ := False
  whole_nil := ⟨fun _ => Forest.renderedText_nil _, fun _ => Forest.textContent_nil⟩
  whole_append := by
    rintro x y a b ⟨ha, ha'⟩ ⟨hb, hb'⟩
    refine ⟨fun ctx => ?_, fun hplain => ?_⟩
    · rw [Forest.renderedText_append, ha, hb]
    · rw [Forest.textContent_append, ha' hplain, hb' hplain]
  part_append := fun _ h => h
  part_left := fun _ h => h

variable {plain : Prop} {window consumed : String} {captures : Captures} {state : S}

/-- A finished node that shows what has been consumed. -/
theorem Spec.accounts_verbatim {node : Node R T}
    (hrendered : ∀ ctx, node.renderedText ctx = consumed)
    (htext : plain → node.textContent = consumed) :
    (Spec.terminal node state).Accounts (.verbatim R T plain) window consumed := by
  refine Spec.accounts_terminal _ ⟨fun ctx => ?_, fun hplain => ?_⟩
  · rw [Forest.renderedText_cons, hrendered, Forest.renderedText_nil, String.append_empty]
  · rw [Forest.textContent_cons, htext hplain, Forest.textContent_nil, String.append_empty]

/-- The text of group zero is what has been consumed. -/
theorem Pattern.text?_zero {pattern : Pattern} (h : pattern.matchStart window = some captures) :
    captures.text? 0 = some captures.consumed := by
  obtain ⟨⟨stop, bindings⟩, -, rfl⟩ := Option.map_eq_some_iff.1 h
  rfl

/-- A leaf of group zero shows what its pattern consumes. -/
theorem Rule.accounts_matchGroup {pattern : Pattern} (hpattern : pattern.isAdvancing = true)
    (styles : Option (StyleProvider R T)) :
    (matchGroup pattern 0 styles : Rule R T S).Accounts (.verbatim R T plain) := by
  intro window last state captures hmatch
  have hsize := Pattern.size_pos_of_isAdvancing hpattern hmatch
  refine ⟨Pattern.over_of_matchStart hmatch, hsize, _, rfl, ?_⟩
  rw [Pattern.text?_zero hmatch, Option.getD_some]
  cases styles with
  | none => exact Spec.accounts_verbatim (fun ctx => Node.renderedText_text ctx _) fun _ => rfl
  | some provider =>
    exact Spec.accounts_verbatim
      (fun ctx => Node.renderedText_styledText ctx _ provider) fun _ => rfl

namespace Pattern

/-- The text of a group that has taken part. -/
theorem text_group {group : Nat} {before inner after : List Char} (hover : captures.Over window)
    (hframes : captures.Frames group before inner after) :
    (Piece.group group).text captures = inner := by
  rw [Piece.text, hframes.text?_eq hover, Option.getD_some, String.toList_ofList]

/-- The text of a group that has taken no part. -/
theorem text_group_of_range?_eq_none {group : Nat} (h : captures.range? group = none) :
    (Piece.group group).text captures = [] := by
  simp [Piece.text, Captures.text?, h]

end Pattern

namespace Node

/-- A node that only holds its children together shows what they show. -/
theorem renderedText_of_kind {kind : Kind R T}
    (h : kind = .definition ∨ kind = .function ∨ kind = .field) (ctx : R)
    (children : List (Node R T)) :
    (mk kind children).renderedText ctx = Forest.renderedText ctx children := by
  rcases h with rfl | rfl | rfl <;>
    exact (Forest.text_render ctx children {}).trans String.empty_append

theorem textContent_of_kind {kind : Kind R T}
    (h : kind = .definition ∨ kind = .function ∨ kind = .field) (children : List (Node R T)) :
    (mk kind children).textContent = Forest.textContent children := by
  rcases h with rfl | rfl | rfl <;> rfl

end Node

namespace Code

/-! ### Patterns -/

/-- Do the patterns of a lexicon consume something, and a definition just its two groups? -/
def Lexicon.isSound (lexicon : Lexicon) : Bool :=
  lexicon.definitions.isTiled [[.group 1, .group 2]] && lexicon.definitions.isAdvancing &&
    lexicon.builtIns.isAdvancing && lexicon.keywords.isAdvancing

/-- The lexicons of all languages. -/
def lexicons : List Lexicon := [Kotlin.lexicon, protobufLexicon, pythonLexicon, rustLexicon]

/-- The patterns of all languages that are in no lexicon. -/
def patterns : List Pattern :=
  [numbers, leadingSpace, text, strings, singleQuoted, atName, slashComment, hashComment,
    rustAttribute, Kotlin.comments, Kotlin.field, Kotlin.functionHead, Xml.comment, Xml.tag]

/-- What the strands of the patterns show. -/
structure PatternShapes : Prop where
  lexicons_isSound : ∀ lexicon ∈ lexicons, lexicon.isSound = true
  patterns_isAdvancing : ∀ pattern ∈ patterns, pattern.isAdvancing = true
  field_isTiled : Kotlin.field.isTiled [[.group 1, .group 2]] = true
  functionHead_isTiled : Kotlin.functionHead.isTiled
    [[.group 1, .group 3, .group 4], [.group 1, .group 2, .group 3, .group 4]] = true
  tag_isTiled : Xml.tag.isTiled
    [[.char '<', .group 1, .char '>'],
      [.char '<', .group 1, .char '>', .group 2, .char '<', .char '/', .group 3, .char '>']] = true
  tag_fills : Xml.tag.fills 3 = true
  text_isCatchAll : text.isCatchAll = true

theorem patternShapes : PatternShapes := by constructor <;> decide +kernel

/-- A leaf of what a pattern of a language consumes. -/
theorem accounts_leafRule {pattern : Pattern} (h : pattern ∈ patterns)
    (styles : Option (StyleProvider R T)) :
    (Rule.matchGroup pattern 0 styles : Rule R T S).Accounts (.verbatim R T plain) :=
  Rule.accounts_matchGroup (patternShapes.patterns_isAdvancing pattern h) styles

/-- The patterns of the languages consume something. -/
theorem size_pos_of_mem_patterns {pattern : Pattern} (h : pattern ∈ patterns)
    (hmatch : pattern.matchStart window = some captures) : 0 < captures.size :=
  Pattern.size_pos_of_isAdvancing (patternShapes.patterns_isAdvancing pattern h) hmatch

/-! ### The rules that languages share -/

/-- A keyword and a name are all that a pattern with just these two groups consumes. -/
theorem consumed_keyword_name {pattern : Pattern}
    (hpattern : pattern.isTiled [[.group 1, .group 2]] = true)
    (hmatch : pattern.matchStart window = some captures) :
    captures.Over window ∧ ∃ keyword name, captures.group 1 = .ok keyword ∧
      captures.group 2 = .ok name ∧ captures.consumed = keyword ++ name := by
  obtain ⟨hover, pieces, hpieces, hconsumed, hgroups, -⟩ :=
    Pattern.exists_pieces_of_isTiled hpattern hmatch
  obtain rfl := List.mem_singleton.1 hpieces
  obtain ⟨_, keyword, _, hkeyword, -⟩ := hgroups 1 (by simp)
  obtain ⟨_, name, _, hname, -⟩ := hgroups 2 (by simp)
  refine ⟨hover, .ofList keyword, .ofList name, hkeyword.group_eq hover, hname.group_eq hover, ?_⟩
  rw [← String.toList_inj, hconsumed]
  simp [Pattern.text_group hover hkeyword, Pattern.text_group hover hname]

/-- What the rule for definitions makes of a match. -/
theorem exists_of_build_definitionRule {pattern : Pattern} {styles : TokenStyles R T} {state : S}
    {spec : Spec R T S}
    (h : ((definitionRule pattern styles).build captures state).value = .ok spec) :
    ∃ keyword name, spec = .terminal (definitionNode keyword name styles) state := by
  obtain ⟨keyword, -, h⟩ := exists_of_bind_eq_ok h
  obtain ⟨name, -, h⟩ := exists_of_bind_eq_ok h
  exact ⟨keyword, name, (Except.ok.inj h).symm⟩

theorem accounts_definitionRule {pattern : Pattern}
    (hpattern : pattern.isTiled [[.group 1, .group 2]] = true)
    (hadvancing : pattern.isAdvancing = true) (styles : TokenStyles R T) :
    (definitionRule pattern styles : Rule R T S).Accounts (.verbatim R T plain) := by
  intro window last state captures hmatch
  have hsize := Pattern.size_pos_of_isAdvancing hadvancing hmatch
  obtain ⟨hover, keyword, name, hkeyword, hname, htext⟩ := consumed_keyword_name hpattern hmatch
  refine ⟨hover, hsize, .terminal (definitionNode keyword name styles) state, ?_, ?_⟩
  · simp [definitionRule, Rule.matching, Logged.quiet, hkeyword, hname, bind, Except.bind]
  · refine Spec.accounts_verbatim (fun ctx => ?_) fun _ => ?_
    · rw [definitionNode, Node.renderedText_of_kind (.inl rfl), htext]
      simp
    · rw [definitionNode, Node.textContent_of_kind (.inl rfl), htext]
      simp

/-- The rules of a language show what they consume if its own rules do. -/
theorem accounts_of_mem_tokenRules {styles : TokenStyles R T} {own : List (Rule R T S)}
    {lexicon : Lexicon} (hlexicon : lexicon ∈ lexicons)
    (hown : ∀ rule ∈ own, rule.Accounts (.verbatim R T plain)) :
    ∀ rule ∈ tokenRules styles own lexicon, rule.Accounts (.verbatim R T plain) := by
  have hsound := patternShapes.lexicons_isSound lexicon hlexicon
  simp only [Lexicon.isSound, Bool.and_eq_true] at hsound
  obtain ⟨⟨⟨htiled, hdefinitions⟩, hbuiltIns⟩, hkeywords⟩ := hsound
  intro rule hrule
  simp only [tokenRules, List.mem_append, List.mem_cons, List.not_mem_nil, or_false] at hrule
  rcases hrule with hrule | rfl | rfl | rfl | rfl | rfl | rfl
  · exact hown rule hrule
  · exact accounts_definitionRule htiled hdefinitions styles
  · exact Rule.accounts_matchGroup hbuiltIns _
  · exact Rule.accounts_matchGroup hkeywords _
  · exact accounts_leafRule (by simp [patterns]) _
  · exact accounts_leafRule (by simp [patterns]) _
  · exact accounts_leafRule (by simp [patterns]) _

/-- The rules of a language show what they consume if its own rules make leaves. -/
theorem accounts_of_mem_leaves (styles : TokenStyles R T)
    (leaves : List (Pattern × StyleProvider R T)) {lexicon : Lexicon}
    (hlexicon : lexicon ∈ lexicons)
    (hleaves : ∀ leaf ∈ leaves, leaf.1 ∈ patterns) :
    ∀ rule ∈ (tokenRules styles (leaves.map fun leaf => .matchGroup leaf.1 0 (some leaf.2))
      lexicon : List (Rule R T S)), rule.Accounts (.verbatim R T plain) := by
  refine accounts_of_mem_tokenRules hlexicon fun rule hrule => ?_
  obtain ⟨leaf, hleaf, rfl⟩ := List.mem_map.1 hrule
  exact accounts_leafRule (hleaves leaf hleaf) _

/-! ### Kotlin -/

namespace Kotlin

/-- What the rule for variables makes of a match. -/
theorem exists_of_build_fieldRule {styles : TokenStyles R T} {state : S} {spec : Spec R T S}
    (h : ((fieldRule styles).build captures state).value = .ok spec) :
    ∃ keyword name, spec = .terminal (fieldNode keyword name styles) state := by
  obtain ⟨keyword, -, h⟩ := exists_of_bind_eq_ok h
  obtain ⟨name, -, h⟩ := exists_of_bind_eq_ok h
  exact ⟨keyword, name, (Except.ok.inj h).symm⟩

/-- What the rule for the heads of functions makes of a match. -/
theorem exists_of_build_functionRule {styles : TokenStyles R T} {state : S} {spec : Spec R T S}
    (h : ((functionRule styles).build captures state).value = .ok spec) :
    ∃ keyword name params,
      spec = .terminal (functionNode keyword (captures.text? 2) name params styles) state := by
  obtain ⟨keyword, -, h⟩ := exists_of_bind_eq_ok h
  obtain ⟨name, -, h⟩ := exists_of_bind_eq_ok h
  obtain ⟨params, -, h⟩ := exists_of_bind_eq_ok h
  exact ⟨keyword, name, params, (Except.ok.inj h).symm⟩

theorem accounts_fieldRule (styles : TokenStyles R T) :
    (fieldRule styles : Rule R T S).Accounts (.verbatim R T plain) := by
  intro window last state captures hmatch
  have hsize := size_pos_of_mem_patterns (by simp [patterns]) hmatch
  obtain ⟨hover, keyword, name, hkeyword, hname, htext⟩ :=
    consumed_keyword_name patternShapes.field_isTiled hmatch
  refine ⟨hover, hsize, .terminal (fieldNode keyword name styles) state, ?_, ?_⟩
  · simp [fieldRule, Rule.matching, Logged.quiet, hkeyword, hname, bind, Except.bind]
  · refine Spec.accounts_verbatim (fun ctx => ?_) fun _ => ?_
    · rw [fieldNode, Node.renderedText_of_kind (.inr (.inr rfl)), htext]
      simp
    · rw [fieldNode, Node.textContent_of_kind (.inr (.inr rfl)), htext]
      simp

/-- The head of a function consumes its parts, with or without type parameters. -/
theorem consumed_functionHead (hmatch : functionHead.matchStart window = some captures) :
    captures.Over window ∧ ∃ keyword name params,
      captures.group 1 = .ok keyword ∧ captures.group 3 = .ok name ∧
      captures.group 4 = .ok params ∧
      captures.consumed = keyword ++ (captures.text? 2).getD "" ++ name ++ params := by
  obtain ⟨hover, pieces, hpieces, hconsumed, hgroups, hnone⟩ :=
    Pattern.exists_pieces_of_isTiled patternShapes.functionHead_isTiled hmatch
  have hmem : .group 1 ∈ pieces ∧ .group 3 ∈ pieces ∧ .group 4 ∈ pieces := by
    simp only [List.mem_cons, List.not_mem_nil, or_false] at hpieces
    rcases hpieces with rfl | rfl <;> simp
  obtain ⟨_, keyword, _, hkeyword, -⟩ := hgroups 1 hmem.1
  obtain ⟨_, name, _, hname, -⟩ := hgroups 3 hmem.2.1
  obtain ⟨_, params, _, hparams, -⟩ := hgroups 4 hmem.2.2
  refine ⟨hover, .ofList keyword, .ofList name, .ofList params, hkeyword.group_eq hover,
    hname.group_eq hover, hparams.group_eq hover, ?_⟩
  rw [← String.toList_inj, hconsumed]
  simp only [List.mem_cons, List.not_mem_nil, or_false] at hpieces
  have hgenerics : (Piece.group 2).text captures = ((captures.text? 2).getD "").toList := rfl
  rcases hpieces with rfl | rfl
  · have hnil := Pattern.text_group_of_range?_eq_none (hnone 2 (by simp) (by simp))
    simp [Pattern.text_group hover hkeyword, Pattern.text_group hover hname,
      Pattern.text_group hover hparams, ← hgenerics, hnil]
  · simp [Pattern.text_group hover hkeyword, Pattern.text_group hover hname,
      Pattern.text_group hover hparams, hgenerics]

theorem accounts_functionRule (styles : TokenStyles R T) :
    (functionRule styles : Rule R T S).Accounts (.verbatim R T plain) := by
  intro window last state captures hmatch
  have hsize := size_pos_of_mem_patterns (by simp [patterns]) hmatch
  obtain ⟨hover, keyword, name, params, hkeyword, hname, hparams, htext⟩ :=
    consumed_functionHead hmatch
  refine ⟨hover, hsize,
    .terminal (functionNode keyword (captures.text? 2) name params styles) state, ?_, ?_⟩
  · simp [functionRule, Rule.matching, Logged.quiet, hkeyword, hname, hparams, bind, Except.bind]
  · refine Spec.accounts_verbatim (fun ctx => ?_) fun _ => ?_
    · rw [functionNode, Node.renderedText_of_kind (.inr (.inl rfl)), htext]
      cases captures.text? 2 <;> simp [String.append_assoc]
    · rw [functionNode, Node.textContent_of_kind (.inr (.inl rfl)), htext]
      cases captures.text? 2 <;> simp [String.append_assoc]

theorem accounts_of_mem_rules (styles : TokenStyles R T) :
    ∀ rule ∈ (rules styles : List (Rule R T S)), rule.Accounts (.verbatim R T plain) := by
  refine accounts_of_mem_tokenRules (by simp [lexicons]) ?_
  intro rule hrule
  simp only [List.mem_cons, List.not_mem_nil, or_false] at hrule
  rcases hrule with rfl | rfl | rfl | rfl | rfl
  · exact accounts_leafRule (by simp [patterns]) _
  · exact accounts_leafRule (by simp [patterns]) _
  · exact accounts_leafRule (by simp [patterns]) _
  · exact accounts_fieldRule styles
  · exact accounts_functionRule styles

end Kotlin

/-! ### XML -/

namespace Xml

/-- A tag that is not closed, or a tag with content and a closing tag, which has a name. -/
theorem consumed_tag (hmatch : tag.matchStart window = some captures) :
    captures.Over window ∧ ∃ opening, captures.group 1 = .ok opening ∧
      (captures.range? 2 = none ∧ captures.text? 3 = none ∧
          captures.consumed = "<" ++ opening ++ ">" ∨
        ∃ before content after closing, captures.Frames 2 before content after ∧
          before ++ after ≠ [] ∧ captures.text? 3 = some closing ∧ closing ≠ "" ∧
          captures.consumed =
            "<" ++ opening ++ ">" ++ String.ofList content ++ ("</" ++ closing ++ ">")) := by
  obtain ⟨hover, pieces, hpieces, hconsumed, hgroups, hnone⟩ :=
    Pattern.exists_pieces_of_isTiled patternShapes.tag_isTiled hmatch
  simp only [List.mem_cons, List.not_mem_nil, or_false] at hpieces
  refine ⟨hover, ?_⟩
  rcases hpieces with rfl | rfl
  · obtain ⟨_, opening, _, hopening, -⟩ := hgroups 1 (by simp)
    have hcontent := hnone 2 (by simp) (by simp)
    have hclosing := hnone 3 (by simp) (by simp)
    refine ⟨.ofList opening, hopening.group_eq hover, .inl ⟨hcontent, ?_, ?_⟩⟩
    · rw [Captures.text?, hclosing, Option.map_none]
    · rw [← String.toList_inj, hconsumed]
      simp [Pattern.text_group hover hopening]
  · obtain ⟨_, opening, _, hopening, -⟩ := hgroups 1 (by simp)
    obtain ⟨before, content, after, hcontent, -⟩ := hgroups 2 (by simp)
    obtain ⟨_, closing, _, hclosing, hfilled⟩ := hgroups 3 (by simp)
    have hne : closing ≠ [] := hfilled patternShapes.tag_fills
    have htext : captures.consumed.toList =
        '<' :: opening ++ '>' :: content ++ '<' :: '/' :: closing ++ ['>'] := by
      rw [hconsumed]
      simp [Pattern.text_group hover hopening, Pattern.text_group hover hcontent,
        Pattern.text_group hover hclosing]
    refine ⟨.ofList opening, hopening.group_eq hover, .inr ⟨before, content, after, .ofList closing,
      hcontent, ?_, hclosing.text?_eq hover, by simpa using hne, ?_⟩⟩
    · -- The brackets are consumed as well, so there is more than the content.
      intro hnil
      have hlength := congrArg List.length (hcontent.toList_consumed.symm.trans htext)
      obtain ⟨rfl, rfl⟩ := List.append_eq_nil_iff.1 hnil
      simp at hlength
      omega
    · rw [← String.toList_inj, htext]
      simp

theorem accounts_tagRule (styles : TokenStyles R T) :
    (tagRule styles : Rule R T S).Accounts (.verbatim R T False) := by
  intro window last state captures hmatch
  have hsize := size_pos_of_mem_patterns (by simp [patterns]) hmatch
  obtain ⟨hover, opening, hopening, htag⟩ := consumed_tag hmatch
  refine ⟨hover, hsize, ?_⟩
  rcases htag with ⟨hcontent, hclosing, htext⟩ |
    ⟨before, content, after, closing, hcontent, haround, hclosing, hne, htext⟩
  · refine ⟨.terminal (.leaf (.tag opening none styles.generics styles.params)) state, ?_, ?_⟩
    · simp [tagRule, Rule.matching, Logged.quiet, hopening, hcontent, hclosing, bind, Except.bind]
    · refine Spec.accounts_verbatim (fun ctx => ?_) False.elim
      rw [Node.leaf, Node.renderedText_tag, htext]
      simp
  · let root : Node R T := .leaf (.tag opening (some closing) styles.generics styles.params)
    have hrendered (ctx : R) (below : List (Node R T)) :
        (root.addChildren below).renderedText ctx =
          "<" ++ opening ++ ">" ++ Forest.renderedText ctx below ++ ("</" ++ closing ++ ">") := by
      refine (Node.renderedText_tag ctx opening (some closing) _ _ _).trans ?_
      simp [hne, root, Node.leaf]
    cases content with
    | nil =>
      -- A tag without content is finished: its span would be empty.
      refine ⟨.terminal root state, ?_, Spec.accounts_verbatim (fun ctx => ?_) False.elim⟩
      · simp [tagRule, Rule.matching, Logged.quiet, hopening, hcontent.range?_eq, hclosing, bind,
          Except.bind, Text.ByteRange.isEmpty, root]
      · rw [← root.addChildren_nil, hrendered, htext, Forest.renderedText_nil]
    | cons c content =>
      have hspan : (⟨byteSize before, byteSize (before ++ c :: content)⟩ :
          Text.ByteRange).isEmpty = false := by
        rw [Text.ByteRange.isEmpty_eq_false_iff, Text.byteSize_append, Text.byteSize_cons]
        have := c.utf8Size_pos
        simp only
        omega
      have hlt := hcontent.utf8ByteSize_lt hover haround
      rw [← hover.utf8ByteSize_consumed] at hlt
      refine ⟨.nonterminal root state ⟨byteSize before, byteSize (before ++ c :: content)⟩, ?_,
        Spec.accounts_nonterminal _ (hcontent.slice?_eq hover) hlt ?_ False.elim ?_⟩
      · simp [tagRule, Rule.matching, Logged.quiet, hopening, hcontent.range?_eq, hclosing, bind,
          Except.bind, hspan, root, -Text.byteSize_append]
      · rintro below ⟨hbelow, -⟩
        refine ⟨fun ctx => ?_, False.elim⟩
        rw [Forest.renderedText_cons, hrendered, hbelow, Forest.renderedText_nil,
          String.append_empty, htext]
      · intro hempty
        simp at hempty

theorem accounts_of_mem_rules (styles : TokenStyles R T) :
    ∀ rule ∈ (rules styles : List (Rule R T S)), rule.Accounts (.verbatim R T False) := by
  intro rule hrule
  simp only [rules, List.mem_cons, List.not_mem_nil, or_false] at hrule
  rcases hrule with rfl | rfl | rfl | rfl
  · exact accounts_leafRule (by simp [patterns]) _
  · exact accounts_tagRule styles
  · exact accounts_leafRule (by simp [patterns]) _
  · exact accounts_leafRule (by simp [patterns]) _

end Xml

/-! ### Languages -/

/-- The rules of every language show what they consume.  Only tags are no plain text. -/
theorem accounts_of_mem_languages {styles : TokenStyles R T} {language : String}
    {rules : List (Rule R T S)} (h : (language, rules) ∈ languages styles) :
    ∀ rule ∈ rules, rule.Accounts (.verbatim R T (language ≠ "xml" ∧ language ≠ "http")) := by
  have hprotobuf (plain : Prop) : ∀ rule ∈ (protobufRules styles : List (Rule R T S)),
      rule.Accounts (.verbatim R T plain) :=
    accounts_of_mem_leaves styles [(slashComment, styles.comment), (strings, styles.literal)]
      (by simp [lexicons]) (by simp [patterns])
  have hpython (plain : Prop) : ∀ rule ∈ (pythonRules styles : List (Rule R T S)),
      rule.Accounts (.verbatim R T plain) :=
    accounts_of_mem_leaves styles [(hashComment, styles.comment), (strings, styles.literal),
      (singleQuoted, styles.literal), (atName, styles.generics)]
      (by simp [lexicons]) (by simp [patterns])
  have hrust (plain : Prop) : ∀ rule ∈ (rustRules styles : List (Rule R T S)),
      rule.Accounts (.verbatim R T plain) :=
    accounts_of_mem_leaves styles [(slashComment, styles.comment), (strings, styles.literal),
      (rustAttribute, styles.generics)]
      (by simp [lexicons]) (by simp [patterns])
  simp only [languages, List.mem_cons, List.not_mem_nil, or_false, Prod.mk.injEq] at h
  rcases h with ⟨rfl, rfl⟩ | ⟨rfl, rfl⟩ | ⟨rfl, rfl⟩ | ⟨rfl, rfl⟩ | ⟨rfl, rfl⟩ | ⟨rfl, rfl⟩ |
    ⟨rfl, rfl⟩ | ⟨rfl, rfl⟩ | ⟨rfl, rfl⟩ | ⟨rfl, rfl⟩ | ⟨rfl, rfl⟩
  · exact Kotlin.accounts_of_mem_rules styles
  · exact Kotlin.accounts_of_mem_rules styles
  · exact hprotobuf _
  · exact hprotobuf _
  · exact hprotobuf _
  · exact hpython _
  · exact hpython _
  · exact hrust _
  · exact hrust _
  · simpa using Xml.accounts_of_mem_rules styles
  · simpa using Xml.accounts_of_mem_rules styles

/-- The last rule of every language matches every window. -/
theorem catches_of_mem_languages {styles : TokenStyles R T} {language : String}
    {rules : List (Rule R T S)} (h : (language, rules) ∈ languages styles) : Catches rules := by
  intro window last state hwindow
  have hmatch := Pattern.isSome_matchStart patternShapes.text_isCatchAll hwindow
  refine ⟨.matchGroup text 0 none, ?_, hmatch⟩
  simp only [languages, List.mem_cons, List.not_mem_nil, or_false, Prod.mk.injEq] at h
  rcases h with ⟨-, rfl⟩ | ⟨-, rfl⟩ | ⟨-, rfl⟩ | ⟨-, rfl⟩ | ⟨-, rfl⟩ | ⟨-, rfl⟩ | ⟨-, rfl⟩ |
    ⟨-, rfl⟩ | ⟨-, rfl⟩ | ⟨-, rfl⟩ | ⟨-, rfl⟩ <;>
    simp [Kotlin.rules, protobufRules, pythonRules, rustRules, Xml.rules, tokenRules]

/-- Highlighting leaves code as it is: with the rules of every language, every source can be parsed,
and in every context the forest is rendered as the source.  Tags apart, the source is also the text
of the forest. -/
theorem parse_verbatim (styles : TokenStyles R T) {language : String} {rules : List (Rule R T S)}
    (h : (language, rules) ∈ languages styles) (source : String) (state : S) :
    ∃ forest, (parse rules source state).value = .ok forest ∧
      (∀ ctx, (Forest.renderText ctx forest).text = source) ∧
      (language ≠ "xml" ∧ language ≠ "http" → Forest.textContent forest = source) := by
  obtain ⟨forest, hvalue, hwhole | ⟨hpart, -⟩⟩ :=
    parse_accounts (accounts_of_mem_languages h) (catches_of_mem_languages h) source state
  · exact ⟨forest, hvalue, hwhole⟩
  · exact hpart.elim

/-- A head of a function with type parameters, a string that is not closed, and a comment. -/
theorem parse_verbatim_kotlin :
    ("kt", Kotlin.rules {}) ∈ (languages {} : Languages Unit Unit Unit) ∧
      ∃ forest, (parse (Kotlin.rules {} : List (Rule Unit Unit Unit))
          "fun <T> id(x: T) = \"x // ok" ()).value = .ok forest ∧
        (∀ ctx, (Forest.renderText ctx forest).text = "fun <T> id(x: T) = \"x // ok") ∧
        ("kt" ≠ "xml" ∧ "kt" ≠ "http" →
          Forest.textContent forest = "fun <T> id(x: T) = \"x // ok") := by
  have hmem : ("kt", Kotlin.rules {}) ∈ (languages {} : Languages Unit Unit Unit) :=
    List.mem_cons_self ..
  exact ⟨hmem, parse_verbatim {} hmem _ ()⟩

end Code

end RuledMarkup
