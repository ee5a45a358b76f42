import RuledMarkup.Proofs.Parse.Kinds
import RuledMarkup.Proofs.Viewer.Success

/-!
# List items of a document

Of all rules of a document only the one for list items builds list items: neither inline markup, nor
headers and quotes, nor the rules of any language do.  So every list item of a document comes with
the bullet of the theme.

## Main definitions

* `Kind.isListItem` : is the node an item of a list?

## Main results

* `Code.buildsNoItems_of_mem_languages` : the rules of the languages build no list items.
* `Viewer.listItem_of_parse` : the list items of a document.
-/

namespace RuledMarkup

variable {R T S : Type}

/-- Is the node an item of a list? -/
def Kind.isListItem : Kind R T → Bool
  | .listItem _ => true
  | _ => false

/-- The rule builds no list items. -/
def Rule.BuildsNoItems (rule : Rule R T S) : Prop :=
  rule.Builds fun kind => kind.isListItem = false

theorem Rule.Builds.mono {P Q : Kind R T → Prop} {rule : Rule R T S} (h : rule.Builds P)
    (hPQ : ∀ kind, P kind → Q kind) : rule.Builds Q :=
  fun _ _ _ hbuilt node hnode => hPQ _ (h hbuilt node hnode)

theorem Rule.buildsNoItems_matchGroup (pattern : Pattern) (group : Nat)
    (styles : Option (StyleProvider R T)) :
    (matchGroup pattern group styles : Rule R T S).BuildsNoItems := by
  intro captures state spec h
  obtain rfl := Except.ok.inj h
  cases styles <;> simp [Spec.terminal, Node.text, Node.styledText, Node.leaf, Kind.isListItem]

/-! ### Inline markup -/

namespace Inline

theorem buildsNoItems_text (pattern : Pattern) : (.text pattern : Rule R T S).BuildsNoItems := by
  intro captures state spec h
  obtain rfl := Except.ok.inj h
  simp [Spec.terminal, Node.text, Node.leaf, Kind.isListItem]

theorem buildsNoItems_style (pattern : Pattern) (styles : List T) :
    (.style pattern styles : Rule R T S).BuildsNoItems := by
  intro captures state spec h
  obtain ⟨span, -, rfl⟩ := exists_of_map_eq_ok h
  simp [Spec.nonterminal, Node.style, Kind.isListItem]

theorem buildsNoItems_escapeRule : (escapeRule : Rule R T S).BuildsNoItems := by
  intro captures state spec h
  obtain ⟨character, -, rfl⟩ := exists_of_map_eq_ok h
  simp [Spec.terminal, Node.text, Node.leaf, Kind.isListItem]

theorem buildsNoItems_newlineRule : (newlineRule : Rule R T S).BuildsNoItems := by
  intro captures state spec h
  obtain rfl := Except.ok.inj h
  simp [Spec.terminal, Node.text, Node.leaf, Kind.isListItem]

variable [HasTextStyles T]

theorem buildsNoItems_italicsRule : (italicsRule : Rule R T S).BuildsNoItems := by
  intro captures state spec h
  obtain ⟨span, rfl⟩ := exists_of_build_italicsRule h
  simp [Spec.nonterminal, Node.style, Kind.isListItem]

theorem buildsNoItems_of_mem_rules : ∀ rule ∈ (rules : List (Rule R T S)), rule.BuildsNoItems := by
  intro rule hrule
  simp only [rules, markupRules, List.mem_append, List.mem_cons, List.not_mem_nil,
    or_false] at hrule
  rcases hrule with (rfl | rfl | rfl | rfl | rfl | rfl) | rfl
  · exact buildsNoItems_escapeRule
  · exact buildsNoItems_newlineRule
  · exact buildsNoItems_style _ _
  · exact buildsNoItems_style _ _
  · exact buildsNoItems_italicsRule
  · exact buildsNoItems_style _ _
  · exact buildsNoItems_text _

end Inline

/-! ### Blocks -/

namespace Block

theorem buildsNoItems_quoteRule [QuoteState S] (styles : List T) :
    (quoteRule styles : Rule R T S).BuildsNoItems := by
  intro captures state spec h
  obtain ⟨span, -, rfl⟩ := exists_of_map_eq_ok h
  simp [Spec.nonterminal, Node.style, Kind.isListItem]

theorem buildsNoItems_headerRule (styles : HeaderStyles T) :
    (headerRule styles : Rule R T S).BuildsNoItems := by
  intro captures state spec h
  obtain ⟨signs, title, -, -, rfl⟩ := exists_of_build_headerRule h
  simp [Spec.nonterminal, Node.style, Kind.isListItem]

theorem buildsNoItems_underlinedHeaderRule (styles : HeaderStyles T) :
    (underlinedHeaderRule styles : Rule R T S).BuildsNoItems := by
  intro captures state spec h
  obtain ⟨level, title, -, -, rfl⟩ := exists_of_build_underlinedHeaderRule h
  simp [Spec.nonterminal, Node.style, Kind.isListItem]

theorem builds_listItemRule (bullet : StyleProvider R T) :
    (listItemRule bullet : Rule R T S).Builds (· = .listItem bullet) := by
  intro captures state spec h
  obtain ⟨span, -, rfl⟩ := exists_of_map_eq_ok h
  simp [Spec.nonterminal, Node.leaf]

end Block

/-! ### Code -/

namespace Code

theorem buildsNoItems_definitionRule (pattern : Pattern) (styles : TokenStyles R T) :
    (definitionRule pattern styles : Rule R T S).BuildsNoItems := by
  intro captures state spec h
  obtain ⟨keyword, name, rfl⟩ := exists_of_build_definitionRule h
  simp [Spec.terminal, definitionNode, Node.styledText, Node.leaf, Kind.isListItem]

theorem Kotlin.buildsNoItems_fieldRule (styles : TokenStyles R T) :
    (fieldRule styles : Rule R T S).BuildsNoItems := by
  intro captures state spec h
  obtain ⟨keyword, name, rfl⟩ := exists_of_build_fieldRule h
  simp [Spec.terminal, fieldNode, Node.styledText, Node.leaf, Kind.isListItem]

theorem Kotlin.buildsNoItems_functionRule (styles : TokenStyles R T) :
    (functionRule styles : Rule R T S).BuildsNoItems := by
  intro captures state spec h
  obtain ⟨keyword, name, params, rfl⟩ := exists_of_build_functionRule h
  cases captures.text? 2 <;>
    simp [Spec.terminal, functionNode, Node.styledText, Node.leaf, Kind.isListItem]

theorem Xml.buildsNoItems_tagRule (styles : TokenStyles R T) :
    (tagRule styles : Rule R T S).BuildsNoItems := by
  intro captures state spec h
  obtain ⟨opening, -, h⟩ := exists_of_bind_eq_ok h
  dsimp only at h
  split at h
  · split_ifs at h <;> obtain rfl := Except.ok.inj h <;>
      simp [Spec.terminal, Spec.nonterminal, Node.leaf, Kind.isListItem]
  · obtain rfl := Except.ok.inj h
    simp [Spec.terminal, Node.leaf, Kind.isListItem]

/-- The rules of a language build no list items if its own rules do not. -/
theorem buildsNoItems_of_mem_tokenRules {styles : TokenStyles R T} {own : List (Rule R T S)}
    {lexicon : Lexicon} (hown : ∀ rule ∈ own, rule.BuildsNoItems) :
    ∀ rule ∈ tokenRules styles own lexicon, rule.BuildsNoItems := by
  intro rule hrule
  simp only [tokenRules, List.mem_append, List.mem_cons, List.not_mem_nil, or_false] at hrule
  rcases hrule with hrule | rfl | hrule
  · exact hown rule hrule
  · exact buildsNoItems_definitionRule _ styles
  · rcases hrule with rfl | rfl | rfl | rfl | rfl <;> exact Rule.buildsNoItems_matchGroup ..

/-- The rules of every language build no list items. -/
theorem buildsNoItems_of_mem_languages {styles : TokenStyles R T} {language : String}
    {rules : List (Rule R T S)} (h : (language, rules) ∈ languages styles) :
    ∀ rule ∈ rules, rule.BuildsNoItems := by
  have hkotlin : ∀ rule ∈ (Kotlin.rules styles : List (Rule R T S)), rule.BuildsNoItems :=
    buildsNoItems_of_mem_tokenRules (by
      simp [Rule.buildsNoItems_matchGroup, Kotlin.buildsNoItems_fieldRule,
        Kotlin.buildsNoItems_functionRule])
  have hprotobuf : ∀ rule ∈ (protobufRules styles : List (Rule R T S)), rule.BuildsNoItems :=
    buildsNoItems_of_mem_tokenRules (by simp [Rule.buildsNoItems_matchGroup])
  have hpython : ∀ rule ∈ (pythonRules styles : List (Rule R T S)), rule.BuildsNoItems :=
    buildsNoItems_of_mem_tokenRules (by simp [Rule.buildsNoItems_matchGroup])
  have hrust : ∀ rule ∈ (rustRules styles : List (Rule R T S)), rule.BuildsNoItems :=
    buildsNoItems_of_mem_tokenRules (by simp [Rule.buildsNoItems_matchGroup])
  have hxml : ∀ rule ∈ (Xml.rules styles : List (Rule R T S)), rule.BuildsNoItems := by
    simp [Xml.rules, Rule.buildsNoItems_matchGroup, Xml.buildsNoItems_tagRule]
  simp only [languages, List.mem_cons, List.not_mem_nil, or_false, Prod.mk.injEq] at h
  rcases h with ⟨-, rfl⟩ | ⟨-, rfl⟩ | ⟨-, rfl⟩ | ⟨-, rfl⟩ | ⟨-, rfl⟩ | ⟨-, rfl⟩ | ⟨-, rfl⟩ |
    ⟨-, rfl⟩ | ⟨-, rfl⟩ | ⟨-, rfl⟩ | ⟨-, rfl⟩ <;> assumption

theorem buildsNoItems_inlineRule (textStyles background : StyleProvider R T) :
    (inlineRule textStyles background : Rule R T S).BuildsNoItems := by
  intro captures state spec h
  obtain ⟨body, -, rfl⟩ := exists_of_map_eq_ok h
  simp [Spec.terminal, blockNode, Kind.isListItem]

/-- The rule for code blocks builds no list items if those of the languages do not and no list items
are put around a block. -/
theorem buildsNoItems_blockRule {languages : Languages R T S}
    (hlanguages : ∀ language rules, languages.lookup language = some rules →
      ∀ rule ∈ rules, rule.BuildsNoItems)
    (textStyles : StyleProvider R T) {wrapper : Wrapper R T S}
    (hwrapper : ∀ code onNewLine state,
      (∀ node ∈ Forest.preOrder [code], node.kind.isListItem = false) →
      ∀ node ∈ Forest.preOrder [wrapper code onNewLine state], node.kind.isListItem = false) :
    (blockRule textStyles languages wrapper).BuildsNoItems := by
  intro captures state spec h
  obtain ⟨code, hcode, rfl⟩ := exists_of_map_eq_ok h
  obtain ⟨language, body, tokens, rfl, htokens⟩ := exists_of_buildBlock hcode
  refine hwrapper _ _ state ?_
  rw [Forest.preOrder_cons, List.forall_mem_cons, List.forall_mem_append]
  refine ⟨rfl, ?_, by simp⟩
  rcases htokens with rfl | ⟨tag, rules, hlookup, htokens⟩
  · simp [blockNode]
  · exact kinds_of_parse (hlanguages tag rules hlookup) htokens

end Code

/-! ### Documents -/

namespace Viewer

open Terminal

/-- The rules of a document build no list items but those with the bullet of the theme. -/
theorem builds_of_mem_rules (theme : Theme) :
    ∀ rule ∈ rules theme, rule.Builds fun kind =>
      kind.isListItem = false ∨ kind = .listItem bullet := by
  have hnone {rule : Rule Theme Attribute State} (h : rule.BuildsNoItems) :
      rule.Builds fun kind => kind.isListItem = false ∨ kind = .listItem bullet :=
    h.mono fun _ => .inl
  intro rule hrule
  simp only [rules, Block.rules, Block.headerRules, List.mem_append, List.mem_cons,
    List.not_mem_nil, or_false] at hrule
  rcases hrule with ((rfl | rfl | rfl | rfl) | (rfl | rfl) | rfl) | hrule
  · exact hnone Inline.buildsNoItems_escapeRule
  · refine hnone (Code.buildsNoItems_blockRule (fun _ _ h =>
      Code.buildsNoItems_of_mem_languages (mem_of_lookup h)) _ fun code onNewLine state hcode => ?_)
    rw [wrapBlock]
    split_ifs
    · simpa [Node.style, Kind.isListItem] using hcode
    · exact hcode
  · exact hnone (Code.buildsNoItems_inlineRule _ _)
  · exact hnone (Block.buildsNoItems_quoteRule _)
  · exact hnone (Block.buildsNoItems_headerRule _)
  · exact hnone (Block.buildsNoItems_underlinedHeaderRule _)
  · exact (Block.builds_listItemRule _).mono fun _ => .inr
  · exact hnone (Inline.buildsNoItems_of_mem_rules rule hrule)

/-- The list items of a document have the bullet of the theme. -/
theorem listItem_of_parse {theme : Theme} {source : String} {forest : List (Node Theme Attribute)}
    (h : (parse theme source).value = .ok forest) :
    ∀ node ∈ Forest.preOrder forest,
      node.kind.isListItem = false ∨ node.kind = .listItem bullet :=
  kinds_of_parse (builds_of_mem_rules theme) h

end Viewer

end RuledMarkup
