import RuledMarkup.Proofs.Block.Markup
import RuledMarkup.Proofs.Code.Fences
import RuledMarkup.Proofs.Code.Verbatim
import RuledMarkup.Viewer.Rules

/-!
# Every document can be parsed

The rules of a document never fail: every window is matched by some rule, every match consumes
something, the groups that a rule reads have taken part, and the spans that it asks for are slices
of its window.  The bodies of code blocks are parsed with the rules of their languages, which never
fail either.

## Main definitions

* `Account.trivial` : the account that holds of every forest.

## Main results

* `Code.accounts_blockRule` : code blocks are built if their bodies can be parsed.
* `Viewer.parse_succeeds` : every document can be parsed.
-/

namespace RuledMarkup

variable {R T S : Type}

/-- The account that holds of every forest: all that it says is that a parse succeeds. -/
def Account.trivial (R T : Type) : Account R T where
  whole _ _ := True
  part _ _ := True
  whole_nil := True.intro
  whole_append := fun _ _ => True.intro
  part_append := fun _ _ => True.intro
  part_left := fun _ _ => True.intro

theorem Rule.Accounts.trivial {account : Account R T} {rule : Rule R T S}
    (h : rule.Accounts account) : rule.Accounts (.trivial R T) := by
  intro window last state captures hmatch
  obtain ⟨hover, hsize, spec, hbuilt, hspec⟩ := h hmatch
  refine ⟨hover, hsize, spec, hbuilt, ?_⟩
  cases hspan : spec.span with
  | none =>
    simp only [Spec.Accounts, hspan]
    exact True.intro
  | some span =>
    simp only [Spec.Accounts, hspan] at hspec ⊢
    obtain ⟨inner, hslice, hlt, -⟩ := hspec
    exact ⟨inner, hslice, hlt, fun _ => True.intro, fun _ => True.intro, fun _ => True.intro⟩

/-- A rule that only builds finished nodes needs no more than a node for each match. -/
theorem Rule.accounts_trivial_of_terminal {rule : Rule R T S} {pattern : Pattern}
    (hpattern : pattern.isAdvancing = true)
    (hrule : ∀ ⦃window last state captures⦄, rule.tryMatch window last state = some captures →
      pattern.matchStart window = some captures ∧
        ∃ node, (rule.build captures state).value = .ok (.terminal node state)) :
    rule.Accounts (.trivial R T) := by
  intro window last state captures hmatch
  obtain ⟨hstart, node, hbuilt⟩ := hrule hmatch
  exact ⟨Pattern.over_of_matchStart hstart, Pattern.size_pos_of_isAdvancing hpattern hstart, _,
    hbuilt, True.intro⟩

namespace Code

variable {languages : Languages R T S}

variable (hlanguages : ∀ language rules, languages.lookup language = some rules →
  ∀ body state, ∃ tokens, (parse rules body state).value = .ok tokens)

include hlanguages

theorem accounts_blockRule (textStyles : StyleProvider R T) (wrapper : Wrapper R T S) :
    (blockRule textStyles languages wrapper).Accounts (.trivial R T) := by
  refine Rule.accounts_trivial_of_terminal fenceShapes.block_isAdvancing ?_
  intro window last state captures hmatch
  obtain ⟨node, hnode⟩ := exists_buildBlock hlanguages hmatch textStyles state
  refine ⟨hmatch, wrapper node (startsOnNewLine captures) state, ?_⟩
  simp [blockRule, Logged.map, hnode, Except.map]

omit hlanguages in
theorem accounts_inlineRule (textStyles background : StyleProvider R T) :
    (inlineRule textStyles background : Rule R T S).Accounts (.trivial R T) := by
  refine Rule.accounts_trivial_of_terminal fenceShapes.inlineCode_isAdvancing ?_
  intro window last state captures hmatch
  obtain ⟨body, hbody⟩ := Pattern.exists_range?_of_hasGroup fenceShapes.inlineCode_hasGroup hmatch
  refine ⟨hmatch, .mk (.inlineCode background)
    [blockNode none (Text.slice captures.input body) textStyles []], ?_⟩
  simp [inlineRule, Rule.matching, Logged.quiet, Captures.group_of_range? hbody, Except.map]

end Code

namespace Viewer

open Terminal

/-- The body of a code block can be parsed in every language. -/
theorem parse_language_succeeds {language : String} {rules : List (Rule Theme Attribute State)}
    (h : (Code.languages tokenStyles).lookup language = some rules) (body : String)
    (state : State) :
    ∃ tokens, (RuledMarkup.parse rules body state).value = .ok tokens := by
  have hmem := mem_of_lookup h
  obtain ⟨tokens, htokens, -⟩ := parse_accounts (Code.accounts_of_mem_languages hmem)
    (Code.catches_of_mem_languages hmem) body state
  exact ⟨tokens, htokens⟩

theorem accounts_of_mem_rules (theme : Theme) :
    ∀ rule ∈ rules theme, rule.Accounts (.trivial Theme Attribute) := by
  intro rule hrule
  simp only [rules, Block.rules, Block.headerRules, List.mem_append, List.mem_cons,
    List.not_mem_nil, or_false] at hrule
  rcases hrule with ((rfl | rfl | rfl | rfl) | (rfl | rfl) | rfl) | hrule
  · exact (Inline.accounts_escapeRule True).trivial
  · exact Code.accounts_blockRule (fun _ _ h => parse_language_succeeds h) _ _
  · exact Code.accounts_inlineRule _ _
  · exact (Block.accounts_quoteRule True _).trivial
  · exact (Block.accounts_headerRule _).trivial
  · exact (Block.accounts_underlinedHeaderRule True _).trivial
  · exact (Block.accounts_listItemRule bullet).trivial
  · exact (Inline.accounts_of_mem_rules True rule hrule).trivial

/-- Every document can be parsed in the colors of every theme, and so can the body of every code
block in every language. -/
theorem parse_succeeds (theme : Theme) (source : String) :
    (∃ forest, (parse theme source).value = .ok forest) ∧
      ∀ language rules, (Code.languages tokenStyles).lookup language = some rules →
        ∀ body (state : State),
          ∃ tokens, (RuledMarkup.parse rules body state).value = .ok tokens := by
  refine ⟨?_, fun language rules h => parse_language_succeeds h⟩
  have htext : Inline.textRule ∈ rules theme := by simp [rules, Inline.rules]
  obtain ⟨forest, hvalue, -⟩ := parse_accounts (accounts_of_mem_rules theme)
    (Inline.catches_of_mem htext) source {}
  exact ⟨forest, hvalue⟩

end Viewer

end RuledMarkup
