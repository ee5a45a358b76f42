import RuledMarkup.Parse.Rule

/-!
# List items

An item of a list is a line that begins with an asterisk and a space or tab.

## Main definitions

* `Block.listItemRule` : the rule for items.
-/

namespace RuledMarkup.Block

/-- An asterisk, a space or tab, and the item up to the end of the line. -/
def listItem : Pattern :=
  .of "\\*[ \\t](.*)(?P<ahead>\\n|$)" (spelled rfl) (by decide +kernel)

/-- An item of a list, whose bullet styles cover its first character. -/
def listItemRule {R T S : Type} (bullet : StyleProvider R T) : Rule R T S :=
  Rule.atLineStart <| .matching listItem fun captures state =>
    (captures.span 1).map fun span => .nonterminal (.leaf (.listItem bullet)) state span

end RuledMarkup.Block
