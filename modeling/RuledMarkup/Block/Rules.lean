import RuledMarkup.Block.Header
import RuledMarkup.Block.ListItem
import RuledMarkup.Block.Quote

/-!
# Rules of block markup

## Main definitions

* `Block.rules` : headers and list items.
-/

namespace RuledMarkup.Block

/-- The rules for headers and then the one for list items. -/
def rules {R T S : Type} (styles : HeaderStyles T) (bullet : StyleProvider R T) :
    List (Rule R T S) :=
  headerRules styles ++ [listItemRule bullet]

end RuledMarkup.Block
