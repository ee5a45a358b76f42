import RuledMarkup.Block.Rules
import RuledMarkup.Code.Fence
import RuledMarkup.Terminal.Style
import RuledMarkup.Theme.Basic

/-!
# Documents in the colors of a theme

The rules of a document, with the styles that a theme gives them.  The styles of headers, of quotes
and behind code blocks are those of the theme with which the rules are made; the styles of code and
of bullets are those of the theme with which the document is rendered.

## Main definitions

* `Viewer.rules`, `Viewer.ruleWarnings` : the rules, and what is reported when they are made.
* `Viewer.parse` : parses a document.
-/

namespace RuledMarkup

/-- The styles of inline markup are shown by modifiers. -/
instance : HasTextStyles Terminal.Attribute where
  textStyle
    | .bold => .style { modifiers := { bold := true } }
    | .italic => .style { modifiers := { italic := true } }
    | .underline => .style { modifiers := { underlined := true } }
    | .strikethrough => .style { modifiers := { crossedOut := true } }

namespace Viewer

open Terminal

/-- The state of a parse: is it inside a quote? -/
structure State where
  inQuote : Bool := false
deriving DecidableEq, Repr

instance : QuoteState State where
  inQuote state := state.inQuote
  setInQuote inQuote _ := { inQuote }
  inQuote_setInQuote _ _ := rfl

/-- Letters in a color. -/
def inColor (name : String) (modifiers : Modifiers := {}) : Style :=
  { foreground := some (Color.ofName name), modifiers }

/-- A color behind letters. -/
def onColor (name : String) : Style := { background := some (Color.ofName name) }

/-- One attribute in a color that is looked up in the theme of the rendering. -/
def themed (color : Theme → String) (make : String → Attribute) :
    StyleProvider Theme Attribute where
  styles := fun theme => [make (color theme)]
  warnings := fun theme => Color.warnings (color theme)

/-- A part of code: letters in a color of the theme of the rendering. -/
def codeStyle (color : CodeColors → String) (modifiers : Modifiers := {}) :
    StyleProvider Theme Attribute :=
  themed (fun theme => color theme.code) fun name => .style (inColor name modifiers)

/-- The styles of the parts of code.  Comments are in italics and keywords are bold. -/
def tokenStyles : TokenStyles Theme Attribute where
  default := codeStyle (·.default)
  comment := codeStyle (·.comment) { italic := true }
  literal := codeStyle (·.literal)
  keyword := codeStyle (·.keyword) { bold := true }
  identifier := codeStyle (·.identifier)
  types := codeStyle (·.types)
  generics := codeStyle (·.generics)
  params := codeStyle (·.params)

/-- Headers are bold, in the color of their level if it has one. -/
def headerStyles (theme : Theme) : HeaderStyles Attribute where
  style level :=
    .style {
      foreground := (theme.headerColor? level).map Color.ofName
      modifiers := { bold := true } }
  warnings level := ((theme.headerColor? level).map Color.warnings).getD []

/-- Quotes are in italics. -/
def quoteStyle (theme : Theme) : Attribute := .style (inColor theme.quote { italic := true })

/-- The color behind code blocks. -/
def blockBackground (theme : Theme) : Attribute := .style (onColor theme.inlineCodeBackground)

/-- A code block whose body starts on a line of its own has a color behind it. -/
def wrapBlock (theme : Theme) : Code.Wrapper Theme Attribute State := fun code onNewLine _ =>
  if onNewLine then .style [blockBackground theme] [code] else code

/-- Code in a line of text has a color behind it. -/
def inlineBackground : StyleProvider Theme Attribute :=
  themed (·.inlineCodeBackground) fun name => .style (onColor name)

/-- The bullet of a list item. -/
def bullet : StyleProvider Theme Attribute :=
  themed (·.bullet) fun name => .bullet (inColor name)

/-- The rules of a document in the colors of a theme: escapes, code, quotes, headers and lists, and
then inline markup. -/
def rules (theme : Theme) : List (Rule Theme Attribute State) :=
  [Inline.escapeRule,
    Code.blockRule tokenStyles.default (Code.languages tokenStyles) (wrapBlock theme),
    Code.inlineRule tokenStyles.default inlineBackground,
    Block.quoteRule [quoteStyle theme]]
  ++ Block.rules (headerStyles theme) bullet ++ Inline.rules

/-- What is reported when the rules are made. -/
def ruleWarnings (theme : Theme) : List Event :=
  Color.warnings theme.quote ++ Color.warnings theme.inlineCodeBackground

/-- Parses a document with the rules of a theme. -/
def parse (theme : Theme) (source : String) :
    Logged (Except ParseError (List (Node Theme Attribute))) :=
  let parsed := RuledMarkup.parse (rules theme) source ({} : State)
  ⟨(ruleWarnings theme).toArray ++ parsed.events, parsed.value⟩

end Viewer

end RuledMarkup
