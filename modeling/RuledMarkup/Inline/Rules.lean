import RuledMarkup.Inline.Patterns
import RuledMarkup.Parse.Rule

/-!
# Rules of inline markup

Rules for escapes, blank lines, the four text styles and plain text.  Their order matters: escapes
come first so that an escaped asterisk opens nothing, bold comes before italics so that two
asterisks are not read as two single ones, and plain text comes last.

## Main definitions

* `TextStyle`, `HasTextStyles` : the four styles, and style types that have them.
* `Rule.text`, `Rule.style` : rules that make text of their match, and that style their first group.
* `Inline.rules` : the rules in order.
-/

namespace RuledMarkup

/-- The styles that inline markup can ask for. -/
inductive TextStyle where
  | bold
  | italic
  | underline
  | strikethrough
deriving DecidableEq, Repr

/-- Style types that have the styles of inline markup. -/
class HasTextStyles (T : Type) where
  textStyle : TextStyle → T

variable {R T S : Type}

namespace Rule

/-- Makes a text of what the pattern consumes. -/
def text (pattern : Pattern) : Rule R T S :=
  .matching pattern fun captures state => .ok (.terminal (.text captures.consumed) state)

/-- Puts styles around the first group of the pattern, which is parsed further. -/
def style (pattern : Pattern) (styles : List T) : Rule R T S :=
  .matching pattern fun captures state =>
    (captures.span 1).map fun span => .nonterminal (.style styles []) state span

end Rule

namespace Inline

/-- An escaped character without its backslash. -/
def escapeRule : Rule R T S :=
  .matching escape fun captures state =>
    (captures.group 1).map fun character => .terminal (.text character) state

/-- Blank lines become a single line end. -/
def newlineAnywhere : Rule R T S :=
  .matching newline fun _ state => .ok (.terminal (.text "\n") state)

/-- Blank lines at the start of a line. -/
def newlineRule : Rule R T S := newlineAnywhere.atLineStart

/-- Plain text. -/
def textRule : Rule R T S := .text text

variable [HasTextStyles T]

/-- Bold text. -/
def boldRule : Rule R T S := .style bold [HasTextStyles.textStyle .bold]

/-- Underlined text. -/
def underlineRule : Rule R T S := .style underline [HasTextStyles.textStyle .underline]

/-- Struck text. -/
def strikethroughRule : Rule R T S := .style strikethrough [HasTextStyles.textStyle .strikethrough]

/-- Text in italics, which stands in the group of the alternative that matched. -/
def italicsRule : Rule R T S :=
  .matching italics fun captures state => do
    let span ←
      match captures.range? 2 with
      | some span => if span.isEmpty then captures.span 1 else .ok span
      | none => captures.span 1
    .ok (.nonterminal (.style [HasTextStyles.textStyle .italic] []) state span)

/-- The rules of inline markup, except the one for plain text. -/
def markupRules : List (Rule R T S) :=
  [escapeRule, newlineRule, boldRule, underlineRule, italicsRule, strikethroughRule]

/-- The rules of inline markup in order. -/
def rules : List (Rule R T S) := markupRules ++ [textRule]

end Inline

end RuledMarkup
