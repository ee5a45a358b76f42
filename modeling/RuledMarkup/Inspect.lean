import RuledMarkup.Block.Rules
import RuledMarkup.Code.Fence
import RuledMarkup.Node.Inspect

/-!
# Patterns, captures and rules written out

How the parts of a parser are shown to someone who examines them.  Functions inside a rule are not
shown.

## Main definitions

* `Pattern.inspect`, `Captures.inspect`, `Spec.inspect`, `Code.Lexicon.inspect` : values with parts.
* `Inspect.rule?` : the rules that are known by name.
* `Inspect.textRule`, `Inspect.styleRule`, `Inspect.matchGroupRule`, `Inspect.codeBlockRule` : the
  rules that are made for a pattern, and the one for code blocks.
-/

namespace RuledMarkup

open Text

/-- An optional number. -/
def Inspect.optionalNumber (n : Option Nat) : String := Layout.compact.option (n.map toString)

/-- A range of bytes. -/
def Text.ByteRange.inspect (r : ByteRange) : String := toString r.start ++ ".." ++ toString r.stop

/-- An optional range of bytes. -/
def Inspect.optionalRange (r : Option ByteRange) : String :=
  Layout.compact.option (r.map ByteRange.inspect)

/-- A pattern with its written form, with and without the start condition. -/
def Pattern.inspect (pattern : Pattern) : String :=
  Layout.compact.record "Pattern"
    [("regex", Layout.compact.tuple "Regex" [quote (anchoredSource pattern.source)]),
      ("source", quote pattern.source),
      ("ahead", Inspect.optionalNumber pattern.ahead?)]

/-- Captures with their input and the ranges of the groups. -/
def Captures.inspect (captures : Captures) : String :=
  Layout.compact.record "Captures"
    [("input", quote captures.input),
      ("groups", Layout.compact.list (captures.groups.map Inspect.optionalRange))]

/-- A lexicon with its patterns. -/
def Code.Lexicon.inspect (lexicon : Code.Lexicon) : String :=
  Layout.compact.record "Lexicon"
    [("definitions", lexicon.definitions.inspect),
      ("built_ins", lexicon.builtIns.inspect),
      ("keywords", lexicon.keywords.inspect)]

/-- What a rule made of a match, with functions that write styles and states. -/
def Spec.inspect {R T S : Type} (style : T → String) (state : S → String) (spec : Spec R T S) :
    String :=
  Layout.compact.record "ParseSpec"
    [("root", spec.root.inspect .compact style),
      ("state", state spec.state),
      ("span", Inspect.optionalRange spec.span)]

namespace Inspect

/-- The rule that makes text of its match. -/
def textRule (pattern : Pattern) : String :=
  Layout.compact.record "TextRule" [("pattern", pattern.inspect)]

/-- The rule that styles its first group. -/
def styleRule (pattern : Pattern) : String :=
  Layout.partialRecord "StyleRule" [("pattern", quote pattern.source)]

/-- The rule that makes a leaf of one group. -/
def matchGroupRule (pattern : Pattern) (group : Nat) : String :=
  Layout.partialRecord "MatchGroupRule"
    [("pattern", quote pattern.source), ("group", toString group)]

/-- The rule for code blocks, with the tags of its languages in order. -/
def codeBlockRule {R T S : Type} (languages : Code.Languages R T S) : String :=
  let tags := (languages.map (·.1)).mergeSort fun a b => decide (a ≤ b)
  Layout.partialRecord "CodeBlockRule" [("languages", Layout.compact.list (tags.map quote))]

/-- The rules that are shown by a name only, and two that hide their parts. -/
def rule? : String → Option String
  | "escape_rule" => some "EscapeRule"
  | "newline_rule" => some "NewlineRule"
  | "italics_rule" => some "ItalicsRule"
  | "block_rule" => some (Layout.compact.tuple "BlockRule" ["NewlineRule"])
  | "header_rule" => some (Layout.partialRecord "HeaderRule" [])
  | "header_line_rule" => some (Layout.partialRecord "HeaderLineRule" [])
  | "block_quote_rule" => some (Layout.partialRecord "BlockQuoteRule" [])
  | "function_rule" => some "FunctionRule"
  | "field_rule" => some "FieldRule"
  | "tag_rule" => some "TagRule"
  | _ => none

end Inspect

end RuledMarkup
