import RuledMarkup.Node.Walk
import RuledMarkup.Text.Layout

/-!
# Trees written out

A tree is written with the names of its kinds, either as one value or as an outline with one line
for each node.

## Main definitions

* `Node.inspect`, `Forest.inspect` : a tree and a forest as one value.
* `Forest.dump` : a forest as an outline.
-/

namespace RuledMarkup

open Text

/-- A kind written out; `style` writes a style. -/
def Kind.inspect {R T : Type} (layout : Layout) (style : T → String) : Kind R T → String
  | .parent => "Parent"
  | .text content => layout.tuple "Text" [quote content]
  | .style styles => layout.tuple "Style" [layout.list (styles.map style)]
  | .styledText content _ => layout.tuple "StyledTextNode" [quote content]
  | .code language body _ =>
    layout.record "CodeNode"
      [("language", layout.option (language.map quote)), ("body", quote body)]
  | .inlineCode _ => "InlineCodeNode"
  | .definition => "DefinitionNode"
  | .function => "FunctionNode"
  | .field => "FieldNode"
  | .tag opening closing _ _ =>
    layout.record "TagNode"
      [("opening", quote opening), ("closing", layout.option (closing.map quote))]
  | .listItem _ => "ListItemNode"
  | .mention key _ => layout.tuple "Mention" [quote key]

mutual

/-- A tree written out: the bare kind of a node without children. -/
def Node.inspect {R T : Type} (layout : Layout) (style : T → String) : Node R T → String
  | .mk kind [] => kind.inspect layout style
  | .mk kind (child :: children) =>
    layout.record "Node"
      [("kind", kind.inspect layout style),
        ("children", layout.list (Forest.inspectEach layout style (child :: children)))]

/-- The trees of a forest, each written out. -/
def Forest.inspectEach {R T : Type} (layout : Layout) (style : T → String) :
    List (Node R T) → List String
  | [] => []
  | node :: forest => node.inspect layout style :: Forest.inspectEach layout style forest

end

/-- A forest written out as a list. -/
def Forest.inspect {R T : Type} (layout : Layout) (style : T → String)
    (forest : List (Node R T)) : String :=
  layout.list (inspectEach layout style forest)

/-- The line of a node in an outline: its kind, indented by two spaces for each level. -/
def Forest.dumpLine {R T : Type} (style : T → String) (depth : Nat) (node : Node R T) : String :=
  String.join (List.replicate depth "  ") ++ node.kind.inspect .compact style ++ "\n"

/-- A forest as an outline, with one line for each node, parents before their children. -/
def Forest.dump {R T : Type} (style : T → String) (forest : List (Node R T)) : String :=
  foldLevels (fun found depth node => found ++ dumpLine style depth node) "" forest

end RuledMarkup
