import RuledMarkup.Node.Basic
import RuledMarkup.Style.StyledText
import RuledMarkup.Text.Word

/-!
# Rendering

Rendering writes the text of a forest in document order and attaches styles to what has been
written.  The styles of inner nodes are attached before those of the nodes around them.

## Main definitions

* `Node.render`, `Forest.render` : renders a tree or a forest at the end of a styled text.
* `Forest.renderText` : renders a forest on its own.
* `Forest.renderWarnings` : what the style providers report on the way.
-/

namespace RuledMarkup

open Text

/-- Splits what stands in the brackets of a tag into its name and the rest, which begins with white
space or a slash. -/
def tagParts (opening : String) : String × String :=
  let isName := fun c => !(isSpace c || c == '/')
  (String.ofList (opening.toList.takeWhile isName), String.ofList (opening.toList.dropWhile isName))

/-- The end of the first character of a text at or after byte `start`; `start` if there is none. -/
def firstCharEnd (text : String) (start : Nat) : Nat :=
  match (slice text ⟨start, text.utf8ByteSize⟩).toList with
  | [] => start
  | c :: _ => start + c.utf8Size

mutual

/-- Renders a tree at the end of a styled text. -/
def Node.render {R T : Type} (ctx : R) : Node R T → StyledText T → StyledText T
  | .mk kind children, out =>
    let start := out.size
    match kind with
    | .parent => Forest.render ctx children out
    | .text content => Forest.render ctx children (out.push content)
    | .style styles =>
      let out := Forest.render ctx children out
      out.setStyles styles ⟨start, out.size⟩
    | .styledText content provider =>
      let out := Forest.render ctx children (out.push content)
      out.setStyles (provider.styles ctx) ⟨start, out.size⟩
    | .code _ body styles =>
      let out := if children.isEmpty then out.push body else Forest.render ctx children out
      out.setStyles (styles.styles ctx) ⟨start, out.size⟩
    | .inlineCode background =>
      let out := Forest.render ctx children out
      out.setStyles (background.styles ctx) ⟨start, out.size⟩
    | .definition => Forest.render ctx children out
    | .function => Forest.render ctx children out
    | .field => Forest.render ctx children out
    | .tag opening closing name attributes =>
      let (tagName, remainder) := tagParts opening
      let nameStyles := name.styles ctx
      let out := (out.push "<").push tagName
      let nameEnd := out.size
      let out := out.setStyles nameStyles ⟨start, nameEnd⟩
      let out := out.push remainder
      let bracket := out.size
      let out := out.push ">"
      let out := out.setStyles (attributes.styles ctx) ⟨nameEnd, bracket⟩
      let out := out.setStyles nameStyles ⟨bracket, out.size⟩
      let out := Forest.render ctx children out
      match closing with
      | none => out
      | some closing =>
        if closing.isEmpty then out
        else
          let closingStart := out.size
          let out := ((out.push "</").push closing).push ">"
          out.setStyles nameStyles ⟨closingStart + 1, out.size⟩
    | .listItem bullet =>
      let out := Forest.render ctx children out
      out.setStyles (bullet.styles ctx) ⟨start, firstCharEnd out.text start⟩
    | .mention _ resolve => out.push ((resolve ctx).getD "Invalid User")

/-- Renders the trees of a forest, one after the other, at the end of a styled text. -/
def Forest.render {R T : Type} (ctx : R) : List (Node R T) → StyledText T → StyledText T
  | [], out => out
  | node :: forest, out => Forest.render ctx forest (node.render ctx out)

end

/-- A forest rendered on its own. -/
def Forest.renderText {R T : Type} (ctx : R) (forest : List (Node R T)) : StyledText T :=
  Forest.render ctx forest {}

mutual

/-- What the style providers of a tree report when it is rendered. -/
def Node.renderWarnings {R T : Type} (ctx : R) : Node R T → List Event
  | .mk kind children =>
    match kind with
    | .styledText _ provider => Forest.renderWarnings ctx children ++ provider.warnings ctx
    | .code _ _ styles => Forest.renderWarnings ctx children ++ styles.warnings ctx
    | .inlineCode background => Forest.renderWarnings ctx children ++ background.warnings ctx
    | .tag _ _ name attributes =>
      name.warnings ctx ++ attributes.warnings ctx ++ Forest.renderWarnings ctx children
    | .listItem bullet => Forest.renderWarnings ctx children ++ bullet.warnings ctx
    | .mention _ _ => []
    | _ => Forest.renderWarnings ctx children

/-- What the style providers of a forest report when it is rendered. -/
def Forest.renderWarnings {R T : Type} (ctx : R) : List (Node R T) → List Event
  | [] => []
  | node :: forest => node.renderWarnings ctx ++ Forest.renderWarnings ctx forest

end

end RuledMarkup
