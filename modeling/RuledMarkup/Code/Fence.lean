import RuledMarkup.Code.Languages
import RuledMarkup.Parse.Engine

/-!
# Code blocks and inline code

A code block stands between fences of three backquotes and may begin with a language tag.  If there
are rules for the tag, the body is parsed with them and the tokens become children of the block.

## Main definitions

* `Code.blockRule` : the rule for code blocks.
* `Code.inlineRule` : the rule for code in a line of text.
-/

namespace RuledMarkup.Code

/-- A fence, a tag (group 1) with white space after it (group 2) or only white space (group 3), the
body (group 4), line ends that belong to nothing, and a fence. -/
def block : Pattern :=
  .of "(?s)```(?:([A-Za-z0-9_+\\-.]+)(\\s+)|(\\s*))([^\\n].*?)\\n*```"
    (spelled rfl) (by decide +kernel)

/-- Code between single backquotes. -/
def inlineCode : Pattern :=
  .of "(?s)`(?:\\s*)([^\\n].*?)\\n*`" (spelled rfl) (by decide +kernel)

variable {R T S : Type}

/-- What is put around a finished code block, which is told whether the body started on a line of
its own, and the state. -/
abbrev Wrapper (R T S : Type) : Type := Node R T → Bool → S → Node R T

/-- The node of a code block whose body has been parsed into `tokens`. -/
def blockNode (language : Option String) (body : String) (styles : StyleProvider R T)
    (tokens : List (Node R T)) : Node R T :=
  .mk (.code language body styles) tokens

/-- Does the body of a code block start on a line of its own? -/
def startsOnNewLine (captures : Captures) : Bool :=
  match captures.text? 2 with
  | some space => space.contains '\n'
  | none => ((captures.text? 3).getD "").contains '\n'

/-- The code in a block.  A tag without rules is the language of a block whose body starts on a line
of its own; otherwise it is the first word of the body. -/
def buildBlock (textStyles : StyleProvider R T) (languages : Languages R T S)
    (captures : Captures) (state : S) : Logged (Except ParseError (Node R T)) :=
  match captures.group 4 with
  | .error error => .quiet (.error error)
  | .ok body =>
    match captures.text? 1 with
    | none => .quiet (.ok (blockNode none body textStyles []))
    | some language =>
      match languages.lookup language with
      | some rules =>
        let tokens := parse rules body state
        ⟨#[.highlighting body.utf8ByteSize language] ++ tokens.events,
          tokens.value.map (blockNode (some language) body textStyles)⟩
      | none =>
        if startsOnNewLine captures then
          .quiet (.ok (blockNode (some language) body textStyles []))
        else
          .quiet do
            let tag ← captures.span 1
            let rest ← captures.span 4
            let body := Text.slice captures.input ⟨tag.start, rest.stop⟩
            .ok (blockNode none body textStyles [])

/-- A code block. -/
def blockRule (textStyles : StyleProvider R T) (languages : Languages R T S)
    (wrapper : Wrapper R T S := fun code _ _ => code) : Rule R T S where
  pattern := block
  tryMatch := fun window _ _ => block.matchStart window
  build := fun captures state =>
    (buildBlock textStyles languages captures state).map fun code =>
      code.map fun code => .terminal (wrapper code (startsOnNewLine captures) state) state

/-- Code in a line of text. -/
def inlineRule (textStyles background : StyleProvider R T) : Rule R T S :=
  .matching inlineCode fun captures state =>
    (captures.group 1).map fun body =>
      .terminal (.mk (.inlineCode background) [blockNode none body textStyles []]) state

end RuledMarkup.Code
