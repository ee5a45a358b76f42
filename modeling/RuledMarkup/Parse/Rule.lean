import RuledMarkup.Node.Basic
import RuledMarkup.Pattern

/-!
# Rules

A rule is one alternative that a parse may try at a position: it says whether it matches the start
of a window, and it builds a node from its match.  A rule may ask for a span of its window to be
parsed further, under its node and in a state of its choice.

## Main definitions

* `Spec` : what a rule makes of a match.
* `Rule` : a pattern, a test and a builder.
* `Rule.matching`, `Rule.atLineStart` : rules that match by their pattern, and at line starts only.
* `startsLine` : does the text consumed last end a line.
-/

namespace RuledMarkup

/-- What a rule makes of a match: a node, the state below it, and the span of the window to be
parsed under it, if there is one. -/
structure Spec (R T S : Type) where
  root : Node R T
  state : S
  span : Option Text.ByteRange

namespace Spec

variable {R T S : Type}

/-- A finished node. -/
def terminal (root : Node R T) (state : S) : Spec R T S := ⟨root, state, none⟩

/-- A node with a span to be parsed under it. -/
def nonterminal (root : Node R T) (state : S) (span : Text.ByteRange) : Spec R T S :=
  ⟨root, state, some span⟩

/-- Is the node finished? -/
def isTerminal (spec : Spec R T S) : Bool := spec.span.isNone

end Spec

/-- One alternative of a parse.  `R` is the context of a rendering, `T` the type of styles and `S`
the state that flows down the tree. -/
structure Rule (R T S : Type) where
  /-- The pattern the rule is known by. -/
  pattern : Pattern
  /-- Does the rule apply to the start of a window, given the text consumed last in the whole parse
  and the state? -/
  tryMatch : String → Option String → S → Option Captures
  /-- The node for a match, with what is reported on the way. -/
  build : Captures → S → Logged (Except ParseError (Spec R T S))

/-- Is a position where `last` was consumed before it the start of a line?  The start of the parse
is one. -/
def startsLine (last : Option String) : Bool := last.all fun consumed => consumed.endsWith '\n'

namespace Rule

variable {R T S : Type}

/-- The rule that matches by its pattern and reports nothing. -/
def matching (pattern : Pattern) (build : Captures → S → Except ParseError (Spec R T S)) :
    Rule R T S where
  pattern
  tryMatch := fun window _ _ => pattern.matchStart window
  build := fun captures state => .quiet (build captures state)

/-- The rule restricted to the starts of lines. -/
def atLineStart (rule : Rule R T S) : Rule R T S :=
  { rule with
    tryMatch := fun window last state =>
      if startsLine last then rule.tryMatch window last state else none }

end Rule

end RuledMarkup
