import RuledMarkup.Text.Quoted
import RuledMarkup.Text.Slice

/-!
# Errors of a parse

Each of them ends the whole parse.

## Main definitions

* `ParseError` : what can go wrong.
* `ParseError.message` : the text shown for an error.
-/

namespace RuledMarkup

/-- What can go wrong in a parse. -/
inductive ParseError where
  /-- No rule accepts the window `snippet` at byte `offset` of the source `input`. -/
  | noMatchingRule (offset : Nat) (snippet input : String)
  /-- The first rule that matches at byte `offset` consumes nothing. -/
  | emptyMatch (offset : Nat) (pattern : String)
  /-- A rule asks for a span that is reversed, leaves its window or cuts a character. -/
  | invalidSpan (span : Text.ByteRange)
  /-- A rule reads a group that took no part in the match. -/
  | missingGroup (group : Nat) (matched : String)
  /-- A rule fails for a reason of its own. -/
  | rule (matched cause : String)
  /-- The rules ask for ever more spans: the steps allowed to the parse are used up. -/
  | stepLimit
deriving Repr, DecidableEq

namespace ParseError

/-- The text shown for an error. -/
def message : ParseError → String
  | noMatchingRule offset snippet _ =>
    "failed to find rule to match source at byte " ++ toString offset ++ ": " ++ Text.quote snippet
  | emptyMatch offset pattern =>
    "rule pattern " ++ Text.quote pattern ++ " matched zero bytes at byte " ++ toString offset
  | invalidSpan span =>
    "rule produced span " ++ toString span.start ++ ".." ++ toString span.stop
      ++ " outside the source or off a char boundary"
  | missingGroup group matched =>
    "capture group " ++ toString group ++ " did not participate in match " ++ Text.quote matched
  | rule matched _ => "rule failed on " ++ Text.quote matched
  | stepLimit => "the rules ask for more spans than the parse may take steps"

/-- The error behind an error, if there is one. -/
def cause? : ParseError → Option String
  | rule _ cause => some cause
  | _ => none

end ParseError

end RuledMarkup
