import RuledMarkup.Parse.Rule

/-!
# Block quotes

Three angle brackets at the start of a line quote the rest of the window, and one quotes the line.
The state says whether a parse is inside a quote, where no further quote begins.

## Main definitions

* `QuoteState` : states that know whether they are inside a quote.
* `Block.quoteRule` : the rule for quotes.
-/

namespace RuledMarkup

/-- States of a parse that know whether it is inside a quote. -/
class QuoteState (S : Type) where
  inQuote : S → Bool
  setInQuote : Bool → S → S
  inQuote_setInQuote (b : Bool) (s : S) : inQuote (setInQuote b s) = b

instance : QuoteState Bool where
  inQuote b := b
  setInQuote b _ := b
  inQuote_setInQuote _ _ := rfl

namespace Block

/-- Three brackets and the rest (group 1), or one bracket and the rest of the line with its end
(group 2). -/
def quote : Pattern :=
  .of "(?s) *>>> ?(.+)| *> ?([^\\n]+\\n?)" (spelled rfl) (by decide +kernel)

/-- Does the marker of a quoted line look like the start of three brackets? -/
def hasLongMarker (window : String) : Bool :=
  match window.toList.dropWhile (· == ' ') with
  | '>' :: '>' :: '>' :: _ => true
  | _ => false

/-- The match of a quote at the start of a window.  One bracket must not be the first of three. -/
def matchQuote (window : String) : Option Captures :=
  match quote.matchStart window with
  | none => none
  | some captures =>
    if (captures.range? 1).isNone && hasLongMarker window then none else some captures

/-- A quote, in the given styles. -/
def quoteRule {R T S : Type} [QuoteState S] (styles : List T) : Rule R T S :=
  Rule.atLineStart {
    pattern := quote
    tryMatch := fun window _ state =>
      if QuoteState.inQuote state then none else matchQuote window
    build := fun captures state =>
      let span : Except ParseError Text.ByteRange :=
        match captures.range? 1 with
        | some span => .ok span
        | none => captures.span 2
      .quiet (span.map fun span =>
        .nonterminal (.style styles []) (QuoteState.setInQuote true state) span) }

end Block

end RuledMarkup
