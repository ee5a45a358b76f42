import RuledMarkup.Text.Quoted
import RuledMarkup.Text.Slice

/-!
# Log events

What a parse, the rules of a document and the viewer report besides their results.

## Main definitions

* `Event` : what is reported, with its severity and message.
* `Logged` : a value together with the events on the way to it.
-/

namespace RuledMarkup

/-- How serious an event is. -/
inductive Severity where
  | warn
  | debug
  | trace
deriving DecidableEq, Repr

namespace Severity

/-- The severity in capital letters. -/
def label : Severity → String
  | warn => "WARN"
  | debug => "DEBUG"
  | trace => "TRACE"

/-- Is an event of severity `s` reported to someone who asks for `level`? -/
def shows (level s : Severity) : Bool :=
  match level, s with
  | trace, _ => true
  | debug, trace => false
  | debug, _ => true
  | warn, s => s = warn

end Severity

/-- Something that is reported. -/
inductive Event where
  /-- A color name that is none. -/
  | unknownColor (name : String)
  /-- An empty span at a byte has ended a parse with spans still pending. -/
  | droppedSpans (offset pending : Nat)
  /-- The title of an underlined header is parsed with rules of its own. -/
  | titleFound (title : String) (rules : Nat)
  /-- A code block is parsed with the rules of its language. -/
  | highlighting (bytes : Nat) (language : String)
  /-- A parse has ended. -/
  | parsed (bytes nodes : Nat)
  /-- A rule was tried on a window of a source. -/
  | tried (matched : Bool) (pattern source : String) (window : Text.ByteRange)
deriving DecidableEq, Repr

namespace Event

/-- How serious an event is. -/
def severity : Event → Severity
  | unknownColor _ => .warn
  | droppedSpans _ _ => .warn
  | titleFound _ _ => .debug
  | highlighting _ _ => .debug
  | parsed _ _ => .debug
  | tried _ _ _ _ => .trace

/-- The text of an event. -/
def message : Event → String
  | unknownColor name => "unknown color " ++ Text.quote name ++ ", using the terminal default"
  | droppedSpans offset pending =>
    "empty span at byte " ++ toString offset ++ ", dropping " ++ toString pending
      ++ " pending span(s)"
  | titleFound title rules =>
    "parsing header title " ++ Text.quote title ++ " with " ++ toString rules ++ " rule(s)"
  | highlighting bytes language =>
    "highlighting " ++ toString bytes ++ " byte(s) as " ++ language
  | parsed bytes nodes =>
    "parsed " ++ toString bytes ++ " byte(s) into " ++ toString nodes ++ " top-level node(s)"
  | tried matched pattern source window =>
    (if matched then "MATCH" else "MISS") ++ ": with rule with pattern " ++ Text.quote pattern
      ++ " to source " ++ Text.quote (Text.slice source window)

end Event

/-- A value together with the events on the way to it, in order. -/
structure Logged (α : Type) where
  events : Array Event
  value : α

namespace Logged

/-- A value reached without events. -/
def quiet {α : Type} (value : α) : Logged α := ⟨#[], value⟩

/-- The value with a function applied to it. -/
def map {α β : Type} (f : α → β) (logged : Logged α) : Logged β := ⟨logged.events, f logged.value⟩

@[simp] theorem value_quiet {α : Type} (value : α) : (quiet value).value = value := rfl

@[simp] theorem value_map {α β : Type} (f : α → β) (logged : Logged α) :
    (logged.map f).value = f logged.value := rfl

end Logged

end RuledMarkup
