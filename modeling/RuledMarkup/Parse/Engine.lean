import RuledMarkup.Parse.Arena
import RuledMarkup.Parse.Rule

/-!
# Parsing with a list of rules

A parse keeps a stack of spans that are still to be parsed.  Each step takes the top span, finds the
first rule that matches at its start and attaches the node of the rule.  What is left of the span
goes back on the stack, and a span that the rule wants to be parsed goes on top of it, so children
come out in document order.  An empty span on top of the stack ends the whole parse.

## Main definitions

* `Pending`, `Machine` : a span to be parsed, and a parse in progress.
* `step` : one step of a parse.
* `parse` : parses a source.
-/

namespace RuledMarkup

variable {R T S : Type}

/-- A span that is still to be parsed, and where what is found in it belongs. -/
structure Pending (S : Type) where
  parent : Nat
  state : S
  range : Text.ByteRange

/-- A parse in progress. -/
structure Machine (R T S : Type) where
  /-- The spans still to be parsed, the next one first. -/
  pending : List (Pending S)
  /-- The nodes found so far. -/
  arena : Arena R T
  /-- The text consumed last. -/
  last : Option String
  /-- What has been reported. -/
  events : Array Event

/-- What a step leads to. -/
inductive Progress (R T S : Type) where
  | running (machine : Machine R T S)
  | ended (machine : Machine R T S)
  | failed (events : Array Event) (error : ParseError)

/-- The first rule that matches the start of a window, with its captures and a report of the rules
tried. -/
def firstMatch (source : String) (range : Text.ByteRange) (window : String)
    (last : Option String) (state : S) (events : Array Event) :
    List (Rule R T S) → Array Event × Option (Rule R T S × Captures)
  | [] => (events, none)
  | rule :: rules =>
    match rule.tryMatch window last state with
    | some captures =>
      (events.push (.tried true rule.pattern.source source range), some (rule, captures))
    | none =>
      firstMatch source range window last state
        (events.push (.tried false rule.pattern.source source range)) rules

/-- The spans to be parsed after a match at the start of `item`: first the span that the rule asks
for, then what is left of the item. -/
def Pending.following (item : Pending S) (size : Nat) (id : Nat) (state : S)
    (span : Option Text.ByteRange) : List (Pending S) :=
  let middle := item.range.start + size
  let remainder : List (Pending S) :=
    if middle = item.range.stop then [] else [{ item with range := ⟨middle, item.range.stop⟩ }]
  match span with
  | none => remainder
  | some span => ⟨id, state, span.shift item.range.start⟩ :: remainder

/-- Is a span in order and within a window? -/
def fitsWindow (window : String) (span : Text.ByteRange) : Bool :=
  span.start ≤ span.stop && span.stop ≤ window.utf8ByteSize

/-- Parses the start of a span that is not empty. -/
def stepAt (rules : List (Rule R T S)) (source : String) (machine : Machine R T S)
    (item : Pending S) (pending : List (Pending S)) : Progress R T S :=
  let offset := item.range.start
  match Text.slice? source item.range with
  | none => .failed machine.events (.invalidSpan item.range)
  | some window =>
    match firstMatch source item.range window machine.last item.state machine.events rules with
    | (events, none) => .failed events (.noMatchingRule offset window source)
    | (events, some (rule, captures)) =>
      if captures.size = 0 then .failed events (.emptyMatch offset rule.pattern.source)
      else
        let built := rule.build captures item.state
        let events := events ++ built.events
        match built.value with
        | .error error => .failed events error
        | .ok spec =>
          let (arena, id) := machine.arena.attach item.parent spec.root
          if spec.span.all (fitsWindow window) then
            .running {
              pending := item.following captures.size id spec.state spec.span ++ pending
              arena
              last := some captures.consumed
              events }
          else .failed events (.invalidSpan ((spec.span.getD ⟨0, 0⟩).wrappingShift offset))

/-- One step of a parse. -/
def step (rules : List (Rule R T S)) (source : String) (machine : Machine R T S) :
    Progress R T S :=
  match machine.pending with
  | [] => .ended machine
  | item :: pending =>
    if item.range.isEmpty then
      if pending.isEmpty then .ended machine
      else
        .ended { machine with
          events := machine.events.push (.droppedSpans item.range.start pending.length) }
    else stepAt rules source machine item pending

/-- Steps until the parse ends, but at most a number of times. -/
def run (rules : List (Rule R T S)) (source : String) :
    Nat → Machine R T S → Logged (Except ParseError (List (Node R T)))
  | 0, machine => ⟨machine.events, .error .stepLimit⟩
  | bound + 1, machine =>
    match step rules source machine with
    | .running machine => run rules source bound machine
    | .failed events error => ⟨events, .error error⟩
    | .ended machine =>
      let forest := machine.arena.finish
      ⟨machine.events.push (.parsed source.utf8ByteSize forest.length), .ok forest⟩

/-- The start of a parse: the whole source is to be parsed, unless it is empty. -/
def Machine.start (source : String) (state : S) : Machine R T S where
  pending :=
    if source.isEmpty then [] else [⟨Arena.root, state, ⟨0, source.utf8ByteSize⟩⟩]
  arena := {}
  last := none
  events := #[]

/-- How many steps a parse may take.  Rules that shorten the spans they ask for need no more than
one for each byte and one to end. -/
def stepsAllowed (source : String) : Nat := 1000000 + 64 * source.utf8ByteSize

/-- Parses a source with a list of rules, of which earlier ones win. -/
def parse (rules : List (Rule R T S)) (source : String) (state : S) :
    Logged (Except ParseError (List (Node R T))) :=
  run rules source (stepsAllowed source) (Machine.start source state)

end RuledMarkup
