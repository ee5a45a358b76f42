import Mathlib.Tactic.Common
import RuledMarkup.Parse.Engine

/-!
# Recursive descent

What a parse with a list of rules means, without a stack and without numbered nodes.  A descent
through a window takes the first rule that matches, descends into the span that the rule asks for,
and then goes on with the rest of the window.  The state is handed down into spans only; the text
consumed last is handed on from each match to the next one in document order, whether that lies in
a span or after it.  The first empty span stops the whole descent.

The rules may ask for ever longer spans, so a descent need not end.  It takes an explicit bound on
its depth, and has no outcome if the bound is too small.

## Main definitions

* `Outcome` : how a descent through a window ends.
* `descend` : a descent through a window that is not empty.
* `descent` : a descent through a source.

## Main results

* `descend_mono` : with a greater bound the outcome is the same.
-/

namespace RuledMarkup

variable {R T S : Type}

/-- How a descent through a window ends. -/
inductive Outcome (R T : Type) where
  /-- The whole window has become a forest; `last` is the text consumed last. -/
  | whole (forest : List (Node R T)) (last : Option String)
  /-- An empty span was met.  The forest holds what had been found before it. -/
  | stopped (forest : List (Node R T))
  | failed (error : ParseError)

namespace Outcome

/-- The outcome with a node in front of its forest. -/
def withFirst (node : Node R T) : Outcome R T → Outcome R T
  | whole forest last => whole (node :: forest) last
  | stopped forest => stopped (node :: forest)
  | failed error => failed error

/-- Puts the forest of an outcome under a node and, if the descent may go on, does so with the text
consumed last. -/
def under (root : Node R T) (goOn : Option String → Option (Outcome R T)) :
    Outcome R T → Option (Outcome R T)
  | whole below last => (goOn last).map (withFirst (root.addChildren below))
  | stopped below => some (stopped [root.addChildren below])
  | failed error => some (failed error)

/-- The forest or the error of an outcome. -/
def result : Outcome R T → Except ParseError (List (Node R T))
  | whole forest _ => .ok forest
  | stopped forest => .ok forest
  | failed error => .error error

end Outcome

/-- The first rule in the order of the list that matches the start of a window. -/
def matchFirst (rules : List (Rule R T S)) (window : String) (last : Option String) (state : S) :
    Option (Rule R T S × Captures) :=
  rules.findSome? fun rule => (rule.tryMatch window last state).map (rule, ·)

/-- The first match in a window, which must consume something, and what its rule makes of it.
`source` is what errors report as the input. -/
def buildFirst (rules : List (Rule R T S)) (source : String) (offset : Nat) (window : String)
    (last : Option String) (state : S) : Except ParseError (Captures × Spec R T S) :=
  match matchFirst rules window last state with
  | none => .error (.noMatchingRule offset window source)
  | some (rule, captures) =>
    if captures.size = 0 then .error (.emptyMatch offset rule.pattern.source)
    else (rule.build captures state).value.map (captures, ·)

/-- A descent through a window, given the byte at which the window starts, the text consumed last
and the state. -/
abbrev Descent (R T S : Type) : Type :=
  Nat → String → Option String → S → Option (Outcome R T)

/-- Descends into the span that a rule asks for.  It must be in order, within the window and, unless
it is empty, between characters. -/
def Spec.descendInner (go : Descent R T S) (spec : Spec R T S) (offset : Nat) (window : String)
    (last : Option String) : Option (Outcome R T) :=
  match spec.span with
  | none => some (.whole [] last)
  | some span =>
    if span.stop < span.start ∨ window.utf8ByteSize < span.stop then
      some (.failed (.invalidSpan (span.wrappingShift offset)))
    else if span.start = span.stop then some (.stopped [])
    else
      match Text.slice? window span with
      | none => some (.failed (.invalidSpan (span.shift offset)))
      | some inner => go (offset + span.start) inner last spec.state

/-- Goes on with what is left of a window after its first `size` bytes. -/
def descendRest (go : Descent R T S) (offset size : Nat) (window : String) (state : S)
    (last : Option String) : Option (Outcome R T) :=
  let rest := Text.slice window ⟨size, window.utf8ByteSize⟩
  if rest.isEmpty then some (.whole [] last) else go (offset + size) rest last state

/-- Descends through a window that is not empty. -/
def descend (rules : List (Rule R T S)) (source : String) : Nat → Descent R T S
  | 0, _, _, _, _ => none
  | depth + 1, offset, window, last, state =>
    match buildFirst rules source offset window last state with
    | .error error => some (.failed error)
    | .ok (captures, spec) =>
      (spec.descendInner (descend rules source depth) offset window captures.consumed).bind
        (Outcome.under spec.root
          (descendRest (descend rules source depth) offset captures.size window state))

/-- Descends through a source, of which nothing is found if it is empty. -/
def descent (rules : List (Rule R T S)) (depth : Nat) (source : String) (state : S) :
    Option (Except ParseError (List (Node R T))) :=
  if source.isEmpty then some (.ok [])
  else (descend rules source depth 0 source none state).map Outcome.result

/-- A descent whose first match fails. -/
theorem descend_of_error {rules : List (Rule R T S)} {source : String} {offset : Nat}
    {window : String} {last : Option String} {state : S} {error : ParseError}
    (h : buildFirst rules source offset window last state = .error error) (depth : Nat) :
    descend rules source (depth + 1) offset window last state = some (.failed error) := by
  rw [descend, h]

/-- A descent whose first match builds a node goes into the span of the rule and then on. -/
theorem descend_of_ok {rules : List (Rule R T S)} {source : String} {offset : Nat}
    {window : String} {last : Option String} {state : S} {captures : Captures} {spec : Spec R T S}
    (h : buildFirst rules source offset window last state = .ok (captures, spec)) (depth : Nat) :
    descend rules source (depth + 1) offset window last state =
      (spec.descendInner (descend rules source depth) offset window captures.consumed).bind
        (Outcome.under spec.root
          (descendRest (descend rules source depth) offset captures.size window state)) := by
  rw [descend, h]

/-! ### The bound on the depth -/

/-- One descent has every outcome that another one has. -/
def Descent.Le (go go' : Descent R T S) : Prop :=
  ∀ {offset window last state outcome},
    go offset window last state = some outcome → go' offset window last state = some outcome

theorem Spec.descendInner_mono {go go' : Descent R T S} (h : go.Le go') {spec : Spec R T S}
    {offset : Nat} {window : String} {last : Option String} {outcome : Outcome R T}
    (hgo : spec.descendInner go offset window last = some outcome) :
    spec.descendInner go' offset window last = some outcome := by
  unfold Spec.descendInner at hgo ⊢
  split at hgo
  · exact hgo
  · split_ifs at hgo ⊢ with hbad hempty
    · exact hgo
    · exact hgo
    · split at hgo
      · exact hgo
      · exact h hgo

theorem descendRest_mono {go go' : Descent R T S} (h : go.Le go') {offset size : Nat}
    {window : String} {last : Option String} {state : S} {outcome : Outcome R T}
    (hgo : descendRest go offset size window state last = some outcome) :
    descendRest go' offset size window state last = some outcome := by
  unfold descendRest at hgo ⊢
  dsimp only at hgo ⊢
  split_ifs at hgo ⊢
  · exact hgo
  · exact h hgo

theorem Outcome.under_mono {root : Node R T} {goOn goOn' : Option String → Option (Outcome R T)}
    (h : ∀ {last outcome}, goOn last = some outcome → goOn' last = some outcome)
    {inner outcome : Outcome R T} (hgo : inner.under root goOn = some outcome) :
    inner.under root goOn' = some outcome := by
  cases inner with
  | whole below last =>
    obtain ⟨rest, hrest, rfl⟩ := Option.map_eq_some_iff.1 hgo
    exact Option.map_eq_some_iff.2 ⟨rest, h hrest, rfl⟩
  | stopped below => exact hgo
  | failed error => exact hgo

theorem descend_le_succ (rules : List (Rule R T S)) (source : String) (depth : Nat) :
    (descend rules source depth).Le (descend rules source (depth + 1)) := by
  induction depth with
  | zero =>
    intro _ _ _ _ _ h
    cases h
  | succ depth ih =>
    intro offset window last state outcome h
    cases hb : buildFirst rules source offset window last state with
    | error error => rwa [descend_of_error hb] at h ⊢
    | ok built =>
      rw [descend_of_ok hb] at h ⊢
      obtain ⟨inner, hinner, hunder⟩ := Option.bind_eq_some_iff.1 h
      exact Option.bind_eq_some_iff.2
        ⟨inner, Spec.descendInner_mono ih hinner, Outcome.under_mono (descendRest_mono ih) hunder⟩

/-- With a greater bound on the depth the outcome is the same. -/
theorem descend_mono {rules : List (Rule R T S)} {source : String} {depth depth' : Nat}
    (h : depth ≤ depth') : (descend rules source depth).Le (descend rules source depth') := by
  induction h with
  | refl => exact id
  | step _ ih => exact fun ho => descend_le_succ rules source _ (ih ho)

end RuledMarkup
