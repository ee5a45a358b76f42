import RuledMarkup.Regex.Basic

/-!
# Alternatives in their simplest form

Alternatives that are single characters make up one set.  Parts with which all alternatives begin
are taken out in front of them, so that they are matched in one way only, whichever alternative
follows.

## Main definitions

* `Regex.parts` : the parts of a sequence.
* `Regex.alternatives` : ordered alternatives.
-/

namespace RuledMarkup.Regex

/-- The alternatives of an expression. -/
def branches : Regex → List Regex
  | alt a b => a :: b.branches
  | r => [r]

/-- The items of a sequence. -/
def items : Regex → List Regex
  | empty => []
  | cat a b => a :: b.items
  | r => [r]

/-- Is the expression one certain character, or does it begin with one as an item? -/
def beginsLiteral : Regex → Bool
  | set s => s.single?.isSome
  | cat a _ => a.beginsLiteral
  | _ => false

/-- An item in front of parts.  Certain characters that stand side by side make up one part. -/
def addItem (item : Regex) (parts : List Regex) : List Regex :=
  match parts with
  | [] => [item]
  | part :: rest =>
    if item.beginsLiteral && part.beginsLiteral then cat item part :: rest else item :: parts

/-- The parts of a sequence. -/
def parts (r : Regex) : List Regex := r.items.foldr addItem []

/-- Are two expressions the same, sets being compared by their characters? -/
def same : Regex → Regex → Bool
  | empty, empty => true
  | set s, set t => s.same t
  | look l, look m => l = m
  | cat a b, cat c d => a.same c && b.same d
  | alt a b, alt c d => a.same c && b.same d
  | loop g l m r, loop g' l' m' r' => g = g' && l = l' && m = m' && r.same r'
  | group i n r, group j m s => i = j && n = m && r.same s
  | checkpoint m, checkpoint n => m = n
  | _, _ => false

/-- What two lists of parts begin with in common. -/
def commonParts : List Regex → List Regex → List Regex
  | a :: as, b :: bs => if a.same b then a :: commonParts as bs else []
  | _, _ => []

/-- What all alternatives, each of them of several parts, begin with. -/
def sharedParts : List (List Regex) → List Regex
  | [] => []
  | first :: others =>
    if (first :: others).all (2 ≤ ·.length) then others.foldl commonParts first else []


/-- Alternatives as they are; of none, nothing can be matched. -/
def choice : List Regex → Regex
  | [] => set .none
  | [r] => r
  | r :: rs => alt r (choice rs)

/-- The number of nodes of an expression. -/
def nodeCount : Regex → Nat
  | cat a b => 1 + a.nodeCount + b.nodeCount
  | alt a b => 1 + a.nodeCount + b.nodeCount
  | loop _ _ _ r => 1 + r.nodeCount
  | group _ _ r => 1 + r.nodeCount
  | _ => 1

/-- Alternatives in their simplest form.  Shared parts are taken out at most `bound` times, and each
time the first alternative gets smaller. -/
def simplest : Nat → List Regex → Regex
  | 0, rs => choice (rs.flatMap branches)
  | bound + 1, rs =>
    let rs := rs.flatMap branches
    match rs with
    | [r] => r
    | rs =>
      match rs.mapM set? with
      | some (s :: sets) => set (sets.foldl .union s)
      | _ =>
        let lists := rs.map parts
        let shared := sharedParts lists
        if shared.isEmpty then choice rs
        else
          let rests := lists.map fun parts => sequence (parts.drop shared.length)
          sequence (shared ++ [simplest bound rests])

/-- Ordered alternatives in their simplest form. -/
def alternatives (rs : List Regex) : Regex := simplest ((rs.head?.map nodeCount).getD 0) rs

end RuledMarkup.Regex
