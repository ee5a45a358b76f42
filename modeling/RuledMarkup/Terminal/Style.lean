import RuledMarkup.Terminal.Color

/-!
# Styles of a terminal

A style may set the color of the letters and the color behind them, and it may add modifiers.  A
style that is laid over another one keeps what it does not set.  Lines are laid out for styles of
any kind that can be laid over each other, whatever a style may say and whatever that does to it.

## Main definitions

* `Layered` : what there has to be to lay styles over each other.
* `Style`, `Style.patch` : the styles of documents, and one laid over another.
* `Attribute` : what is attached to a rendered text: a style, or the bullet of a list item.
-/

namespace RuledMarkup.Terminal

/-- Styles of some kind: the one of plain text, and a style with another one laid over it. -/
class Layered (σ : Type) where
  plain : σ
  patch : σ → σ → σ

/-- Ways in which letters can be changed besides their color. -/
structure Modifiers where
  bold : Bool := false
  italic : Bool := false
  underlined : Bool := false
  crossedOut : Bool := false
deriving DecidableEq, Repr

namespace Modifiers

/-- The modifiers of both. -/
def union (a b : Modifiers) : Modifiers where
  bold := a.bold || b.bold
  italic := a.italic || b.italic
  underlined := a.underlined || b.underlined
  crossedOut := a.crossedOut || b.crossedOut

/-- The words for the modifiers that are set, in a fixed order. -/
def select (modifiers : Modifiers) (bold italic underlined crossedOut : String) : List String :=
  (if modifiers.bold then [bold] else []) ++ (if modifiers.italic then [italic] else [])
    ++ (if modifiers.underlined then [underlined] else [])
    ++ (if modifiers.crossedOut then [crossedOut] else [])

/-- The names of the modifiers that are set. -/
def names (modifiers : Modifiers) : List String :=
  modifiers.select "BOLD" "ITALIC" "UNDERLINED" "CROSSED_OUT"

end Modifiers

/-- A style of letters, as far as documents make use of it.  What is not set is left as it is. -/
structure Style where
  foreground : Option Color := none
  background : Option Color := none
  modifiers : Modifiers := {}
deriving DecidableEq, Repr

namespace Style

/-- The style with another one laid over it: the colors that the other one sets win, and the
modifiers of both are kept. -/
def patch (style upper : Style) : Style where
  foreground := upper.foreground <|> style.foreground
  background := upper.background <|> style.background
  modifiers := style.modifiers.union upper.modifiers

@[simp] theorem patch_default (style : Style) : style.patch {} = style := by
  simp [patch, Modifiers.union]

@[simp] theorem default_patch (style : Style) : ({} : Style).patch style = style := by
  rcases style with ⟨_ | _, _ | _, _⟩ <;> simp [patch, Modifiers.union]

theorem patch_assoc (a b c : Style) : (a.patch b).patch c = a.patch (b.patch c) := by
  rcases a with ⟨_ | _, _ | _, _⟩ <;> rcases b with ⟨_ | _, _ | _, _⟩ <;>
    rcases c with ⟨_ | _, _ | _, _⟩ <;> simp [patch, Modifiers.union, Bool.or_assoc]

instance : Layered Style where
  plain := {}
  patch := patch

@[simp] theorem layered_plain : (Layered.plain : Style) = {} := rfl

@[simp] theorem layered_patch (style upper : Style) :
    Layered.patch style upper = style.patch upper := rfl

/-- A style written out: the plain style and what is done to it. -/
def inspect (style : Style) : String :=
  let color (named : NamedColor → String) (general : String) : Option Color → String
    | none => ""
    | some (.named color) => "." ++ named color ++ "()"
    | some color => "." ++ general ++ "(" ++ (color.inspectValue?.getD "") ++ ")"
  "Style::new()" ++ color NamedColor.identifier "fg" style.foreground
    ++ color (fun color => "on_" ++ color.identifier) "bg" style.background
    ++ String.join (style.modifiers.select ".bold()" ".italic()" ".underlined()" ".crossed_out()")

end Style

/-- What is attached to a range of a rendered text. -/
inductive Attribute (σ : Type := Style) where
  | style (style : σ)
  /-- The text begins a list item, before which a bullet is put. -/
  | bullet (style : σ)
deriving DecidableEq, Repr

namespace Attribute

/-- An attribute written out. -/
def inspect : Attribute → String
  | .style own => "Style(" ++ own.inspect ++ ")"
  | .bullet own => "Bullet(" ++ own.inspect ++ ")"

end Attribute

end RuledMarkup.Terminal
