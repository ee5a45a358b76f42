import RuledMarkup.Log

/-!
# Style providers

Styles that are known only when a tree is rendered, from the context it is rendered in.

## Main definitions

* `StyleProvider` : styles as a function of the context.
* `StyleProvider.empty`, `StyleProvider.fixed` : no styles, and the same styles in every context.
-/

namespace RuledMarkup

/-- Styles as a function of the context `R` of a rendering. -/
structure StyleProvider (R T : Type) where
  /-- The styles in a context. -/
  styles : R → List T
  /-- What is reported each time the styles are asked for. -/
  warnings : R → List Event := fun _ => []

namespace StyleProvider

variable {R T : Type}

/-- No styles. -/
def empty : StyleProvider R T := { styles := fun _ => [] }

/-- The same styles in every context. -/
def fixed (styles : List T) : StyleProvider R T := { styles := fun _ => styles }

@[simp] theorem styles_empty (ctx : R) : (empty : StyleProvider R T).styles ctx = [] := rfl

@[simp] theorem styles_fixed (styles : List T) (ctx : R) :
    (fixed styles : StyleProvider R T).styles ctx = styles := rfl

/-- A provider in words; the function inside is not shown. -/
def inspect (_ : StyleProvider R T) : String := "StyleProvider(..)"

end StyleProvider

end RuledMarkup
