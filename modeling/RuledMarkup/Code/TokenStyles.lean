import RuledMarkup.Style.Provider

/-!
# Styles of code tokens

## Main definitions

* `TokenStyles` : a style provider for each kind of token.
-/

namespace RuledMarkup

/-- A style provider for each kind of code token. -/
structure TokenStyles (R T : Type) where
  /-- A whole code block. -/
  default : StyleProvider R T := .empty
  comment : StyleProvider R T := .empty
  /-- Strings and numbers. -/
  literal : StyleProvider R T := .empty
  keyword : StyleProvider R T := .empty
  /-- Names of functions and variables. -/
  identifier : StyleProvider R T := .empty
  /-- Names introduced by a definition. -/
  types : StyleProvider R T := .empty
  /-- Built-in names, annotations, type parameters and tag names. -/
  generics : StyleProvider R T := .empty
  /-- Parameter lists and attributes. -/
  params : StyleProvider R T := .empty

/-- A bundle of providers in words; the providers are not shown. -/
def TokenStyles.inspect {R T : Type} (_ : TokenStyles R T) : String :=
  "CodeStyleProviders \x7b .. \x7d"

end RuledMarkup
