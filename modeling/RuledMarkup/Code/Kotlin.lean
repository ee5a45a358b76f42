import RuledMarkup.Code.Lexicon

/-!
# Kotlin

Comments, strings, annotations, variables and the heads of functions, on top of the words of the
language.

## Main definitions

* `Code.Kotlin.rules` : the rules of the language.
-/

namespace RuledMarkup.Code.Kotlin

set_option maxRecDepth 4000

/-- A comment up to the end of its line, or between its two marks. -/
def comments : Pattern :=
  .of "(?s)//.*?(?P<ahead>\\n|$)|/\\*.*?\\*/" (spelled rfl) (by decide +kernel)

/-- The head of a function: keyword, type parameters if there are any, name and parameters. -/
def functionHead : Pattern :=
  .of "(?s)(fun)( *<.*>)?( \\w+)( *\\(.*?\\))" (spelled rfl) (by decide +kernel)

/-- The keyword of a variable and its name. -/
def field : Pattern :=
  .of "(?s)(val|var)(\\s+\\w+)" (spelled rfl) (by decide +kernel)

/-- The words of the language. -/
def lexicon : Lexicon where
  definitions := definitionPattern "object|class|interface" (spelled rfl) (by decide +kernel)
  builtIns :=
    wordPattern ("true|false|Boolean|String|Char|"
        ++ "Int|UInt|Long|ULong|Float|Double|Byte|UByte|Short|UShort|"
        ++ "Self|Set|Map|MutableMap|List|MutableList|Array|Runnable|Unit|"
        ++ "arrayOf|listOf|mapOf|setOf|let|also|apply|run")
      (spelled rfl |>.next rfl |>.next rfl |>.next rfl) (by decide +kernel)
  keywords :=
    wordPattern ("public|private|internal|inline|lateinit|abstract|open|reified|"
        ++ "import|package|"
        ++ "class|interface|data|enum|sealed|object|typealias|"
        ++ "fun|override|this|super|where|constructor|init|param|delegate|"
        ++ "const|val|var|get|final|vararg|it|"
        ++ "return|break|continue|suspend|"
        ++ "for|while|do|if|else|when|try|catch|finally|throw|"
        ++ "in|out|is|as|typeof|"
        ++ "shr|ushr|shl|ushl|"
        ++ "true|false|null")
      (spelled rfl |>.next rfl |>.next rfl |>.next rfl |>.next rfl |>.next rfl |>.next rfl
        |>.next rfl |>.next rfl |>.next rfl) (by decide +kernel)

variable {R T S : Type}

/-- The head of a function, with a leaf for each of its parts. -/
def functionNode (keyword : String) (generics : Option String) (name params : String)
    (styles : TokenStyles R T) : Node R T :=
  .mk .function
    ([.styledText keyword styles.keyword]
      ++ (generics.map fun generics => Node.styledText generics styles.generics).toList
      ++ [.styledText name styles.identifier, .styledText params styles.params])

/-- A keyword that declares a variable, and its name. -/
def fieldNode (keyword name : String) (styles : TokenStyles R T) : Node R T :=
  .mk .field [.styledText keyword styles.keyword, .styledText name styles.identifier]

/-- The head of a function. -/
def functionRule (styles : TokenStyles R T) : Rule R T S :=
  .matching functionHead fun captures state => do
    let keyword ← captures.group 1
    let name ← captures.group 3
    let params ← captures.group 4
    .ok (.terminal (functionNode keyword (captures.text? 2) name params styles) state)

/-- The declaration of a variable. -/
def fieldRule (styles : TokenStyles R T) : Rule R T S :=
  .matching field fun captures state => do
    let keyword ← captures.group 1
    let name ← captures.group 2
    .ok (.terminal (fieldNode keyword name styles) state)

/-- The rules of the language. -/
def rules (styles : TokenStyles R T) : List (Rule R T S) :=
  tokenRules styles
    [.matchGroup comments 0 (some styles.comment),
      .matchGroup strings 0 (some styles.literal),
      .matchGroup atName 0 (some styles.generics),
      fieldRule styles,
      functionRule styles]
    lexicon

end RuledMarkup.Code.Kotlin
