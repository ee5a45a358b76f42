import RuledMarkup.Code.Kotlin
import RuledMarkup.Code.Xml

/-!
# Languages

The rules of Protobuf, Python and Rust, and the table of languages by tag.

## Main definitions

* `Code.Languages` : rules by language tag.
* `Code.languages` : the supported languages.
-/

namespace RuledMarkup.Code

set_option maxRecDepth 4000

/-- A comment after two slashes. -/
def slashComment : Pattern :=
  .of "//.*?(?P<ahead>\\n|$)" (spelled rfl) (by decide +kernel)

/-- A comment after a number sign. -/
def hashComment : Pattern :=
  .of "\\#.*?(?P<ahead>\\n|$)" (spelled rfl) (by decide +kernel)

/-- A string between single quotes. -/
def singleQuoted : Pattern :=
  .of "'(?:\\\\[\\s\\S]|[^\\\\])*?'(?P<ahead>\\W|$)" (spelled rfl) (by decide +kernel)

/-- An attribute on a line of its own. -/
def rustAttribute : Pattern :=
  .of "#!?\\[.*?\\]\\n" (spelled rfl) (by decide +kernel)

/-- The words of Protobuf. -/
def protobufLexicon : Lexicon where
  definitions := definitionPattern "message|enum|extend|service" (spelled rfl) (by decide +kernel)
  builtIns :=
    wordPattern ("true|false|"
        ++ "string|bool|double|float|bytes|"
        ++ "int32|uint32|sint32|int64|unit64|sint64|"
        ++ "map")
      (spelled rfl |>.next rfl |>.next rfl |>.next rfl) (by decide +kernel)
  keywords :=
    wordPattern ("required|repeated|optional|option|oneof|default|reserved|"
        ++ "package|import|"
        ++ "rpc|returns")
      (spelled rfl |>.next rfl |>.next rfl) (by decide +kernel)

/-- The words of Python. -/
def pythonLexicon : Lexicon where
  definitions := definitionPattern "class|def|lambda" (spelled rfl) (by decide +kernel)
  builtIns :=
    wordPattern "True|False|None"
      (spelled rfl) (by decide +kernel)
  keywords :=
    wordPattern ("from|import|global|nonlocal|"
        ++ "async|await|class|self|cls|def|lambda|"
        ++ "for|while|if|else|elif|break|continue|return|"
        ++ "try|except|finally|raise|pass|yield|"
        ++ "in|as|is|del|"
        ++ "and|or|not|assert")
      (spelled rfl |>.next rfl |>.next rfl |>.next rfl |>.next rfl |>.next rfl) (by decide +kernel)

/-- The words of Rust. -/
def rustLexicon : Lexicon where
  definitions := definitionPattern "struct|trait|mod" (spelled rfl) (by decide +kernel)
  builtIns :=
    wordPattern ("Self|Result|Ok|Err|Option|None|Some|"
        ++ "Copy|Clone|Eq|Hash|Send|Sync|Sized|Debug|Display|"
        ++ "Arc|Rc|Box|Pin|Future|"
        ++ "true|false|bool|usize|i64|u64|u32|i32|str|String")
      (spelled rfl |>.next rfl |>.next rfl |>.next rfl) (by decide +kernel)
  keywords :=
    wordPattern ("let|mut|static|const|unsafe|"
        ++ "crate|mod|extern|pub|use|"
        ++ "struct|enum|trait|type|where|impl|dyn|async|await|move|self|fn|"
        ++ "for|while|loop|if|else|match|break|continue|return|try|"
        ++ "in|as|ref")
      (spelled rfl |>.next rfl |>.next rfl |>.next rfl |>.next rfl) (by decide +kernel)

/-- Rules by language tag. -/
abbrev Languages (R T S : Type) : Type := List (String × List (Rule R T S))

variable {R T S : Type}

/-- The rules of Protobuf. -/
def protobufRules (styles : TokenStyles R T) : List (Rule R T S) :=
  tokenRules styles
    [.matchGroup slashComment 0 (some styles.comment),
      .matchGroup strings 0 (some styles.literal)]
    protobufLexicon

/-- The rules of Python. -/
def pythonRules (styles : TokenStyles R T) : List (Rule R T S) :=
  tokenRules styles
    [.matchGroup hashComment 0 (some styles.comment),
      .matchGroup strings 0 (some styles.literal),
      .matchGroup singleQuoted 0 (some styles.literal),
      .matchGroup atName 0 (some styles.generics)]
    pythonLexicon

/-- The rules of Rust. -/
def rustRules (styles : TokenStyles R T) : List (Rule R T S) :=
  tokenRules styles
    [.matchGroup slashComment 0 (some styles.comment),
      .matchGroup strings 0 (some styles.literal),
      .matchGroup rustAttribute 0 (some styles.generics)]
    rustLexicon

/-- Every supported language under each of its tags. -/
def languages (styles : TokenStyles R T) : Languages R T S :=
  let kotlin := Kotlin.rules styles
  let protobuf := protobufRules styles
  let python := pythonRules styles
  let rust := rustRules styles
  let xml := Xml.rules styles
  [("kt", kotlin), ("kotlin", kotlin),
    ("protobuf", protobuf), ("proto", protobuf), ("pb", protobuf),
    ("py", python), ("python", python),
    ("rs", rust), ("rust", rust),
    ("xml", xml), ("http", xml)]

end RuledMarkup.Code
