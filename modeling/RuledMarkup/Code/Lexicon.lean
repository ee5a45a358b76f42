import RuledMarkup.Code.TokenStyles
import RuledMarkup.Parse.Rule

/-!
# Rules that languages share

A language is highlighted by rules of its own, followed by rules for its definitions, built-in names
and keywords, for numbers, and for the white space and the text between them, so that every input is
consumed.

## Main definitions

* `Rule.matchGroup` : makes a leaf of one group of a match.
* `Code.Lexicon` : the patterns for the words of a language.
* `Code.tokenRules` : the rules of a language.
-/

namespace RuledMarkup

variable {R T S : Type}

/-- Makes a leaf of one group of a match, with styles if a provider is given.  A group that took no
part makes an empty leaf. -/
def Rule.matchGroup (pattern : Pattern) (group : Nat) (styles : Option (StyleProvider R T)) :
    Rule R T S :=
  .matching pattern fun captures state =>
    let content := (captures.text? group).getD ""
    let node :=
      match styles with
      | some provider => Node.styledText content provider
      | none => .text content
    .ok (.terminal node state)

namespace Code

/-- Line ends with the indentation after them. -/
def leadingSpace : Pattern :=
  .of "(?:\\n\\s*)+" (spelled rfl) (by decide +kernel)

/-- Text up to a word boundary, or to something that another rule might want. -/
def text : Pattern :=
  .of ("[\\s\\S]+?(?P<ahead>\\b|[^0-9A-Za-z\\s\\x\x7b00c0\x7d-\\x\x7b10ffff\x7d]|\\n| \x7b2,\x7d\\n"
        ++ "|\\w+:\\S|$)")
      (spelled rfl |>.next rfl) (by decide +kernel)

/-- A number of decimal digits, as a whole word. -/
def numbers : Pattern :=
  .of "\\b\\d+?\\b" (spelled rfl) (by decide +kernel)

/-- A string between double quotes.  Neither an escaped quote nor one with a word character after it
ends the string. -/
def strings : Pattern :=
  .of "\"(?:\\\\[\\s\\S]|[^\\\\])*?\"(?P<ahead>\\W|$)" (spelled rfl) (by decide +kernel)

/-- An at sign and the name after it. -/
def atName : Pattern :=
  .of "@(\\w+)" (spelled rfl) (by decide +kernel)

/-- The written form of a pattern for whole words, given as alternatives. -/
def wordSource (words : String) : String := "\\b(?:" ++ words ++ ")\\b"

/-- The written form of a pattern for a defining keyword (group 1), given as alternatives, and the
name after it (group 2). -/
def definitionSource (keywords : String) : String := "\\b(" ++ keywords ++ ")(\\s+\\w+)"

/-- Words as alternatives.  Each entry may itself be alternatives. -/
def alternatives (words : List String) : String := "|".intercalate words

/-- The characters of the pattern for whole words. -/
def wordChars (words : List Char) : List Char :=
  ['\\', 'b', '(', '?', ':'] ++ words ++ [')', '\\', 'b']

/-- The characters of the pattern for definitions. -/
def definitionChars (keywords : List Char) : List Char :=
  ['\\', 'b', '('] ++ keywords ++ [')', '(', '\\', 's', '+', '\\', 'w', '+', ')']

/-- A pattern for whole words that are known to be readable. -/
def wordPattern (words : String) {chars : List Char} (h : Spelled words chars)
    (readable : (Regex.read (Pattern.anchoredChars (wordChars chars))).isOk = true) : Pattern :=
  .of (wordSource words) (((spelled rfl).append h).next rfl) readable

/-- A pattern for definitions whose keywords are known to be readable. -/
def definitionPattern (keywords : String) {chars : List Char} (h : Spelled keywords chars)
    (readable : (Regex.read (Pattern.anchoredChars (definitionChars chars))).isOk = true) :
    Pattern :=
  .of (definitionSource keywords) (((spelled rfl).append h).next rfl)
    readable

/-- A text as part of a pattern, with a backslash before every character that has a meaning
there. -/
def literalSource (text : String) : String :=
  let special := "\\.+*?()|[]\x7b\x7d^$#&-~".toList
  String.ofList (text.toList.flatMap fun c => if c ∈ special then ['\\', c] else [c])

/-- The written form of a pattern for a comment that begins with `opening` and ends with its
line. -/
def lineCommentSource (opening : String) : String :=
  literalSource opening ++ ".*?(?P<ahead>\\n|$)"

/-- The patterns for the words of a language. -/
structure Lexicon where
  definitions : Pattern
  builtIns : Pattern
  keywords : Pattern
deriving Repr, DecidableEq

/-- The lexicon for lists of words, if they make readable patterns. -/
def Lexicon.read (definitions builtIns keywords : List String) :
    Except Regex.ReadError Lexicon := do
  let definitions ← Pattern.read (definitionSource (alternatives definitions))
  let builtIns ← Pattern.read (wordSource (alternatives builtIns))
  let keywords ← Pattern.read (wordSource (alternatives keywords))
  .ok { definitions, builtIns, keywords }

/-- A defining keyword and the name it defines, each a leaf with its styles. -/
def definitionNode (keyword name : String) (styles : TokenStyles R T) : Node R T :=
  .mk .definition [.styledText keyword styles.keyword, .styledText name styles.types]

/-- A definition: a keyword (group 1) and a name (group 2). -/
def definitionRule (pattern : Pattern) (styles : TokenStyles R T) : Rule R T S :=
  .matching pattern fun captures state => do
    let keyword ← captures.group 1
    let name ← captures.group 2
    .ok (.terminal (definitionNode keyword name styles) state)

/-- The rules of a language: its own rules first, and those for white space and text last. -/
def tokenRules (styles : TokenStyles R T) (own : List (Rule R T S)) (lexicon : Lexicon) :
    List (Rule R T S) :=
  own ++
    [definitionRule lexicon.definitions styles,
      .matchGroup lexicon.builtIns 0 (some styles.generics),
      .matchGroup lexicon.keywords 0 (some styles.keyword),
      .matchGroup numbers 0 (some styles.literal),
      .matchGroup leadingSpace 0 none,
      .matchGroup text 0 none]

end Code

end RuledMarkup
