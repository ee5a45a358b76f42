import RuledMarkup.Log
import RuledMarkup.Text.Numeral
import RuledMarkup.Text.Substitute

/-!
# Colors of a terminal

A terminal has a default color, sixteen colors with names, a palette of 256 colors with numbers, and
colors given by their parts of red, green and blue.

## Main definitions

* `NamedColor`, `Color` : the colors.
* `Color.read?` : the color that a name or number stands for.
* `Color.ofName` : the same, or the default color for what is none.
-/

namespace RuledMarkup.Terminal

/-- The colors with names. -/
inductive NamedColor where
  | black
  | red
  | green
  | yellow
  | blue
  | magenta
  | cyan
  | gray
  | darkGray
  | lightRed
  | lightGreen
  | lightYellow
  | lightBlue
  | lightMagenta
  | lightCyan
  | white
deriving DecidableEq, Repr

namespace NamedColor

/-- Every color with a name. -/
def all : List NamedColor :=
  [black, red, green, yellow, blue, magenta, cyan, gray, darkGray, lightRed, lightGreen,
    lightYellow, lightBlue, lightMagenta, lightCyan, white]

theorem mem_all (color : NamedColor) : color ∈ all := by
  cases color <;> decide

/-- The words of a name. -/
def words : NamedColor → List String
  | black => ["black"]
  | red => ["red"]
  | green => ["green"]
  | yellow => ["yellow"]
  | blue => ["blue"]
  | magenta => ["magenta"]
  | cyan => ["cyan"]
  | gray => ["gray"]
  | darkGray => ["dark", "gray"]
  | lightRed => ["light", "red"]
  | lightGreen => ["light", "green"]
  | lightYellow => ["light", "yellow"]
  | lightBlue => ["light", "blue"]
  | lightMagenta => ["light", "magenta"]
  | lightCyan => ["light", "cyan"]
  | white => ["white"]

/-- The name in one word of small letters. -/
def name (color : NamedColor) : String := String.join color.words

/-- The name in one word whose parts begin with capitals. -/
def title (color : NamedColor) : String := String.join (color.words.map String.capitalize)

/-- The name with its words joined by underscores. -/
def identifier (color : NamedColor) : String := "_".intercalate color.words

end NamedColor

/-- A color of a terminal. -/
inductive Color where
  /-- The default of the terminal. -/
  | reset
  | named (color : NamedColor)
  | indexed (index : UInt8)
  | rgb (red green blue : UInt8)
deriving DecidableEq, Repr

namespace Color

/-- The small letter of a letter that has one in ASCII: the capitals of ASCII, and the kelvin
sign. -/
def toSmall (c : Char) : Char := if c = '\u212a' then 'k' else c.toLower

/-- Other words for parts of color names, in the order in which they are replaced. -/
def synonyms : List (String × String) :=
  [("bright", "light"), ("grey", "gray"), ("silver", "gray"), ("lightblack", "darkgray"),
    ("lightwhite", "white"), ("lightgray", "white")]

/-- A name in small letters, without blanks, hyphens and underscores, and with one word for each
thing. -/
def normalize (name : String) : String :=
  let letters := (name.toList.map toSmall).filter fun c => !(c == ' ' || c == '-' || c == '_')
  String.ofList <| synonyms.foldl
    (fun letters synonym => Text.substitute synonym.1.toList synonym.2.toList letters) letters

/-- The color with a name. -/
def ofNormalized? (name : String) : Option Color :=
  if name = "reset" then some reset
  else (NamedColor.all.find? fun color => color.name = name).map named

/-- Two hexadecimal digits for each of red, green and blue, after a number sign.  The parts are
counted in bytes. -/
def readHex? (name : String) : Option Color := do
  guard (name.startsWith '#' && name.utf8ByteSize == 7)
  let part (start : Nat) := do
    let digits ← Text.slice? name ⟨start, start + 2⟩
    Text.readByte? 16 digits.toList
  return rgb (← part 1) (← part 3) (← part 5)

/-- The color that a text stands for: a name, the number of a color of the palette, or parts in
hexadecimal. -/
def read? (name : String) : Option Color :=
  ofNormalized? (normalize name) <|> (Text.readByte? 10 name.toList).map indexed <|> readHex? name

/-- The color that a text stands for, or the default of the terminal. -/
def ofName (name : String) : Color := (read? name).getD reset

/-- What is reported when a text is taken for a color. -/
def warnings (name : String) : List Event :=
  if (read? name).isSome then [] else [.unknownColor name]

/-- A byte as two hexadecimal digits in capitals. -/
def hexByte (n : UInt8) : String :=
  String.ofList <| (Text.hexDigits (n.toNat / 16) ++ Text.hexDigits (n.toNat % 16)).map Char.toUpper

/-- The color in words, as a number, or in hexadecimal parts. -/
def toText : Color → String
  | reset => "Reset"
  | named color => color.title
  | indexed index => toString index.toNat
  | rgb red green blue => "#" ++ hexByte red ++ hexByte green ++ hexByte blue

/-- A color without a name of its own, as a value. -/
def inspectValue? : Color → Option String
  | reset => some "Color::Reset"
  | named _ => none
  | indexed index => some ("Color::Indexed(" ++ toString index.toNat ++ ")")
  | rgb red green blue =>
    let parts := [red, green, blue].map fun n => toString n.toNat
    some ("Color::Rgb(" ++ ", ".intercalate parts ++ ")")

end Color

end RuledMarkup.Terminal
