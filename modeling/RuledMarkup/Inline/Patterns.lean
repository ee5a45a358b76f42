import RuledMarkup.Pattern

/-!
# Patterns of inline markup

How escapes, line ends, the four text styles and plain text are recognised.

## Main definitions

* `Inline.bold`, `Inline.underline`, `Inline.strikethrough`, `Inline.italics` : the text styles.
* `Inline.escape`, `Inline.newline`, `Inline.text` : an escaped character, blank lines, and text.
-/

namespace RuledMarkup.Inline

/-- `**bold**`, where no third asterisk follows. -/
def bold : Pattern :=
  .of "\\*\\*([\\s\\S]+?)\\*\\*(?P<ahead>[^*]|$)" (spelled rfl) (by decide +kernel)

/-- `__underline__`, where no third underscore follows. -/
def underline : Pattern :=
  .of "__([\\s\\S]+?)__(?P<ahead>[^_]|$)" (spelled rfl) (by decide +kernel)

/-- `~~strikethrough~~`, which neither begins nor ends with white space. -/
def strikethrough : Pattern :=
  .of "~~(\\S(?:[\\s\\S]*?\\S)??)~~" (spelled rfl) (by decide +kernel)

/-- Lines of spaces and the line end after them. -/
def newline : Pattern :=
  .of "(?:\\n *)*\\n" (spelled rfl) (by decide +kernel)

/-- Text up to something that another rule might want: punctuation, a line end, spaces before a line
end, or a word with a colon. -/
def text : Pattern :=
  .of ("[\\s\\S]+?(?P<ahead>[^0-9A-Za-z\\s\\x\x7b00c0\x7d-\\x\x7b10ffff\x7d]|\\n| \x7b2,\x7d\\n"
        ++ "|\\w+:\\S|$)")
      (spelled rfl |>.next rfl) (by decide +kernel)

/-- A backslash and a character that is no letter, digit or white space. -/
def escape : Pattern :=
  .of "\\\\([^0-9A-Za-z\\s])" (spelled rfl) (by decide +kernel)

/-- `_italics_` (group 1) or `*italics*` (group 2). -/
def italics : Pattern :=
  .of ("\\b_((?:__|\\\\[\\s\\S]|[^\\\\_])+?)_\\b"
        ++ "|\\*((?:\\*\\*|[^\\s*])(?:\\*\\*|\\s+(?:[^*\\s]|\\*\\*)|[^\\s*])*?)\\*(?P<ahead>[^*]|$)")
      (spelled rfl |>.next rfl) (by decide +kernel)

end RuledMarkup.Inline
