import RuledMarkup.Code.Lexicon

/-!
# XML

Comments, tags with their content, and the text between them.

## Main definitions

* `Code.Xml.rules` : the rules of the language.
-/

namespace RuledMarkup.Code.Xml

/-- A comment. -/
def comment : Pattern :=
  .of "(?s)<!--.*?-->" (spelled rfl) (by decide +kernel)

/-- An opening tag (group 1), with content (group 2) and a closing tag (group 3) if there is
one. -/
def tag : Pattern :=
  .of "(?s)<([\\s\\S]+?)(?:>(.*?)</([\\s\\S]+?))?>" (spelled rfl) (by decide +kernel)

variable {R T S : Type}

/-- A tag.  Its content is parsed further, unless it is empty: an empty span would end the whole
parse. -/
def tagRule (styles : TokenStyles R T) : Rule R T S :=
  .matching tag fun captures state => do
    let opening ← captures.group 1
    let node : Node R T :=
      .leaf (.tag opening (captures.text? 3) styles.generics styles.params)
    match captures.range? 2 with
    | some content =>
      if content.isEmpty then .ok (.terminal node state)
      else .ok (.nonterminal node state content)
    | none => .ok (.terminal node state)

/-- The rules of the language. -/
def rules (styles : TokenStyles R T) : List (Rule R T S) :=
  [.matchGroup comment 0 (some styles.comment),
    tagRule styles,
    .matchGroup leadingSpace 0 none,
    .matchGroup text 0 none]

end RuledMarkup.Code.Xml
