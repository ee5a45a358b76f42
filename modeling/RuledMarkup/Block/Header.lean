import RuledMarkup.Inline.Rules
import RuledMarkup.Parse.Engine

/-!
# Headers

A header is a line that begins with number signs, or a title line with a line of equals signs or
hyphens under it.  Its style depends on its level: the number of signs, or one for equals signs and
two for hyphens.  An underlined title may end in class names in braces, whose styles are put around
the header.

## Main definitions

* `HeaderStyles` : the style of each level.
* `Block.headerRule`, `Block.underlinedHeaderRule`, `Block.classedHeaderRule` : the three rules.
* `Block.headerRules`, `Block.classedHeaderRules` : the rules for documents without and with
  classes.
-/

namespace RuledMarkup

/-- The style of headers of each level. -/
structure HeaderStyles (T : Type) where
  /-- The style of a level. -/
  style : Nat → T
  /-- What is reported each time the style of a level is asked for. -/
  warnings : Nat → List Event := fun _ => []

namespace Block

/-- Number signs, a space or tab, and the title up to the end of the line. -/
def headerLine : Pattern :=
  .of " *(#+)[ \\t](.*) *(?P<ahead>\\n|$)" (spelled rfl) (by decide +kernel)

/-- A title line and, under it, three or more equals signs or hyphens. -/
def underlinedHeader : Pattern :=
  .of "(?: \\t)*(.+)\\n *(=|-)\x7b3,\x7d *(?P<ahead>\\n|$)" (spelled rfl) (by decide +kernel)

/-- A title with class names in braces at its end. -/
def classedTitle : Pattern :=
  .of "(.*) \\\x7b([\\w ]+)\\\x7d\\s*$" (spelled rfl) (by decide +kernel)

variable {R T S : Type}

/-- A header of number signs. -/
def headerRule (styles : HeaderStyles T) : Rule R T S :=
  Rule.atLineStart {
    pattern := headerLine
    tryMatch := fun window _ _ => headerLine.matchStart window
    build := fun captures state =>
      match captures.group 1 with
      | .error error => .quiet (.error error)
      | .ok signs =>
        let level := signs.utf8ByteSize
        ⟨(styles.warnings level).toArray,
          (captures.span 2).map fun span =>
            .nonterminal (.style [styles.style level] []) state span⟩ }

/-- The level of an underlined header. -/
def underlineLevel (captures : Captures) : Except ParseError Nat :=
  (captures.group 2).map fun line => if line = "=" then 1 else 2

/-- An underlined header, whose title is parsed with the rules of the document. -/
def underlinedHeaderRule (styles : HeaderStyles T) : Rule R T S :=
  Rule.atLineStart {
    pattern := underlinedHeader
    tryMatch := fun window _ _ => underlinedHeader.matchStart window
    build := fun captures state =>
      match underlineLevel captures with
      | .error error => .quiet (.error error)
      | .ok level =>
        ⟨(styles.warnings level).toArray,
          (captures.span 1).map fun span =>
            .nonterminal (.style [styles.style level] []) state span⟩ }

/-- The title of an underlined header without its class names, and the class names. -/
def splitTitle (title : String) : Except ParseError (String × List String) :=
  match classedTitle.matchStart title with
  | none => .ok (title, [])
  | some suffixed =>
    (suffixed.group 1).map fun text => (text, ((suffixed.text? 2).map (·.splitOn " ")).getD [])

/-- The header with the styles of its classes around it, if a class has a style. -/
def wrapInClasses (classStyle : String → Option T) (names : List String) (header : Node R T) :
    Node R T :=
  match names.filterMap classStyle with
  | [] => header
  | styles => .style styles [header]

/-- An underlined header with class names.  The title is parsed on its own with rules of its own,
and known classes are put around the header as styles. -/
def classedHeaderRule (styles : HeaderStyles T) (classStyle : String → Option T)
    (titleRules : List (Rule R T S)) : Rule R T S :=
  Rule.atLineStart {
    pattern := underlinedHeader
    tryMatch := fun window _ _ => underlinedHeader.matchStart window
    build := fun captures state =>
      let parts : Except ParseError (Nat × String × List String) := do
        let title ← captures.group 1
        let level ← underlineLevel captures
        let (text, names) ← splitTitle title
        .ok (level, text, names)
      match parts with
      | .error error => .quiet (.error error)
      | .ok (level, text, names) =>
        let title := parse titleRules text state
        let events := #[Event.titleFound text titleRules.length] ++ title.events
        match title.value with
        | .error error => ⟨events, .error error⟩
        | .ok children =>
          let header := Node.style [styles.style level] children
          ⟨events ++ (styles.warnings level).toArray,
            .ok (.terminal (wrapInClasses classStyle names header) state)⟩ }

/-- The rules for headers without classes. -/
def headerRules (styles : HeaderStyles T) : List (Rule R T S) :=
  [headerRule styles, underlinedHeaderRule styles]

/-- The rules for headers whose underlined titles may have classes. -/
def classedHeaderRules [HasTextStyles T] (styles : HeaderStyles T)
    (classStyle : String → Option T) : List (Rule R T S) :=
  [headerRule styles, classedHeaderRule styles classStyle Inline.rules]

end Block

end RuledMarkup
