import RuledMarkup.Regex.Alternatives
import RuledMarkup.Text.Letter

/-!
# Reading regular expressions

The written form of regular expressions: literals, `.`, classes in brackets with ranges, nesting,
set operations and the named classes of ASCII, escapes, groups with and without number and name,
alternatives, repetitions with their lazy forms, and flags.  There is a flag for what `.` matches,
one for what `^` and `$` mean, one for how lines end, and one that swaps greedy and lazy
repetitions.  Classes of letters by property, letters regardless of case, blanks that do not count
and classes that are restricted to ASCII are not read.

A sequence ends at a bar, at a closing parenthesis or at the end of the text.  The readers hand on
what they have not read and take an explicit bound on the depth of their calls, which the length of
the text supplies.  What is read may be nested only to a certain depth.

## Main definitions

* `Regex.ReadError` : why a text is no regular expression.
* `Regex.Piece` : what has been read, with the depth to which it is nested.
* `Regex.read` : reads a whole text.
-/

namespace RuledMarkup.Regex

/-- Why a text is no regular expression. -/
inductive ReadError where
  | unclosedGroup
  | unopenedGroup
  | unclosedClass
  | unclosedCount
  | reversedRange
  | reversedCounts
  | nothingToRepeat
  | invalidCount
  | invalidEscape
  | invalidNumber
  | invalidGroup
  | duplicateName
  | tooDeep
  | tooLarge
deriving Repr, DecidableEq

/-- What has been read, with the depth to which it is nested: in a repetition, a group, a class, a
sequence of several items and alternatives everything is one deeper. -/
structure Piece where
  regex : Regex
  depth : Nat := 0

namespace Piece

/-- The depth of the deepest of some pieces. -/
def deepest (pieces : List Piece) : Nat := pieces.foldl (fun depth piece => max depth piece.depth) 0

/-- The depth of pieces that stand together. -/
def depthTogether (pieces : List Piece) : Nat :=
  if 2 ≤ pieces.length then deepest pieces + 1 else deepest pieces

/-- Items one after the other. -/
def sequence (items : List Piece) : Piece :=
  ⟨Regex.sequence (items.map (·.regex)), depthTogether items⟩

/-- Ordered alternatives. -/
def alternatives (branches : List Piece) : Piece :=
  ⟨Regex.alternatives (branches.map (·.regex)), depthTogether branches⟩

/-- Something made of a piece, one deeper. -/
def around (piece : Piece) (f : Regex → Regex) : Piece := ⟨f piece.regex, piece.depth + 1⟩

end Piece

/-- The depth to which an expression may be nested. -/
def allowedDepth : Nat := 250

/-- The flags that are in force at a point of the text. -/
structure Flags where
  /-- Does `.` match line ends? -/
  dotAll : Bool := false
  /-- Do `^` and `$` stand for the start and the end of a line? -/
  multiLine : Bool := false
  /-- Is a carriage return a line end as well? -/
  crlf : Bool := false
  /-- Are repetitions lazy and their lazy forms greedy? -/
  swapGreed : Bool := false
deriving Repr, DecidableEq

namespace Flags

/-- The flags with one of them changed.  All characters count as characters anyway. -/
def set? (flags : Flags) (name : Char) (value : Bool) : Option Flags :=
  match name with
  | 's' => some { flags with dotAll := value }
  | 'm' => some { flags with multiLine := value }
  | 'R' => some { flags with crlf := value }
  | 'U' => some { flags with swapGreed := value }
  | 'u' => if value then some flags else none
  | _ => none

/-- What `.` stands for. -/
def dot (flags : Flags) : CharSet :=
  if flags.dotAll then .any
  else if flags.crlf then .compl (.union (.one '\n') (.one '\r'))
  else .compl (.one '\n')

/-- What `^` stands for. -/
def caret (flags : Flags) : Look := if flags.multiLine then .lineStart flags.crlf else .start

/-- What `$` stands for. -/
def dollar (flags : Flags) : Look := if flags.multiLine then .lineFinish flags.crlf else .finish

end Flags

/-- What the reader knows at a point of the text. -/
structure Reader where
  /-- The text still to be read. -/
  rest : List Char
  flags : Flags := {}
  /-- The number the next group gets. -/
  nextGroup : Nat := 1
  /-- The names given to groups so far. -/
  names : List String := []
  /-- The number of groups that are open. -/
  openGroups : Nat := 0

namespace Reader

/-- Characters that stand for themselves after a backslash: ASCII other than letters, digits and
angle brackets. -/
def isEscapable (c : Char) : Bool :=
  c.toNat < 128 && !c.isAlphanum && c != '<' && c != '>'

/-- What an escape stands for. -/
inductive Escape where
  | literal (c : Char)
  | class (s : CharSet)
  | position (l : Look)

/-- The value of a hexadecimal digit. -/
def hexValue? (c : Char) : Option Nat :=
  if c.isDigit then some (c.toNat - '0'.toNat)
  else if 'a' ≤ c && c ≤ 'f' then some (c.toNat - 'a'.toNat + 10)
  else if 'A' ≤ c && c ≤ 'F' then some (c.toNat - 'A'.toNat + 10)
  else none

/-- The number that hexadecimal digits write, if there is at least one digit. -/
def hexNumber? (digits : List Char) : Option Nat :=
  if digits.isEmpty then none
  else digits.foldlM (fun n c => (hexValue? c).map (16 * n + ·)) 0

/-- The character with a number. -/
def scalar? (n : Nat) : Option Char :=
  if n.isValidChar then some (Char.ofNat n) else none

/-- The character that hexadecimal digits name, with the text after them. -/
def numbered (digits rest : List Char) : Except ReadError (Char × List Char) :=
  match (hexNumber? digits).bind scalar? with
  | some c => .ok (c, rest)
  | none => .error .invalidNumber

/-- Reads a character given by its number: a fixed count of digits, or any digits in braces. -/
def readNumbered (width : Nat) : List Char → Except ReadError (Char × List Char)
  | '\x7b' :: rest =>
    match rest.dropWhile (· != '\x7d') with
    | [] => .error .invalidNumber
    | _ :: after => numbered (rest.takeWhile (· != '\x7d')) after
  | rest =>
    if rest.length < width then .error .invalidNumber
    else numbered (rest.take width) (rest.drop width)

/-- The condition on words that a name in braces stands for. -/
def wordLook? (name : List Char) : Option WordLook :=
  [("start", .start), ("end", .finish), ("start-half", .startHalf),
    ("end-half", .finishHalf)].lookup (String.ofList name)

/-- Characters in the name of a condition on words. -/
def isLookChar (c : Char) : Bool := c.isAlpha || c == '-'

/-- Reads what follows the sign for an edge of a word: a name in braces, or something else that does
not belong to the sign.  Braces with anything but letters and hyphens in front are counts. -/
def readWordEdge : List Char → Except ReadError (WordLook × List Char)
  | ['\x7b'] => .error .unclosedCount
  | '\x7b' :: c :: cs =>
    if isLookChar c then
      match (c :: cs).dropWhile isLookChar with
      | '\x7d' :: after =>
        match wordLook? ((c :: cs).takeWhile isLookChar) with
        | some l => .ok (l, after)
        | none => .error .invalidEscape
      | _ => .error .invalidEscape
    else .ok (.edge, '\x7b' :: c :: cs)
  | rest => .ok (.edge, rest)

/-- Reads what follows a backslash. -/
def readEscape : List Char → Except ReadError (Escape × List Char)
  | [] => .error .invalidEscape
  | c :: rest =>
    match c with
    | 'n' => .ok (.literal '\n', rest)
    | 't' => .ok (.literal '\t', rest)
    | 'r' => .ok (.literal '\r', rest)
    | 'f' => .ok (.literal '\x0c', rest)
    | 'v' => .ok (.literal '\x0b', rest)
    | 'a' => .ok (.literal '\x07', rest)
    | 'w' => .ok (.class .word, rest)
    | 'W' => .ok (.class (.compl .word), rest)
    | 'd' => .ok (.class .digit, rest)
    | 'D' => .ok (.class (.compl .digit), rest)
    | 's' => .ok (.class .space, rest)
    | 'S' => .ok (.class (.compl .space), rest)
    | 'b' => (readWordEdge rest).map fun (l, rest) => (.position (.word false l), rest)
    | 'B' => .ok (.position (.word false .notEdge), rest)
    | '<' => .ok (.position (.word false .start), rest)
    | '>' => .ok (.position (.word false .finish), rest)
    | 'A' => .ok (.position .start, rest)
    | 'z' => .ok (.position .finish, rest)
    | 'x' => (readNumbered 2 rest).map fun (c, rest) => (.literal c, rest)
    | 'u' => (readNumbered 4 rest).map fun (c, rest) => (.literal c, rest)
    | 'U' => (readNumbered 8 rest).map fun (c, rest) => (.literal c, rest)
    | c => if isEscapable c then .ok (.literal c, rest) else .error .invalidEscape

/-- An operation between two parts of a class. -/
inductive ClassOperation where
  | both
  | minus
  | either

/-- The set that an operation makes of two. -/
def ClassOperation.apply : ClassOperation → CharSet → CharSet → CharSet
  | both, a, b => .inter a b
  | minus, a, b => .diff a b
  | either, a, b => .diff (.union a b) (.inter a b)

/-- A set that has been read, with the depth to which it is nested: in brackets, as one of several
items and as a side of an operation everything is one deeper. -/
structure SetPiece where
  set : CharSet
  depth : Nat := 0

/-- A class that is being read: the items so far, their number and their greatest depth, and the
operation that waits for its right side. -/
structure ClassReader where
  negated : Bool
  items : Option CharSet := none
  count : Nat := 0
  deepest : Nat := 0
  waiting : Option (SetPiece × ClassOperation) := none

namespace ClassReader

/-- The class with one more item. -/
def add (r : ClassReader) (s : SetPiece) : ClassReader :=
  { r with
    items := some (match r.items with | none => s.set | some t => .union t s.set)
    count := r.count + 1
    deepest := max r.deepest s.depth }

/-- The class with one more character. -/
def addChar (r : ClassReader) (c : Char) : ClassReader := r.add ⟨.one c, 0⟩

/-- The items read since the last operation sign. -/
def right (r : ClassReader) : SetPiece :=
  ⟨r.items.getD .none, if 2 ≤ r.count then r.deepest + 1 else r.deepest⟩

/-- The set read so far. -/
def current (r : ClassReader) : SetPiece :=
  match r.waiting with
  | none => r.right
  | some (left, operation) =>
    ⟨operation.apply left.set r.right.set, max left.depth r.right.depth + 1⟩

/-- The class after an operation sign. -/
def operate (r : ClassReader) (operation : ClassOperation) : ClassReader :=
  { negated := r.negated, waiting := some (r.current, operation) }

/-- The set of the finished class. -/
def finish (r : ClassReader) : SetPiece :=
  ⟨if r.negated then .compl r.current.set else r.current.set, r.current.depth + 1⟩

end ClassReader

/-- Reads an item of a class: a character or an escape. -/
def readClassItem : List Char → Except ReadError (CharSet × List Char)
  | [] => .error .unclosedClass
  | '\\' :: rest => do
    match ← readEscape rest with
    | (.literal c, rest) => .ok (.one c, rest)
    | (.class s, rest) => .ok (s, rest)
    | (.position _, _) => .error .invalidEscape
  | c :: rest => .ok (.one c, rest)

/-- Reads an item of a class or a range between two characters.  A hyphen before the closing bracket
or before another hyphen makes no range. -/
def readClassRange (rest : List Char) : Except ReadError (CharSet × List Char) := do
  let (first, rest) ← readClassItem rest
  match rest with
  | [] => .error .unclosedClass
  | '-' :: ']' :: _ => .ok (first, rest)
  | '-' :: '-' :: _ => .ok (first, rest)
  | '-' :: rest =>
    let (final, rest) ← readClassItem rest
    match first, final with
    | .one a, .one b => if a ≤ b then .ok (.range a b, rest) else .error .reversedRange
    | _, _ => .error .reversedRange
  | rest => .ok (first, rest)

/-- The start of a class after its bracket: a caret negates, and hyphens and then a closing
bracket that come first stand for themselves. -/
def openClass (rest : List Char) : ClassReader × List Char :=
  let (negated, rest) :=
    match rest with
    | '^' :: rest => (true, rest)
    | rest => (false, rest)
  let hyphens := rest.takeWhile (· == '-')
  let rest := rest.dropWhile (· == '-')
  let start : ClassReader := { negated }
  if hyphens.isEmpty then
    match rest with
    | ']' :: rest => (start.addChar ']', rest)
    | rest => (start, rest)
  else (hyphens.foldl ClassReader.addChar start, rest)

/-- The characters of ASCII in some ranges. -/
def asciiSet (ranges : List (Char × Char)) : CharSet :=
  ranges.foldr (fun (first, final) set => .union (.range first final) set) .none

/-- The named classes of ASCII. -/
def asciiClasses : List (String × List (Char × Char)) :=
  let digits := [('0', '9')]
  let upper := [('A', 'Z')]
  let lower := [('a', 'z')]
  [("alnum", digits ++ upper ++ lower), ("alpha", upper ++ lower), ("ascii", [('\x00', '\x7f')]),
    ("blank", [('\t', '\t'), (' ', ' ')]), ("cntrl", [('\x00', '\x1f'), ('\x7f', '\x7f')]),
    ("digit", digits), ("graph", [('!', '~')]), ("lower", lower), ("print", [(' ', '~')]),
    ("punct", [('!', '/'), (':', '@'), ('[', '\x60'), ('\x7b', '~')]),
    ("space", [('\t', '\r'), (' ', ' ')]), ("upper", upper),
    ("word", digits ++ upper ++ [('_', '_')] ++ lower),
    ("xdigit", digits ++ [('A', 'F'), ('a', 'f')])]

/-- The name of a class of ASCII, up to a colon with a closing bracket behind it. -/
def readAsciiName? (negated : Bool) (rest : List Char) : Option (CharSet × List Char) :=
  match rest.dropWhile (· != ':') with
  | ':' :: ']' :: after =>
    (asciiClasses.lookup (String.ofList (rest.takeWhile (· != ':')))).map fun ranges =>
      (if negated then .compl (asciiSet ranges) else asciiSet ranges, after)
  | _ => none

/-- The named class of ASCII after an opening bracket, between colons and with a closing bracket
behind it.  A caret negates.  If it is none, then the bracket begins a class in the class. -/
def readAscii? : List Char → Option (CharSet × List Char)
  | ':' :: '^' :: rest => readAsciiName? true rest
  | ':' :: rest => readAsciiName? false rest
  | _ => none

/-- Reads a class up to its closing bracket. -/
def readClass : Nat → ClassReader → List Char → Except ReadError (SetPiece × List Char)
  | 0, _, _ => .error .tooDeep
  | bound + 1, reader, rest =>
    match rest with
    | [] => .error .unclosedClass
    | ']' :: rest => .ok (reader.finish, rest)
    | '[' :: rest =>
      match readAscii? rest with
      | some (s, rest) => readClass bound (reader.add ⟨s, 0⟩) rest
      | none => do
        let (start, rest) := openClass rest
        let (s, rest) ← readClass bound start rest
        readClass bound (reader.add s) rest
    | '&' :: '&' :: rest => readClass bound (reader.operate .both) rest
    | '-' :: '-' :: rest => readClass bound (reader.operate .minus) rest
    | '~' :: '~' :: rest => readClass bound (reader.operate .either) rest
    | rest => do
      let (s, rest) ← readClassRange rest
      readClass bound (reader.add ⟨s, 0⟩) rest

/-- Reads a decimal number, with white space around it. -/
def readNumber (rest : List Char) : Option Nat × List Char :=
  let rest := rest.dropWhile Text.isSpace
  let digits := rest.takeWhile Char.isDigit
  let rest := (rest.dropWhile Char.isDigit).dropWhile Text.isSpace
  (if digits.isEmpty then none
    else some (digits.foldl (fun n c => 10 * n + (c.toNat - '0'.toNat)) 0), rest)

/-- Reads the counts of a repetition after the opening brace, up to the closing one. -/
def readCounts (rest : List Char) : Except ReadError ((Nat × Option Nat) × List Char) :=
  match readNumber rest with
  | (_, []) => .error .unclosedCount
  | (none, _) => .error .invalidCount
  | (some least, '\x7d' :: rest) => .ok ((least, some least), rest)
  | (some least, ',' :: '\x7d' :: rest) => .ok ((least, none), rest)
  | (some least, ',' :: rest) =>
    match readNumber rest with
    | (_, []) => .error .unclosedCount
    | (none, _) => .error .invalidCount
    | (some greatest, '\x7d' :: rest) =>
      if least ≤ greatest then .ok ((least, some greatest), rest) else .error .reversedCounts
    | (some _, _) => .error .unclosedCount
  | (some _, _) => .error .unclosedCount

/-- Reads the question mark that makes a repetition lazy, or greedy if these are swapped. -/
def readGreed (swap : Bool) : List Char → Bool × List Char
  | '?' :: rest => (swap, rest)
  | rest => (!swap, rest)

/-- The greatest number that a count may be. -/
def greatestCount : Nat := 0xffffffff

/-- Reads the repetitions that follow an expression, the innermost first. -/
def readRepetitions (swap : Bool) :
    Nat → Piece → List Char → Except ReadError (Piece × List Char)
  | 0, _, _ => .error .tooDeep
  | bound + 1, piece, rest =>
    let counted (least : Nat) (greatest : Option Nat) (rest : List Char) :=
      let (greedy, rest) := readGreed swap rest
      readRepetitions swap bound (piece.around (·.repeated greedy least greatest)) rest
    match rest with
    | '*' :: rest => counted 0 none rest
    | '+' :: rest => counted 1 none rest
    | '?' :: rest => counted 0 (some 1) rest
    | '\x7b' :: rest => do
      let ((least, greatest), rest) ← readCounts rest
      if greatestCount < max least (greatest.getD 0) then .error .invalidCount
      else counted least greatest rest
    | rest => .ok (piece, rest)

/-- Characters that a group name may begin with. -/
def isNameStart (c : Char) : Bool := Text.isLetter c || c == '_'

/-- Characters that a group name may go on with. -/
def isNameChar (c : Char) : Bool :=
  isNameStart c || Text.isNumeral c || c == '.' || c == '[' || c == ']'

/-- Reads the name of a group up to the closing angle bracket. -/
def readName (rest : List Char) : Except ReadError (String × List Char) :=
  let name := rest.takeWhile isNameChar
  match name, rest.dropWhile isNameChar with
  | c :: _, '>' :: rest =>
    if isNameStart c then .ok (String.ofList name, rest) else .error .invalidGroup
  | _, _ => .error .invalidGroup

/-- Reads changes of flags up to a colon or a closing parenthesis, which is left.  Behind a hyphen
flags are taken back.  No flag and no hyphen may stand twice, and a hyphen may not come last. -/
def readFlags (seen : List Char) (flags : Flags) :
    List Char → Except ReadError (Flags × List Char)
  | [] => .error .invalidGroup
  | c :: rest =>
    if c = ':' || c = ')' then
      if seen.head? = some '-' then .error .invalidGroup else .ok (flags, c :: rest)
    else if c ∈ seen then .error .invalidGroup
    else if c = '-' then readFlags (c :: seen) flags rest
    else
      match flags.set? c ('-' ∉ seen) with
      | none => .error .invalidGroup
      | some flags => readFlags (c :: seen) flags rest

/-- How a group begins. -/
inductive Opening where
  /-- A numbered group. -/
  | numbered
  /-- A numbered group with a name. -/
  | named (name : String)
  /-- A group without number, with the flags in force inside it. -/
  | plain (flags : Flags)
  /-- No group, but flags for what follows. -/
  | setFlags (flags : Flags)

/-- What begins where flags have been read: a group, or no group if there were any flags. -/
def openPlain (noFlags : Bool) (flags : Flags) :
    List Char → Except ReadError (Opening × List Char)
  | ':' :: rest => .ok (.plain flags, rest)
  | _ :: rest => if noFlags then .error .nothingToRepeat else .ok (.setFlags flags, rest)
  | [] => .error .invalidGroup

/-- Reads the beginning of a group after its parenthesis. -/
def readOpening (before : Flags) : List Char → Except ReadError (Opening × List Char)
  | '?' :: 'P' :: '<' :: rest => (readName rest).map fun (name, rest) => (.named name, rest)
  | '?' :: '<' :: rest => (readName rest).map fun (name, rest) => (.named name, rest)
  | '?' :: rest => do
    let (flags, after) ← readFlags [] before rest
    openPlain (rest.head? = some ')') flags after
  | rest => .ok (.numbered, rest)

/-- The reader inside a group that begins. -/
def enter (reader : Reader) : Reader := { reader with openGroups := reader.openGroups + 1 }

/-- Closes a group: the parenthesis must be there, and the flags are what they were before. -/
def close (before : Flags) (branches : List Piece) (reader : Reader) :
    Except ReadError (Piece × Reader) :=
  match reader.rest with
  | ')' :: rest =>
    .ok (Piece.alternatives branches,
      { reader with rest, flags := before, openGroups := reader.openGroups - 1 })
  | _ => .error .unclosedGroup

/-- Reads the repetitions behind a piece. -/
def repetitions (bound : Nat) (piece : Piece) (reader : Reader) :
    Except ReadError (Piece × Reader) := do
  let (piece, rest) ← readRepetitions reader.flags.swapGreed bound piece reader.rest
  .ok (piece, { reader with rest })

mutual

/-- Reads alternatives, up to a closing parenthesis or the end. -/
def readBranches : Nat → Reader → Except ReadError (List Piece × Reader)
  | 0, _ => .error .tooDeep
  | bound + 1, reader => do
    let (items, reader) ← readItems bound reader
    match reader.rest with
    | '|' :: rest =>
      let (others, reader) ← readBranches bound { reader with rest }
      .ok (Piece.sequence items :: others, reader)
    | _ => .ok ([Piece.sequence items], reader)

/-- Reads the items of a sequence, up to a bar, a closing parenthesis or the end. -/
def readItems : Nat → Reader → Except ReadError (List Piece × Reader)
  | 0, _ => .error .tooDeep
  | bound + 1, reader =>
    match reader.rest with
    | [] => .ok ([], reader)
    | '|' :: _ => .ok ([], reader)
    | ')' :: _ => .ok ([], reader)
    | _ => do
      let (item, reader) ← readItem bound reader
      let (items, reader) ← readItems bound reader
      .ok (item :: items, reader)

/-- Reads one item of a sequence with its repetitions.  Flags are an empty item and cannot be
repeated. -/
def readItem : Nat → Reader → Except ReadError (Piece × Reader)
  | 0, _ => .error .tooDeep
  | bound + 1, reader =>
    match reader.rest with
    | [] => .ok (⟨.empty, 0⟩, reader)
    | '(' :: rest =>
      let before := reader.flags
      let reader := reader.enter
      if allowedDepth < reader.openGroups then .error .tooDeep
      else do
        match ← readOpening before rest with
        | (.setFlags flags, rest) =>
          match rest with
          | '*' :: _ | '+' :: _ | '?' :: _ | '\x7b' :: _ => .error .nothingToRepeat
          | rest =>
            let openGroups := reader.openGroups - 1
            .ok (⟨.empty, 0⟩, { reader with rest, flags, openGroups })
        | (.plain flags, rest) =>
          let (branches, reader) ← readBranches bound { reader with rest, flags }
          let (piece, reader) ← close before branches reader
          repetitions (bound + 1) (piece.around id) reader
        | (.numbered, rest) =>
          let index := reader.nextGroup
          let (branches, reader) ← readBranches bound { reader with rest, nextGroup := index + 1 }
          let (piece, reader) ← close before branches reader
          repetitions (bound + 1) (piece.around (.group index none)) reader
        | (.named name, rest) =>
          if name ∈ reader.names then .error .duplicateName
          else
            let index := reader.nextGroup
            let (branches, reader) ← readBranches bound
              { reader with rest, nextGroup := index + 1, names := name :: reader.names }
            let (piece, reader) ← close before branches reader
            repetitions (bound + 1) (piece.around (.group index (some name))) reader
    | '*' :: _ | '+' :: _ | '?' :: _ | '\x7b' :: _ => .error .nothingToRepeat
    | '[' :: rest => do
      let (start, rest) := openClass rest
      let (s, rest) ← readClass (bound + 1) start rest
      repetitions (bound + 1) ⟨.set s.set, s.depth⟩ { reader with rest }
    | '.' :: rest => repetitions (bound + 1) ⟨.set reader.flags.dot, 0⟩ { reader with rest }
    | '^' :: rest => repetitions (bound + 1) ⟨.look reader.flags.caret, 0⟩ { reader with rest }
    | '$' :: rest => repetitions (bound + 1) ⟨.look reader.flags.dollar, 0⟩ { reader with rest }
    | '\\' :: rest => do
      match ← readEscape rest with
      | (.literal c, rest) => repetitions (bound + 1) ⟨.set (.one c), 0⟩ { reader with rest }
      | (.class s, rest) => repetitions (bound + 1) ⟨.set s, 0⟩ { reader with rest }
      | (.position l, rest) => repetitions (bound + 1) ⟨.look l, 0⟩ { reader with rest }
    | c :: rest => repetitions (bound + 1) ⟨.set (.one c), 0⟩ { reader with rest }

end

end Reader

/-- Reads a whole text as a regular expression. -/
def read (text : List Char) : Except ReadError Regex := do
  let (branches, reader) ← Reader.readBranches (3 * text.length + 3) { rest := text }
  let piece := Piece.alternatives branches
  if !reader.rest.isEmpty then .error .unopenedGroup
  else if allowedDepth < piece.depth then .error .tooDeep
  else .ok piece.regex

end RuledMarkup.Regex
