import RuledMarkup.Text.Numeral
import RuledMarkup.Toml.Basic

/-!
# Numbers, truth values and dates in a configuration file

## Main definitions

* `integer?`, `isFloat`, `isDate` : the written forms.
* `isHeld`, `isFinite` : the numbers that are neither too great nor too small.
* `readScalar?` : reads a value that is written as one word.
-/

namespace RuledMarkup.Toml

open Text

/-- Digits, between which single underscores may stand. -/
def isGrouped (base : Nat) (cs : List Char) : Bool :=
  let isDigit := fun c => (digit? base c).isSome
  cs.head?.any isDigit && cs.getLast?.any isDigit
    && cs.all (fun c => isDigit c || c = '_')
    && (cs.zip (cs.drop 1)).all fun pair => !(pair.1 = '_' && pair.2 = '_')

/-- Decimal digits in groups, without a zero at the start of more than one digit. -/
def isWhole (cs : List Char) : Bool := isGrouped 10 cs && (cs.head? ≠ some '0' || cs.length = 1)

/-- The text without a sign at its start. -/
def dropSign (cs : List Char) : List Char :=
  match cs with
  | '+' :: cs => cs
  | '-' :: cs => cs
  | cs => cs

/-- The value of grouped digits. -/
def grouped (base : Nat) (cs : List Char) : Nat :=
  (numeralFrom? base 0 (cs.filter (· ≠ '_'))).getD 0

/-- A whole number: decimal with an optional sign, or in another base without one. -/
def integer? (cs : List Char) : Option Int :=
  let based (base : Nat) (digits : List Char) : Option Int :=
    if isGrouped base digits then some (grouped base digits) else none
  match cs with
  | '0' :: 'x' :: digits => based 16 digits
  | '0' :: 'o' :: digits => based 8 digits
  | '0' :: 'b' :: digits => based 2 digits
  | cs =>
    if isWhole (dropSign cs) then
      let n := grouped 10 (dropSign cs)
      some (if cs.head? = some '-' then -(n : Int) else n)
    else none

/-- Whole numbers have 128 bits, with a sign or without one. -/
def isHeld (n : Int) : Bool :=
  if n < 0 then n.natAbs ≤ 1 <<< 127 else n.natAbs < 1 <<< 128

/-- A sign and grouped digits, or nothing. -/
def isExponent (cs : List Char) : Bool :=
  match cs with
  | [] => true
  | c :: cs => (c = 'e' || c = 'E') && isGrouped 10 (dropSign cs)

/-- A number with a fraction, an exponent or both, or one of the words for what is no number. -/
def isFloat (cs : List Char) : Bool :=
  let isDigit := fun c => (digit? 10 c).isSome || c = '_'
  let number := dropSign cs
  let rest := number.dropWhile isDigit
  number = ['i', 'n', 'f'] || number = ['n', 'a', 'n'] ||
    (isWhole (number.takeWhile isDigit) && !rest.isEmpty &&
      match rest with
      | '.' :: fraction =>
        isGrouped 10 (fraction.takeWhile isDigit) && isExponent (fraction.dropWhile isDigit)
      | rest => isExponent rest)

/-- No number of 64 bits with a fraction reaches this power of ten. -/
def excessiveExponent : Nat := 309

/-- Is `m * 10 ^ exponent` rounded to a number below `2 ^ 1024`, as all numbers of 64 bits with a
fraction are?  Halfway between the greatest of them and `2 ^ 1024` a number is rounded up.  Powers
that are out of all proportion are not computed. -/
def isBounded (m : Nat) (exponent : Int) : Bool :=
  let bound := 1 <<< 1024 - 1 <<< 970
  if 0 ≤ exponent then
    m = 0 || exponent < excessiveExponent && m * Nat.pow 10 exponent.toNat < bound
  else
    let places := (-exponent).toNat
    m < bound || m.log2 < places || m < bound * Nat.pow 10 places

/-- Can a number with a fraction or an exponent be held?  The words for what is no number have no
digits and count as zero. -/
def isFinite (number : List Char) : Bool :=
  let isMark := fun c : Char => c = 'e' || c = 'E'
  let written := (dropSign number).filter (· ≠ '_')
  let mantissa := written.takeWhile fun c => !isMark c
  let power := (written.dropWhile fun c => !isMark c).drop 1
  let whole := mantissa.takeWhile (· ≠ '.')
  let fraction := (mantissa.dropWhile (· ≠ '.')).drop 1
  let size := grouped 10 (dropSign power)
  let exponent : Int := if power.head? = some '-' then -(size : Int) else size
  isBounded (grouped 10 (whole ++ fraction)) (exponent - fraction.length)

/-! ### Dates -/

/-- The number of days of a month. -/
def daysOfMonth (year month : Nat) : Nat :=
  if month = 2 then
    if year % 4 = 0 ∧ (year % 100 ≠ 0 ∨ year % 400 = 0) then 29 else 28
  else if month ∈ [4, 6, 9, 11] then 30
  else 31

/-- The value of some decimal digits. -/
def decimal? (cs : List Char) : Option Nat := readNumeral? 10 cs

/-- What stands after a date at the start of a text. -/
def afterDay? (cs : List Char) : Option (List Char) :=
  match cs with
  | y :: e :: a :: r :: '-' :: m :: o :: '-' :: d :: q :: rest => do
    let year ← decimal? [y, e, a, r]
    let month ← decimal? [m, o]
    let day ← decimal? [d, q]
    guard (1 ≤ month && month ≤ 12 && 1 ≤ day && day ≤ daysOfMonth year month)
    some rest
  | _ => none

/-- What stands after hours and minutes at the start of a text. -/
def afterMinutes? (cs : List Char) : Option (List Char) :=
  match cs with
  | h :: o :: ':' :: m :: i :: rest => do
    guard ((← decimal? [h, o]) < 24 && (← decimal? [m, i]) < 60)
    some rest
  | _ => none

/-- What stands after a time at the start of a text: seconds and their fraction may be missing. -/
def afterTime? (cs : List Char) : Option (List Char) := do
  match ← afterMinutes? cs with
  | ':' :: s :: e :: rest =>
    guard ((← decimal? [s, e]) ≤ 60)
    match rest with
    | '.' :: fraction =>
      guard (fraction.head?.any fun c => (digit? 10 c).isSome)
      some (fraction.dropWhile fun c => (digit? 10 c).isSome)
    | rest => some rest
  | rest => some rest

/-- A distance from the time of the zero meridian, or nothing. -/
def isZone (cs : List Char) : Bool :=
  match cs with
  | [] => true
  | c :: cs =>
    if c = 'Z' || c = 'z' then cs.isEmpty
    else (c = '+' || c = '-') && afterMinutes? cs = some []

/-- A date, a time, or a date with a time. -/
def isDate (cs : List Char) : Bool :=
  match afterDay? cs with
  | none => afterTime? cs = some []
  | some [] => true
  | some (between :: time) =>
    (between = 'T' || between = 't' || between = ' ') && (afterTime? time).any isZone

/-! ### Words -/

/-- The characters of a value that is written as one word. -/
def isWordChar (c : Char) : Bool := c.isAlphanum || "+-_.:".contains c

/-- The value that a word denotes. -/
def scalar? (cs : List Char) : Option Value :=
  if cs = ['t', 'r', 'u', 'e'] then some (.boolean true)
  else if cs = ['f', 'a', 'l', 's', 'e'] then some (.boolean false)
  else
    match integer? cs with
    | some n => if isHeld n then some (.integer n) else none
    | none =>
      if isFloat cs then if isFinite cs then some (.float (String.ofList cs)) else none
      else if isDate cs then some (.date (String.ofList cs))
      else none

/-- Splits off a word.  A space between a day and a time belongs to the word. -/
def splitWord (cs : List Char) : List Char × List Char :=
  let word := cs.takeWhile isWordChar
  let rest := cs.dropWhile isWordChar
  match rest with
  | ' ' :: d :: more =>
    if afterDay? word = some [] && d.isDigit then
      (word ++ ' ' :: (d :: more).takeWhile isWordChar, (d :: more).dropWhile isWordChar)
    else (word, rest)
  | rest => (word, rest)

/-- A value that is written as one word, and what stands after it. -/
def readScalar? (cs : List Char) : Option (Value × List Char) :=
  let (word, rest) := splitWord cs
  (scalar? word).map fun value => (value, rest)

end RuledMarkup.Toml
