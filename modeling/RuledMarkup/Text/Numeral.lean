/-!
# Numerals

Digits, and numbers that fill one byte.

## Main definitions

* `digit?` : the value of a digit in a base.
* `readNumeral?` : the number that a list of digits denotes.
* `readByte?` : a number of at most 255, with an optional plus sign.
-/

namespace RuledMarkup.Text

/-- The value of an ASCII digit or letter as a digit; letters of both cases count from ten. -/
def digitValue? (c : Char) : Option Nat :=
  if '0' ≤ c ∧ c ≤ '9' then some (c.toNat - '0'.toNat)
  else if 'a' ≤ c ∧ c ≤ 'z' then some (c.toNat - 'a'.toNat + 10)
  else if 'A' ≤ c ∧ c ≤ 'Z' then some (c.toNat - 'A'.toNat + 10)
  else none

/-- The value of a digit in a base of at most 36. -/
def digit? (base : Nat) (c : Char) : Option Nat :=
  (digitValue? c).filter (· < base)

/-- The number denoted by digits that follow the number `found`. -/
def numeralFrom? (base : Nat) (found : Nat) : List Char → Option Nat
  | [] => some found
  | c :: cs =>
    match digit? base c with
    | none => none
    | some d => numeralFrom? base (base * found + d) cs

/-- The number that one or more digits denote. -/
def readNumeral? (base : Nat) (cs : List Char) : Option Nat :=
  if cs.isEmpty then none else numeralFrom? base 0 cs

/-- A number of at most 255, with an optional plus sign before its digits. -/
def readByte? (base : Nat) (cs : List Char) : Option UInt8 :=
  let digits :=
    match cs with
    | '+' :: digits => digits
    | digits => digits
  match readNumeral? base digits with
  | none => none
  | some n => if n < 256 then some (UInt8.ofNat n) else none

end RuledMarkup.Text
