import EventBus.Text.Blank

/-!
# Numerals

Unsigned numbers in text. A written number is one or more ASCII digits, with at most one `+` in
front; how many leading zeros it has does not matter, but its value must be within the reader's
limit. Hexadecimal numbers are only written.
-/

set_option autoImplicit false

namespace EventBus.Text

/-- The value of an ASCII digit. Digits of other scripts have none. -/
def digit? (c : Char) : Option Nat :=
  if '0' ≤ c ∧ c ≤ '9' then some (c.toNat - '0'.toNat) else none

/-- The number that a row of digits denotes when `acc` stands before it; `none` when some
character is no digit. -/
def digitsFrom (acc : Nat) : List Char → Option Nat
  | [] => some acc
  | c :: cs => (digit? c).bind fun d => digitsFrom (10 * acc + d) cs

/-- The digits behind an optional `+`. -/
def unsigned : List Char → List Char
  | '+' :: digits => digits
  | digits => digits

/-- Reads a whole text as an unsigned number of at most `limit`. -/
def readNumber (limit : Nat) (cs : List Char) : Option Nat :=
  match unsigned cs with
  | [] => none
  | digits => (digitsFrom 0 digits).filter (· ≤ limit)

def maxWord : Nat := 18446744073709551615

/-- `0x` and the number in base sixteen, lower case, without padding. -/
def hexNumeral (n : Nat) : String :=
  "0x" ++ String.ofList (Nat.toDigits 16 n)

end EventBus.Text
