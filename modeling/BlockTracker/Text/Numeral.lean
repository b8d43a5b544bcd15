/-!
# Numerals

Unsigned numerals below `2 ^ 64`: one plus sign may stand in front, then at least one digit of the radix.  Digits
are read from the left, and the first fault met decides the error: a character that is no digit, or a value that
leaves the range.
-/

namespace BlockTracker

/-- The number of values of a machine word. -/
def wordCount : Nat := Nat.pow 2 64

/-- Why a text is no numeral. -/
inductive NumeralError
  | empty
  | invalidDigit
  | overflow
deriving DecidableEq, Repr

namespace Numeral

/-- The value of a digit; letters count from ten in either case. -/
def digitValue (c : Char) : Option Nat :=
  if '0' ≤ c ∧ c ≤ '9' then some (c.toNat - '0'.toNat)
  else if 'a' ≤ c ∧ c ≤ 'z' then some (c.toNat - 'a'.toNat + 10)
  else if 'A' ≤ c ∧ c ≤ 'Z' then some (c.toNat - 'A'.toNat + 10)
  else none

/-- The value of `c` as a digit in the given radix. -/
def digit? (radix : Nat) (c : Char) : Option Nat :=
  (digitValue c).filter (· < radix)

/-- Reads the digits of `cs` behind those that gave `acc`. -/
def readDigits (radix acc : Nat) : List Char → Except NumeralError Nat
  | [] => .ok acc
  | c :: cs =>
    match digit? radix c with
    | none => .error .invalidDigit
    | some d => if acc * radix + d < wordCount then readDigits radix (acc * radix + d) cs else .error .overflow

/-- Reads an unsigned numeral in the given radix. -/
def read (radix : Nat) : List Char → Except NumeralError Nat
  | [] => .error .empty
  | ['+'] => .error .invalidDigit
  | '+' :: cs => readDigits radix 0 cs
  | cs => readDigits radix 0 cs

/-- A text without its underscores. -/
def dropUnderscores (cs : List Char) : List Char := cs.filter (· ≠ '_')

end Numeral

end BlockTracker
