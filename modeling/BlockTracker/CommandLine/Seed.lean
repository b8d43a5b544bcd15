import BlockTracker.Text.Blank
import BlockTracker.Text.Dump
import BlockTracker.Text.Numeral

/-!
# Seeds

A seed is written in decimal digits, or in hexadecimal digits behind `0x`.  Blanks around it do not count, and
neither do underscores behind the mark.
-/

namespace BlockTracker

/-- The radix that a seed is written in, and the text behind the mark that says so. -/
def seedRadix : List Char → Nat × List Char
  | '0' :: 'x' :: cs => (16, cs)
  | '0' :: 'X' :: cs => (16, cs)
  | cs => (10, cs)

def parseSeed (raw : String) : Except NumeralError Nat :=
  let (radix, digits) := seedRadix (trim raw.toList)
  Numeral.read radix (Numeral.dropUnderscores digits)

def NumeralError.dump (e : NumeralError) : String :=
  let kind := match e with
    | empty => "Empty"
    | invalidDigit => "InvalidDigit"
    | overflow => "PosOverflow"
  Dump.record "ParseIntError" [("kind", kind)]

end BlockTracker
