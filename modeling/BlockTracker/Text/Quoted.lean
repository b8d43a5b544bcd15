import BlockTracker.Text.Shapeless

/-!
# Quoted texts

A quoted text stands between double quotes.  The quote, the backslash, the line feed, the carriage return, the tab
and the null character have short escapes; a character without a shape of its own is written by its number.
-/

namespace BlockTracker

/-- A number in lower-case hexadecimal digits, without leading zeros. -/
def hexDigits (n : Nat) : String := String.ofList (Nat.toDigits 16 n)

/-- An address as it is printed. -/
def hexText (n : Nat) : String := "0x" ++ hexDigits n

namespace Quoted

def escape (c : Char) : String :=
  match c with
  | '"' => "\\\""
  | '\\' => "\\\\"
  | '\n' => "\\n"
  | '\r' => "\\r"
  | '\t' => "\\t"
  | '\x00' => "\\0"
  | _ => if isShapeless c then "\\u\x7b" ++ hexDigits c.toNat ++ "\x7d" else c.toString

end Quoted

/-- A text between quotes, on one line. -/
def quoted (s : String) : String :=
  "\"" ++ String.join (s.toList.map Quoted.escape) ++ "\""

end BlockTracker
