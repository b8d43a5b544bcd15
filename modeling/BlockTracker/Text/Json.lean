import BlockTracker.Text.Quoted

/-!
# JSON documents

The documents that reports and settings are written as, and their text on several lines: two spaces for each level,
one field on a line, in the order of the document.
-/

namespace BlockTracker

/-- A document of numbers, truth values, texts and objects. -/
inductive Json
  | null
  | bool (b : Bool)
  | number (n : Nat)
  | text (s : String)
  | object (fields : List (String × Json))

namespace Json

/-- Four hexadecimal digits. -/
private def fourDigits (n : Nat) : String :=
  let digits := hexDigits n
  "".pushn '0' (4 - digits.length) ++ digits

/-- How a character is written inside a text. -/
def escape (c : Char) : String :=
  match c with
  | '"' => "\\\""
  | '\\' => "\\\\"
  | '\n' => "\\n"
  | '\r' => "\\r"
  | '\t' => "\\t"
  | '\x08' => "\\b"
  | '\x0c' => "\\f"
  | _ => if c.toNat < 0x20 then "\\u" ++ fourDigits c.toNat else c.toString

def textLiteral (s : String) : String :=
  "\"" ++ String.join (s.toList.map escape) ++ "\""

private def indent (depth : Nat) : String := "\n" ++ "".pushn ' ' (2 * depth)

mutual

/-- The text of a document whose first line stands at the given depth. -/
def render (depth : Nat) : Json → String
  | .null => "null"
  | .bool b => if b then "true" else "false"
  | .number n => n.repr
  | .text s => textLiteral s
  | .object [] => "\x7b\x7d"
  | .object (f :: fs) => "\x7b" ++ renderFields depth (f :: fs) ++ indent depth ++ "\x7d"

/-- The fields of an object that stands at the given depth, separated by commas. -/
def renderFields (depth : Nat) : List (String × Json) → String
  | [] => ""
  | (key, value) :: rest =>
    indent (depth + 1) ++ textLiteral key ++ ": " ++ render (depth + 1) value
      ++ (if rest.isEmpty then "" else ",") ++ renderFields depth rest

end

/-- The text of a document. -/
def pretty (d : Json) : String := d.render 0

end Json

end BlockTracker
