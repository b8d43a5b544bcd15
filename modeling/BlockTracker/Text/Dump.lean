import BlockTracker.Text.Quoted

/-!
# Dumps

The text of a value for a reader who looks into the program: a record with named fields, a constructor with one
argument, a list.  Every type that is dumped has a function `dump` built from these.
-/

namespace BlockTracker

namespace Dump

/-- A record: its name, then its fields in order. -/
def record (name : String) (fields : List (String × String)) : String :=
  name ++ " \x7b " ++ ", ".intercalate (fields.map fun f => f.1 ++ ": " ++ f.2) ++ " \x7d"

/-- A constructor applied to one argument. -/
def applied (name arg : String) : String := name ++ "(" ++ arg ++ ")"

def list (items : List String) : String := "[" ++ ", ".intercalate items ++ "]"

def option : Option String → String
  | none => "None"
  | some s => applied "Some" s

end Dump

end BlockTracker
