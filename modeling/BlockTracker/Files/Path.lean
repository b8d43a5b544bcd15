import BlockTracker.Files.Fault

/-!
# Paths

A path is cut at its slashes.  An empty part and a dot stay where they are, all other parts are names.  How a path
ends tells whether it can name a file, and its text as a whole has a limit (`FilePath.check`).
-/

namespace BlockTracker

/-- The parts of a path, between its slashes. -/
structure FilePath where
  parts : List String
deriving DecidableEq

namespace FilePath

def parse (s : String) : FilePath := ⟨s.splitOn "/"⟩

def text (path : FilePath) : String := "/".intercalate path.parts

/-- Whether a part leads somewhere. -/
def isName (part : String) : Bool := part ≠ "" && part ≠ "."

def names (path : FilePath) : List String := path.parts.filter isName

/-- Whether a path starts at the root. -/
def absolute (path : FilePath) : Bool := 1 < path.parts.length && path.parts.head? = some ""

/-- Whether a path can only name a directory, as `a/`, `a/.` and `a/..` do. -/
def directoryOnly (path : FilePath) : Bool := path.parts.getLast?.all fun part => !isName part || part = ".."

/-- Whether a path goes through its last name, as `a/.` does. -/
def throughLast (path : FilePath) : Bool := (path.parts.filter (· ≠ "")).getLast? = some "."

/-- The parts up to the last name. -/
def upToName (parts : List String) : List String := (parts.reverse.dropWhile (!isName ·)).reverse

/-- The path above the last name. -/
def parent (path : FilePath) : FilePath := ⟨upToName (upToName path.parts).dropLast⟩

/-- The names that are directories if the path names anything. -/
def directories (path : FilePath) : List String := if path.throughLast then path.names else path.parent.names

/-- The least length, in bytes, that the text of a path cannot have. -/
def lengthLimit : Nat := 4096

/-- Refuses a path that is not even looked up. -/
def check (path : FilePath) : Except FileFault Unit :=
  if path.names.any (·.contains '\x00') then .error .nullInName
  else if lengthLimit ≤ path.text.utf8ByteSize then .error .nameTooLong
  else .ok ()

end FilePath

end BlockTracker
