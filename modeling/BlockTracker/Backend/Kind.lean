import BlockTracker.Failure
import BlockTracker.Text.Blank

/-!
# Kinds of built-in backends

Two allocators come with the library and are chosen by name.  A name is read without regard to blanks around it and
to the case of ASCII letters; a name that is refused is reported as it was given.
-/

namespace BlockTracker

/-- The built-in backends. -/
inductive Kind
  | platform
  | system
deriving DecidableEq, Repr

namespace Kind

def name : Kind → String
  | platform => "platform"
  | system => "system"

def dump : Kind → String
  | platform => "Platform"
  | system => "System"

/-- The names that stand for a kind, in lower case. -/
def aliases : Kind → List String
  | platform => ["platform", "libc", "default", "malloc"]
  | system => ["system", "rust", "alt", "alternate"]

/-- The kind a name stands for. -/
def parse (given : String) : Except Failure Kind :=
  let word := String.ofList ((trim given.toList).map Char.toLower)
  if word ∈ platform.aliases then .ok platform
  else if word ∈ system.aliases then .ok system
  else .error (.unknownBackend given)

end Kind

end BlockTracker
