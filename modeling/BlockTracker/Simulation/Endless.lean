import BlockTracker.Backend.Basic

/-!
# Endless backends

Stand-ins for the built-in backends that serve every request and never hand out an address twice.
-/

namespace BlockTracker

/-- The number of blocks handed out so far. -/
structure Endless where
  made : Nat
deriving DecidableEq, Repr

namespace Endless

def empty : Endless := ⟨0⟩

/-- The block with a given number. -/
def block (n : Nat) : Handle := ⟨16 * (n + 1), by omega⟩

def make (s : Endless) : Option Handle × Endless := (some (block s.made), ⟨s.made + 1⟩)

def backends : Backends Kind Endless where
  name := Kind.name
  builtin kind := kind
  serve _
    | .release _, s => (none, s)
    | _, s => s.make

end Endless

end BlockTracker
