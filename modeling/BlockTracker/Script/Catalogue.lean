import BlockTracker.Simulation.Arena

/-!
# Catalogues of backends

The backends of a script on simulated heaps: heaps declared by name, counting wrappers around backends declared
before, and tables of the C functions of one more heap.
-/

namespace BlockTracker

namespace Script

/-- A backend of a script. -/
abbrev Backend : Type := Counted (WithTables Nat SimBackend)

abbrev World : Type := Tallied Arena

def backends : Backends Backend World := (Arena.backends.withTables Arena.functions).counted

/-- One declared backend. -/
inductive Declaration
  | heap (name : String) (b : Behaviour)
  | counting (name inner : String)

/-- The declared backends by name, the names of the wrappers by number, and the world they live in. -/
structure Catalogue where
  entries : List (String × Backend)
  wrappers : List String
  world : World

namespace Catalogue

/-- A world with the heap behind the C functions only; it is heap 0. -/
def create (functions : Behaviour) : Catalogue :=
  { entries := []
    wrappers := []
    world := ⟨⟨#[⟨"c", .create functions⟩], #[]⟩, #[]⟩ }

/-- The backend of a name; the latest declaration counts. -/
def find? (c : Catalogue) (name : String) : Option Backend := c.entries.lookup name

/-- Adds a declared backend; a wrapper needs a backend that was declared before. -/
def declare (c : Catalogue) : Declaration → Option Catalogue
  | .heap name b =>
    let arena := c.world.base
    let ref : Backend := .plain (.own (.heap arena.heaps.size name))
    some
      { c with
        entries := (name, ref) :: c.entries
        world := { c.world with base := { arena with heaps := arena.heaps.push ⟨name, .create b⟩ } } }
  | .counting name inner => do
    let inner ← c.find? inner
    let (id, world) := c.world.addTally
    return { entries := (name, .counting id name inner) :: c.entries, wrappers := c.wrappers ++ [name], world }

def build (functions : Behaviour) (ds : List Declaration) : Option Catalogue :=
  ds.foldlM declare (create functions)

end Catalogue

/-- A table with the C functions that are named as present. -/
def functionTable (malloc free realloc calloc : Bool) : FunctionTable Nat :=
  let function (present : Bool) : Option Nat := if present then some 0 else none
  ⟨function malloc, function free, function realloc, function calloc⟩

/-- The calls of each wrapper, by name. -/
def wrapperCalls (wrappers : List String) (w : World) : List (String × Tally) := wrappers.zip w.tallies.toList

/-- Forgets the log of earlier steps. -/
def clearLog (w : World) : World := { w with base := { w.base with log := #[] } }

end Script

end BlockTracker
