import BlockTracker.Backend.Routing

/-!
# Selection of backends

A selection holds the routing in use.  It starts empty and installs the built-in backend of its default kind when a
routing is first asked for.
-/

namespace BlockTracker

structure Selection (B : Type) where
  active : Option (Routing B)
  default : Kind

namespace Selection

variable {B σ : Type}

def create (kind : Kind) : Selection B := ⟨none, kind⟩

def isInstalled (sel : Selection B) : Bool := sel.active.isSome

/-- The routing in use, or the one that would be installed. -/
def current (bs : Backends B σ) (sel : Selection B) : Routing B :=
  sel.active.getD (.uniform (bs.builtin sel.default))

def use (sel : Selection B) (r : Routing B) : Selection B := { sel with active := some r }

/-- Installs the default if nothing is installed. -/
def ensure (bs : Backends B σ) (sel : Selection B) : Selection B := sel.use (sel.current bs)

/-- Installs the default if nothing is installed, and tells whether it did. -/
def install (bs : Backends B σ) (sel : Selection B) : Bool × Selection B :=
  (!sel.isInstalled, sel.ensure bs)

/-- Sends a call through the routing in use. -/
def call (bs : Backends B σ) (sel : Selection B) (c : Call) (s : σ) : Option Handle × Selection B × σ :=
  let (answer, r, s) := (sel.current bs).call bs c s
  (answer, sel.use r, s)

def dump (bs : Backends B σ) (sel : Selection B) : String :=
  Dump.record "BackendRegistry"
    [("active", Dump.option (sel.active.map (·.dump bs))), ("default_kind", sel.default.dump)]

end Selection

end BlockTracker
