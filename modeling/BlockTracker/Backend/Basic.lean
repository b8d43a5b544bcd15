import BlockTracker.Backend.Kind
import BlockTracker.Backend.Primitive

/-!
# Backends

The backends of a run share one state: a value of `Backends` says how each of them is called and what a call
answers and changes.  Nothing is assumed of the answers.
-/

namespace BlockTracker

/-- Backends named by `B` over a state `σ`.  A call of `release` has no answer; what `serve` returns for it is
ignored. -/
structure Backends (B σ : Type) where
  name : B → String
  builtin : Kind → B
  serve : B → Call → σ → Option Handle × σ

/-- Which backend to put in the place of which: an absent one is kept. -/
abbrev Override (B : Type) : Type := PerPrimitive (Option B)

namespace Override

variable {B : Type}

def none : Override B := PerPrimitive.all .none

def all (b : B) : Override B := PerPrimitive.all (some b)

def isEmpty (o : Override B) : Bool :=
  o.allocate.isNone && o.zeroAllocate.isNone && o.reallocate.isNone && o.release.isNone

def isFull (o : Override B) : Bool :=
  o.allocate.isSome && o.zeroAllocate.isSome && o.reallocate.isSome && o.release.isSome

def dump {σ : Type} (bs : Backends B σ) (o : Override B) : String :=
  Dump.record "BackendSwap" (o.map fun b => Dump.option (b.map fun b => quoted (bs.name b))).fields

end Override

/-- The names of the backends that serve each primitive. -/
abbrev BackendNames : Type := PerPrimitive String

def BackendNames.dump (n : BackendNames) : String := Dump.record "BackendNames" (n.map quoted).fields

end BlockTracker
