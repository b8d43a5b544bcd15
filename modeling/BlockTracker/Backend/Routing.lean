import BlockTracker.Backend.Basic

/-!
# Routing

A routing sends each primitive to a backend of its own and counts the blocks that were handed out and not taken
back.  The count follows the answers (`liveAfter`); replacing backends does not touch it.
-/

namespace BlockTracker

/-- The backend that serves each primitive, and the number of blocks handed out and not taken back. -/
structure Routing (B : Type) where
  target : PerPrimitive B
  live : Nat

namespace Routing

variable {B σ : Type}

/-- Every primitive served by one backend. -/
def uniform (b : B) : Routing B := ⟨.all b, 0⟩

def names (bs : Backends B σ) (r : Routing B) : BackendNames := r.target.map bs.name

/-- The count after a call: a new block adds one, a release takes one away, a resized block changes nothing. -/
def liveAfter (live : Nat) : Call → Option Handle → Nat
  | .allocate _, some _ => live + 1
  | .zeroAllocate _, some _ => live + 1
  | .reallocate none _, some _ => live + 1
  | .release _, _ => live - 1
  | _, _ => live

/-- Sends a call to the backend of its primitive. -/
def call (bs : Backends B σ) (r : Routing B) (c : Call) (s : σ) : Option Handle × Routing B × σ :=
  let (answer, s) := bs.serve (r.target.get c.primitive) c s
  (answer, { r with live := liveAfter r.live c answer }, s)

/-- Counts a block that its backend has taken back by itself. -/
def forget (r : Routing B) : Routing B := { r with live := r.live - 1 }

/-- Puts the backends that are present in `o` in their places. -/
def override (r : Routing B) (o : Override B) : Routing B :=
  { r with target := r.target.zipWith (fun old new => new.getD old) o }

/-- Releases the blocks of a list one after the other. -/
def releaseAll (bs : Backends B σ) (blocks : List Handle) (r : Routing B) (s : σ) : Routing B × σ :=
  blocks.foldl (fun (r, s) h => (r.call bs (.release h) s).2) (r, s)

def dump (bs : Backends B σ) (r : Routing B) : String :=
  Dump.record "BackendSet" [("names", (r.names bs).dump), ("live_count", r.live.repr)]

end Routing

end BlockTracker
