import BlockTracker.Text.Dump

/-!
# Failures

What can go wrong for a caller: a backend that has no block, a window without slots, a backend name nobody answers
to.  `Failure.message` words each for a reader.
-/

namespace BlockTracker

inductive Failure
  | outOfMemory (requested : Nat)
  | invalidCapacity (given : Nat)
  | unknownBackend (name : String)
deriving DecidableEq, Repr

namespace Failure

def message : Failure → String
  | outOfMemory n => s!"backend could not satisfy a request for {n} bytes"
  | invalidCapacity n => s!"tracking table capacity must be at least 1 (got {n})"
  | unknownBackend name => s!"unknown backend `{name}`"

def isOutOfMemory : Failure → Bool
  | outOfMemory _ => true
  | _ => false

def dump : Failure → String
  | outOfMemory n => Dump.record "OutOfMemory" [("requested", n.repr)]
  | invalidCapacity n => Dump.applied "InvalidCapacity" n.repr
  | unknownBackend name => Dump.applied "UnknownBackend" (quoted name)

end Failure

end BlockTracker
