import BlockTracker.Backend.Basic
import BlockTracker.Memory.Basic
import BlockTracker.Memory.Headed

/-!
# The built-in backends over a memory

The platform backend hands out regions as they are, and a resize to zero bytes frees the block and gives none.  The
system backend hands out blocks with a header.
-/

namespace BlockTracker

namespace Memory

variable (layout : Layout)

/-- Resizes a block as the platform does. -/
def reallocate (old size : Nat) (m : Memory) : Option Nat × Memory :=
  if size = 0 then (none, m.remove old) else m.resize layout old size

/-- The platform backend. -/
def servePlatform : Call → Memory → Option Handle × Memory
  | .allocate bytes, m | .zeroAllocate bytes, m | .reallocate none bytes, m =>
    let (start, m) := m.allocate layout bytes
    (start.bind Handle.ofAddr?, m)
  | .reallocate (some old) bytes, m =>
    let (start, m) := reallocate layout old.addr bytes m
    (start.bind Handle.ofAddr?, m)
  | .release block, m => (none, m.remove block.addr)

/-- The allocator under the system backend. -/
def sized : SizedAllocator Memory where
  allocate size m := m.allocate layout size
  allocateZeroed size m := m.allocate layout size
  reallocate start _ size m := m.resize layout start size
  deallocate start _ m := m.remove start

/-- The two built-in backends. -/
def builtins : Backends Kind Memory where
  name := Kind.name
  builtin kind := kind
  serve
    | .platform => servePlatform layout
    | .system => Headed.serve (sized layout)

end Memory

end BlockTracker
