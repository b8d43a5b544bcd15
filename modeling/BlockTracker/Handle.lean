import BlockTracker.Text.Dump

/-!
# Handles and entries

A handle names a block by its address, which is never 0: address 0 stands for "no block".  An entry is what is
remembered of a block, its handle and the size of the latest request for it.
-/

namespace BlockTracker

/-- The name of a block. -/
structure Handle where
  addr : Nat
  addr_ne_zero : addr ≠ 0
deriving DecidableEq

namespace Handle

/-- The handle at an address, unless the address is 0. -/
def ofAddr? (addr : Nat) : Option Handle :=
  if h : addr ≠ 0 then some ⟨addr, h⟩ else none

def dump (h : Handle) : String := Dump.applied "Handle" (hexText h.addr)

/-- The handles of a list in ascending order, each once. -/
def ascending (hs : List Handle) : List Handle :=
  (hs.mergeSort fun a b => a.addr ≤ b.addr).eraseDups

theorem ofAddr?_eq_none {addr : Nat} : ofAddr? addr = none ↔ addr = 0 := by
  simp [ofAddr?]

theorem addr_of_ofAddr? {addr : Nat} {h : Handle} (e : ofAddr? addr = some h) : h.addr = addr := by
  unfold ofAddr? at e
  split at e
  · cases e; rfl
  · cases e

end Handle

/-- A block and the size last requested for it. -/
structure Entry where
  handle : Handle
  size : Nat
deriving DecidableEq

namespace Entry

def dump (e : Entry) : String :=
  Dump.record "AllocationRecord" [("handle", e.handle.dump), ("size", e.size.repr)]

end Entry

end BlockTracker
