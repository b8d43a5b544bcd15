import BlockTracker.Settings

/-!
# Workload specifications

What a workload does: how many blocks its workers allocate in all, how often they release one, on what tracker, and
which backend takes over at the end.  The allocations are shared out over the workers, the first ones getting one more
where they do not come out even.
-/

namespace BlockTracker

structure WorkloadSpec where
  capacity : Nat
  backend : Kind
  allocs : Nat
  releaseEvery : Nat
  swapTo : Option Kind
  threads : Nat
  seed : UInt64
deriving DecidableEq

namespace WorkloadSpec

def default : WorkloadSpec := ⟨defaultCapacity, .platform, 4096, 2, none, 1, 0xDEADBEEF⟩

/-- The allocations that fall to a worker. -/
def share (spec : WorkloadSpec) (worker : Nat) : Nat :=
  spec.allocs / spec.threads + if worker < spec.allocs % spec.threads then 1 else 0

/-- Whether a list of all workers, 24 bytes each, can be laid out in memory. -/
def crewFits (spec : WorkloadSpec) : Bool := 24 * spec.threads < Nat.pow 2 63

/-- The seed of a worker. -/
def workerSeed (seed : UInt64) (worker : Nat) : UInt64 :=
  seed ^^^ ((UInt64.ofNat worker + 1) * 0x9E3779B97F4A7C15)

def toJson (spec : WorkloadSpec) : Json :=
  .object
    [("capacity", .number spec.capacity), ("backend", .text spec.backend.name), ("allocs", .number spec.allocs),
     ("release_every", .number spec.releaseEvery),
     ("swap_to", (spec.swapTo.map fun k => Json.text k.name).getD .null), ("threads", .number spec.threads),
     ("seed", .number spec.seed.toNat)]

end WorkloadSpec

end BlockTracker
