import BlockTracker.Backend.Counted
import BlockTracker.Backend.Table
import BlockTracker.Simulation.Heap

/-!
# Simulated backends

An arena holds simulated heaps and a log of the calls that reached them.  A heap can be used directly as a backend,
or through C functions; a wrapper around it leaves no mark in the log.
-/

namespace BlockTracker

/-- A call that reached a heap, with its answer. -/
inductive HeapEvent
  | allocate (bytes : Nat) (answer : Option Nat)
  | zeroAllocate (bytes : Nat) (answer : Option Nat)
  | reallocate (old : Option Nat) (bytes : Nat) (answer : Option Nat) (owned : Bool)
  | release (addr : Nat) (owned : Bool)
  | malloc (size : Nat) (answer : Option Nat)
  | calloc (count size : Nat) (answer : Option Nat)
  | realloc (old : Option Nat) (size : Nat) (answer : Option Nat) (owned : Bool)
  | free (addr : Nat) (owned : Bool)
deriving DecidableEq

structure LogEntry where
  heap : String
  event : HeapEvent
deriving DecidableEq

/-- A simulated heap and the name it logs under. -/
structure NamedHeap where
  name : String
  heap : SimHeap

structure Arena where
  heaps : Array NamedHeap
  log : Array LogEntry

/-- A backend of an arena: a built-in one, which has no blocks here, or a heap by its number. -/
inductive SimBackend
  | builtin (kind : Kind)
  | heap (id : Nat) (name : String)

namespace Arena

/-- Lets heap `id` do something and logs what it did. -/
def onHeap {α : Type} (a : Arena) (id : Nat) (absent : α) (act : SimHeap → α × HeapEvent × SimHeap) : α × Arena :=
  match a.heaps[id]? with
  | none => (absent, a)
  | some h =>
    let (answer, event, heap) := act h.heap
    (answer, { heaps := a.heaps.setIfInBounds id { h with heap }, log := a.log.push ⟨h.name, event⟩ })

/-- The handle of an answer; address 0 gives none. -/
def answerOf (addr : Option Nat) : Option Handle := addr.bind Handle.ofAddr?

def serveHeap (id : Nat) (c : Call) (a : Arena) : Option Handle × Arena :=
  a.onHeap id none fun h =>
    match c with
    | .allocate bytes =>
      let (answer, h) := h.make bytes
      (answerOf answer, .allocate bytes answer, h)
    | .zeroAllocate bytes =>
      let (answer, h) := h.make bytes
      (answerOf answer, .zeroAllocate bytes answer, h)
    | .reallocate old bytes =>
      let old := old.map (·.addr)
      let (answer, owned, h) := h.resize old bytes
      (answerOf answer, .reallocate old bytes answer owned, h)
    | .release block =>
      let (owned, h) := h.giveBack block.addr
      (none, .release block.addr owned, h)

/-- The heaps of an arena as backends. -/
def backends : Backends SimBackend Arena where
  name
    | .builtin kind => kind.name
    | .heap _ name => name
  builtin := .builtin
  serve
    | .builtin _, _, a => (none, a)
    | .heap id _, c, a => serveHeap id c a

/-- The C functions of the heap with a given number. -/
def functions : FunctionCalls Nat Arena where
  malloc id size a :=
    a.onHeap id 0 fun h =>
      let (answer, h) := h.make size.toNat
      (answer.getD 0, .malloc size.toNat answer, h)
  calloc id count size a :=
    a.onHeap id 0 fun h =>
      let (answer, h) := h.make (count.toNat * size.toNat)
      (answer.getD 0, .calloc count.toNat size.toNat answer, h)
  realloc id old size a :=
    a.onHeap id 0 fun h =>
      let old := if old = 0 then none else some old
      let (answer, owned, h) := h.resize old size.toNat
      (answer.getD 0, .realloc old size.toNat answer owned, h)
  free id addr a :=
    (a.onHeap id () fun h =>
      let (owned, h) := h.giveBack addr
      ((), .free addr owned, h)).2

end Arena

end BlockTracker
