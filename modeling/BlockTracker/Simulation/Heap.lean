import BlockTracker.Backend.Primitive
import BlockTracker.Text.Numeral

/-!
# Simulated heaps

A simulated heap hands out made-up addresses.  Its behaviour says which requests it refuses, how many blocks it can
make, whether it uses addresses again, and what it does with a resize.  It knows which addresses it has handed out,
so a call for an address that is not live shows as such.
-/

namespace BlockTracker

/-- What a simulated heap does with a request to resize a block. -/
inductive Resizing
  | move
  | stay
  | fail
deriving DecidableEq, Repr

structure Behaviour where
  base : Nat
  stride : Nat
  reuse : Bool
  max : Option Nat
  budget : Option Nat
  zero : Bool
  freeOnZero : Bool
  resizing : Resizing
deriving DecidableEq, Repr

structure SimHeap where
  behaviour : Behaviour
  next : Nat
  budget : Option Nat
  live : List Nat
  free : List Nat

namespace SimHeap

def create (b : Behaviour) : SimHeap := ⟨b, b.base, b.budget, [], []⟩

def isLive (h : SimHeap) (addr : Nat) : Bool := h.live.contains addr

def refuses (h : SimHeap) (bytes : Nat) : Bool :=
  (bytes = 0 && !h.behaviour.zero) || h.behaviour.max.any (· < bytes)

/-- The next address to hand out: the one given back last, or else a fresh one. -/
def take (h : SimHeap) : Nat × SimHeap :=
  match h.free with
  | addr :: free => (addr, { h with free })
  | [] => (h.next, { h with next := (h.next + h.behaviour.stride) % wordCount })

/-- Makes a block.  An address counts as live once, however often it was handed out. -/
def make (h : SimHeap) (bytes : Nat) : Option Nat × SimHeap :=
  if h.refuses bytes || h.budget = some 0 then (none, h)
  else
    let (addr, h) := { h with budget := h.budget.map (· - 1) }.take
    (some addr, { h with live := h.live.insert addr })

/-- Takes an address back. -/
def drop (h : SimHeap) (addr : Nat) : SimHeap :=
  { h with
    live := h.live.filter (· ≠ addr)
    free := if h.behaviour.reuse then addr :: h.free else h.free }

/-- Resizes the block at an address, or makes one where there is none; tells also whether the block was live. -/
def resize (h : SimHeap) (old : Option Nat) (bytes : Nat) : Option Nat × Bool × SimHeap :=
  match old with
  | none =>
    let (answer, h) := h.make bytes
    (answer, true, h)
  | some old =>
    let owned := h.isLive old
    if bytes = 0 && h.behaviour.freeOnZero then (none, owned, if owned then h.drop old else h)
    else
      match h.behaviour.resizing with
      | .fail => (none, owned, h)
      | .stay => (if h.refuses bytes then none else some old, owned, h)
      | .move =>
        let (answer, h) := h.make bytes
        (answer, owned, if owned && answer.any (· ≠ old) then h.drop old else h)

/-- Takes back the block at an address, if it is live; tells whether it was. -/
def giveBack (h : SimHeap) (addr : Nat) : Bool × SimHeap :=
  let owned := h.isLive addr
  (owned, if owned then h.drop addr else h)

end SimHeap

end BlockTracker
