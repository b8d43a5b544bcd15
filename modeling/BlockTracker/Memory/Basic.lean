import BlockTracker.Memory.Bytes

/-!
# Memory

A memory is cut into regions of bytes that are in use.  A new region is put where a placement says, if it says
anything; what stood there before does not show, and a new region is all zero.
-/

namespace BlockTracker

/-- A run of bytes in use. -/
structure Region where
  start : Nat
  bytes : Array UInt8

def Region.covers (r : Region) (a : Nat) : Bool := r.start ≤ a && a < r.start + r.bytes.size

/-- The regions in use; none of them has ever reached `frontier`. -/
structure Memory where
  regions : List Region
  frontier : Nat

/-- Where to put a region of a given size, if there is room for it. -/
abbrev Layout : Type := Memory → Nat → Option Nat

namespace Memory

/-- A memory without regions.  Its first page is never used. -/
def empty : Memory := ⟨[], 0x1000⟩

/-- Every address is below this one. -/
def addressLimit : Nat := Nat.pow 2 47

/-- The next place on a 16-byte boundary that no region ever held. -/
def afresh : Layout := fun m size =>
  if m.frontier + size ≤ addressLimit then some m.frontier else none

/-- The first multiple of 16 behind a region; a region without bytes still takes a place. -/
def roundUp (start size : Nat) : Nat := (start + max size 1 + 15) / 16 * 16

def region? (m : Memory) (start : Nat) : Option Region := m.regions.find? (·.start = start)

/-- Puts a region in use. -/
def add (m : Memory) (r : Region) : Memory :=
  { regions := r :: m.regions, frontier := max m.frontier (roundUp r.start r.bytes.size) }

/-- Takes a region out of use. -/
def remove (m : Memory) (start : Nat) : Memory := { m with regions := m.regions.filter (·.start ≠ start) }

/-- Makes a region of zeros. -/
def allocate (layout : Layout) (m : Memory) (size : Nat) : Option Nat × Memory :=
  match layout m size with
  | none => (none, m)
  | some start => (some start, m.add ⟨start, .replicate size 0⟩)

/-- The bytes of a region that had `bytes` and now has `size` of them. -/
def resizeBytes (bytes : Array UInt8) (size : Nat) : Array UInt8 :=
  let kept := bytes.take size
  kept ++ Array.replicate (size - kept.size) 0

/-- Moves the region at `old` to a place with another size; where there is no place it stays as it is. -/
def resize (layout : Layout) (m : Memory) (old size : Nat) : Option Nat × Memory :=
  let rest := m.remove old
  match layout rest size with
  | none => (none, m)
  | some start =>
    let bytes := resizeBytes ((m.region? old).map (·.bytes) |>.getD #[]) size
    (some start, rest.add ⟨start, bytes⟩)

def load (m : Memory) (a : Nat) : UInt8 :=
  match m.regions.find? (·.covers a) with
  | some r => r.bytes.getD (a - r.start) 0
  | none => 0

/-- Stores a byte in the region that covers its place. -/
def storeIn (a : Nat) (b : UInt8) : List Region → List Region
  | [] => []
  | r :: rs =>
    if r.covers a then
      let ⟨start, bytes⟩ := r
      ⟨start, bytes.setIfInBounds (a - start) b⟩ :: rs
    else r :: storeIn a b rs

def store (m : Memory) (a : Nat) (b : UInt8) : Memory :=
  let ⟨regions, frontier⟩ := m
  ⟨storeIn a b regions, frontier⟩

instance : ByteStore Memory := ⟨load, store⟩

end Memory

end BlockTracker
