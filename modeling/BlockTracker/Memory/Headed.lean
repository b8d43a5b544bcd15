import BlockTracker.Backend.Primitive
import BlockTracker.Memory.Bytes

/-!
# Blocks with a header

An allocator that wants to be told the size of a block when it is given back or resized.  Every block is made 16
bytes larger than asked for and starts with a word that holds its whole size; the caller's part begins behind it.
-/

namespace BlockTracker

/-- An allocator whose caller remembers the sizes.  `reallocate` takes a start, the size of the block there, and the
size it is to have; `deallocate` takes a start and a size. -/
structure SizedAllocator (σ : Type) where
  allocate : Nat → σ → Option Nat × σ
  allocateZeroed : Nat → σ → Option Nat × σ
  reallocate : Nat → Nat → Nat → σ → Option Nat × σ
  deallocate : Nat → Nat → σ → σ

namespace Headed

/-- The bytes in front of the caller's part. -/
def headerSize : Nat := 16

/-- The largest size of a block on a 16-byte boundary. -/
def sizeLimit : Nat := Nat.pow 2 63 - 16

/-- The whole size of a block for a request, if there can be such a block. -/
def totalFor (bytes : Nat) : Option Nat :=
  if bytes + headerSize ≤ sizeLimit then some (bytes + headerSize) else none

variable {σ : Type} [ByteStore σ]

/-- Writes the header of a new block and names the caller's part. -/
def finish (start : Option Nat) (total : Nat) (s : σ) : Option Handle × σ :=
  match start with
  | none => (none, s)
  | some start => (Handle.ofAddr? (start + headerSize), ByteStore.storeWord s start total)

/-- The start of a block and the size in its header. -/
def header (block : Handle) (s : σ) : Nat × Nat :=
  let start := block.addr - headerSize
  (start, ByteStore.loadWord s start)

def allocate (raw : SizedAllocator σ) (bytes : Nat) (s : σ) : Option Handle × σ :=
  match totalFor bytes with
  | none => (none, s)
  | some total =>
    let (start, s) := raw.allocate total s
    finish start total s

def zeroAllocate (raw : SizedAllocator σ) (bytes : Nat) (s : σ) : Option Handle × σ :=
  match totalFor bytes with
  | none => (none, s)
  | some total =>
    let (start, s) := raw.allocateZeroed total s
    finish start total s

def resize (raw : SizedAllocator σ) (old : Handle) (bytes : Nat) (s : σ) : Option Handle × σ :=
  match totalFor bytes with
  | none => (none, s)
  | some total =>
    let (start, oldTotal) := header old s
    let (start, s) := raw.reallocate start oldTotal total s
    finish start total s

def release (raw : SizedAllocator σ) (block : Handle) (s : σ) : σ :=
  let (start, total) := header block s
  raw.deallocate start total s

/-- The allocator as a backend. -/
def serve (raw : SizedAllocator σ) : Call → σ → Option Handle × σ
  | .allocate bytes, s => allocate raw bytes s
  | .zeroAllocate bytes, s => zeroAllocate raw bytes s
  | .reallocate none bytes, s => allocate raw bytes s
  | .reallocate (some old) bytes, s => resize raw old bytes s
  | .release block, s => (none, release raw block s)

end Headed

end BlockTracker
