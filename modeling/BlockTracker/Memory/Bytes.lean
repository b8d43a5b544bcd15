/-!
# Byte stores

A byte store holds bytes at numbered places.  Words of eight bytes are stored with the lowest byte first.
-/

namespace BlockTracker

/-- A store of bytes at numbered places. -/
class ByteStore (M : Type) where
  load : M → Nat → UInt8
  store : M → Nat → UInt8 → M

/-- An array of bytes holds the places below its size. -/
instance : ByteStore (Array UInt8) where
  load m a := m.getD a 0
  store m a b := m.setIfInBounds a b

/-- The size of a machine word in bytes. -/
def wordSize : Nat := 8

namespace ByteStore

variable {M : Type} [ByteStore M]

/-- The `n` bytes from place `a` on. -/
def loadBytes (m : M) (a n : Nat) : List UInt8 := (List.range n).map fun i => load m (a + i)

/-- Stores bytes from place `a` on. -/
def storeBytes (m : M) (a : Nat) : List UInt8 → M
  | [] => m
  | b :: bs => storeBytes (store m a b) (a + 1) bs

/-- Stores the same byte at `n` places from `a` on. -/
def fill (m : M) (a : Nat) (b : UInt8) : Nat → M
  | 0 => m
  | n + 1 => fill (store m a b) (a + 1) b n

/-- The `n` lowest bytes of a number, lowest first. -/
def bytesOf (n value : Nat) : List UInt8 := (List.range n).map fun i => .ofNat (value / Nat.pow 256 i % 256)

/-- The number that bytes stand for, lowest first. -/
def valueOf (bytes : List UInt8) : Nat := bytes.foldr (fun b v => b.toNat + 256 * v) 0

def loadWord (m : M) (a : Nat) : Nat := valueOf (loadBytes m a wordSize)

def storeWord (m : M) (a value : Nat) : M := storeBytes m a (bytesOf wordSize value)

end ByteStore

end BlockTracker
