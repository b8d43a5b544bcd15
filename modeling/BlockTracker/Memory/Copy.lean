import BlockTracker.Memory.Bytes

/-!
# Copies

Bytes are copied in whole words first and then one by one.  `copySlices` copies between two separate arrays, as much
as both have.  `copyRaw` copies inside one store from the front to the back and does not look whether the two ranges
overlap: a word is loaded whole before it is stored, so what it stores may be loaded again by a later step.
-/

namespace BlockTracker

/-- Copies the first `n` bytes of one store to the first places of another. -/
def copyAcross {D S : Type} [ByteStore D] [ByteStore S] (dst : D) (src : S) (n : Nat) : D :=
  let words := n / wordSize
  let dst := (List.range words).foldl (fun d i =>
    ByteStore.storeBytes d (i * wordSize) (ByteStore.loadBytes src (i * wordSize) wordSize)) dst
  (List.range' (words * wordSize) (n % wordSize)).foldl (fun d i => ByteStore.store d i (ByteStore.load src i)) dst

/-- Copies up to `count` bytes from the front of `src` to the front of `dst`; tells how many.  Nothing is copied
where a side is absent. -/
def copySlices (dst src : Option (Array UInt8)) (count : Nat) : Nat × Option (Array UInt8) :=
  match dst, src with
  | some dst, some src =>
    let n := min count (min dst.size src.size)
    (n, some (copyAcross dst src n))
  | dst, _ => (0, dst)

section Raw

variable {M : Type} [ByteStore M]

/-- Copies one word inside a store. -/
def copyWord (dst src : Nat) (m : M) : M :=
  ByteStore.storeBytes m dst (ByteStore.loadBytes m src wordSize)

/-- Copies one byte inside a store. -/
def copyByte (dst src : Nat) (m : M) : M := ByteStore.store m dst (ByteStore.load m src)

/-- Copies `count` bytes inside a store from `src` to `dst`, front to back; tells how many.  Nothing is copied where a
side is absent. -/
def copyRaw (m : M) (dst src : Option Nat) (count : Nat) : Nat × M :=
  match dst, src with
  | some dst, some src =>
    let words := count / wordSize
    let m := (List.range words).foldl (fun m i => copyWord (dst + i * wordSize) (src + i * wordSize) m) m
    let m := (List.range' (words * wordSize) (count % wordSize)).foldl (fun m i => copyByte (dst + i) (src + i) m) m
    (count, m)
  | _, _ => (0, m)

end Raw

end BlockTracker
