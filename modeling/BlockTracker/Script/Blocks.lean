import BlockTracker.Memory.Basic
import BlockTracker.Memory.Copy
import BlockTracker.Script.Setup

/-!
# Blocks of a script

A script over the built-in backends writes to its blocks and reads them, so every step is checked before it is run:
it must name a live block, stay inside it, and resize it only where it came from.  A block is named by the step that
made it.  `Refusal` says why a step is not run.
-/

namespace BlockTracker

namespace Script

/-- A block, the size it was asked for with, whether it is still there, and the backend that made it. -/
structure Block where
  handle : Handle
  size : Nat
  live : Bool
  maker : Kind

inductive Refusal
  | size
  | noBlock
  | dead
  | owner
  | bounds
  | mixed
deriving DecidableEq, Repr

def Refusal.name : Refusal → String
  | size => "size"
  | noBlock => "no_block"
  | dead => "dead"
  | owner => "owner"
  | bounds => "bounds"
  | mixed => "mixed"

/-- What the steps so far made, one place for each step. -/
abbrev Blocks : Type := Array (Option Block)

namespace Blocks

/-- The live block of a step. -/
def find (bs : Blocks) (step : Option Nat) : Except Refusal Block :=
  match step.bind fun k => bs[k]?.join with
  | none => .error .noBlock
  | some b => if b.live then .ok b else .error .dead

/-- The live block of a step, with a range of places inside it. -/
def findRange (bs : Blocks) (step : Option Nat) (start count : Nat) : Except Refusal Block := do
  let b ← bs.find step
  if start + count ≤ b.size then .ok b else .error .bounds

/-- A side of a copy: no step is the null pointer. -/
def side (bs : Blocks) (step : Option Nat) (start count : Nat) : Except Refusal (Option Nat) :=
  match step with
  | none => .ok none
  | some k => (bs.findRange (some k) start count).map fun b => some (b.handle.addr + start)

/-- Both sides of a copy; the one that is written to is looked at first. -/
def sides (bs : Blocks) (dst src : Option Nat) (count dstStart srcStart : Nat) :
    Except Refusal (Option Nat × Option Nat) := do
  let dst ← bs.side dst dstStart count
  let src ← bs.side src srcStart count
  return (dst, src)

/-- The block that a step may resize with backends of a kind. -/
def findOwned (bs : Blocks) (step : Nat) (kind : Kind) : Except Refusal Block := do
  let b ← bs.find (some step)
  if b.maker = kind then .ok b else .error .owner

/-- The blocks without those at some handles. -/
def kill (bs : Blocks) (gone : Handle → Bool) : Blocks :=
  bs.map fun slot => slot.map fun b => if gone b.handle then { b with live := false } else b

/-- The number of the step that made the block at a handle. -/
def numberOf (bs : Blocks) (h : Handle) : Option Nat :=
  (List.range bs.size).find? fun k => bs[k]?.join.any fun b => b.handle = h && b.live

end Blocks

/-- What a fresh block is filled with. -/
def freshByte : UInt8 := 0xAA

/-- What the new part of a resized block is filled with. -/
def grownByte : UInt8 := 0xEE

/-- The largest size for which a block is always found. -/
def alwaysFound : Nat := Nat.pow 2 24

/-- The smallest size for which a block is never found. -/
def neverFound : Nat := Nat.pow 2 63 - 65

end Script

end BlockTracker
