import BlockTracker.Lock
import BlockTracker.Simulation.Endless
import BlockTracker.Tracker.Basic

/-!
# Clients on one tracker

Clients that share a tracker, each allocating a number of blocks and releasing them again.  A client may release
every other block as soon as it has it and keep the rest to the end.  What the tracker shows afterwards does not hang
on the order in which the clients get their turns, so here they take turns one client after the other.

Clients may also share a plain counter under a flag lock.  None of their additions is lost (`countTogether_eq`).
-/

namespace BlockTracker

structure ClientsSpec where
  clients : Nat
  blocks : Nat
  /-- Whether every other block is released at once. -/
  interleaved : Bool
deriving DecidableEq, Repr

structure ClientsReport where
  /-- The blocks in the window when every client has its blocks. -/
  live : Nat
  /-- The kept blocks that were released from the window. -/
  released : Nat
  stats : Stats

/-- A number and the lock that guards it. -/
structure Counter where
  lock : FlagLock
  value : Nat

namespace Counter

def zero : Counter := ⟨.free, 0⟩

/-- Takes the lock, adds one and clears the lock.  Where the lock is held, nothing is added. -/
def increment (c : Counter) : Counter :=
  let (won, lock) := c.lock.tryLock
  if won then ⟨lock.unlock, c.value + 1⟩ else { c with lock }

/-- With a lock that is free, no increment is lost. -/
theorem repeat_increment (n value : Nat) : Nat.repeat increment n ⟨.free, value⟩ = ⟨.free, value + n⟩ := by
  induction n with
  | zero => rfl
  | succ n ih => rw [Nat.repeat, ih]; rfl

end Counter

namespace Clients

/-- The size of a block that a client asks for. -/
def sizeOf (spec : ClientsSpec) (client i : Nat) : Nat := 8 + (client * spec.blocks + i) % 64

/-- A shared tracker and the blocks that were kept, the latest first. -/
structure Shared where
  tracker : Tracker Kind
  state : Endless
  kept : List Handle

/-- One allocation of a client. -/
def obtain (spec : ClientsSpec) (client : Nat) (sh : Shared) (i : Nat) : Shared :=
  let ⟨tracker, state, kept⟩ := sh
  let ⟨result, _, tracker, state⟩ := tracker.allocate Endless.backends (sizeOf spec client i) state
  match result with
  | .error _ => ⟨tracker, state, kept⟩
  | .ok h =>
    if spec.interleaved && i % 2 = 0 then
      let ⟨_, _, tracker, state⟩ := tracker.release Endless.backends h state
      ⟨tracker, state, kept⟩
    else ⟨tracker, state, h :: kept⟩

/-- The allocations of every client. -/
def obtainAll (spec : ClientsSpec) (sh : Shared) : Shared :=
  (List.range spec.clients).foldl (fun sh client => (List.range spec.blocks).foldl (obtain spec client) sh) sh

/-- Releases blocks and tells how many of them were in the window. -/
def giveBack : List Handle → Tracker Kind → Endless → Nat × Tracker Kind × Endless
  | [], t, s => (0, t, s)
  | h :: hs, t, s =>
    let ⟨outcome, _, t, s⟩ := t.release Endless.backends h s
    let (n, t, s) := giveBack hs t s
    (if outcome = .released then n + 1 else n, t, s)

def run (spec : ClientsSpec) (st : Settings) : ClientsReport :=
  let ⟨tracker, state, kept⟩ := obtainAll spec ⟨.create st, .empty, []⟩
  let ⟨live, _, tracker, state⟩ := tracker.liveCount Endless.backends state
  let (released, tracker, state) := giveBack kept.reverse tracker state
  { live, released, stats := (tracker.stats Endless.backends state).value }

/-- What a counter shows after every client has added one to it a number of times, each time under the lock. -/
def countTogether (clients times : Nat) : Nat :=
  (Nat.repeat (Nat.repeat Counter.increment times) clients .zero).value

theorem countTogether_eq (clients times : Nat) : countTogether clients times = clients * times := by
  have hall : Nat.repeat (Nat.repeat Counter.increment times) clients .zero = ⟨.free, clients * times⟩ := by
    induction clients with
    | zero => rw [Nat.zero_mul]; rfl
    | succ clients ih => rw [Nat.repeat, ih, Counter.repeat_increment, Nat.succ_mul]
  exact congrArg Counter.value hall

end Clients

end BlockTracker
