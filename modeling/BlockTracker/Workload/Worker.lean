import BlockTracker.Draining
import BlockTracker.Failure
import BlockTracker.Workload.Random

/-!
# Workers

A worker asks for blocks of random sizes and releases one of its blocks from time to time.  It is a machine that
shows its next request and goes on with the answer, so the answers may come from anywhere, and those of several
workers in any order.  Each answer brings it closer to the end (`measure_received`, `measure_returned`).
-/

namespace BlockTracker

/-- What a worker asks for. -/
inductive WorkerRequest
  | allocate (bytes : Nat)
  | zeroAllocate (bytes : Nat)
  | release (block : Handle)
deriving DecidableEq

/-- How a worker fared. -/
structure WorkerTally where
  allocations : Nat
  failed : Nat
  releases : Nat
  untracked : Nat
deriving DecidableEq, Repr

/-- A worker that waits for the answer to `request`, or is done.  Behind that request it has `left` allocations to
ask for. -/
structure Worker where
  random : Xorshift
  allocs : Nat
  releaseEvery : Nat
  left : Nat
  request : Option WorkerRequest
  tally : WorkerTally
  held : Array Handle

namespace Worker

/-- The largest size a worker asks for. -/
def maxBytes : Nat := 1024

/-- Turns to the next allocation, if there is one left. -/
def ask (w : Worker) : Worker :=
  if w.left = 0 then { w with request := none }
  else
    let bytes := w.random.range 1 maxBytes
    let choice := bytes.2.next
    { w with
      random := choice.2
      left := w.left - 1
      request := some (if choice.1 % 4 = 0 then .zeroAllocate bytes.1 else .allocate bytes.1) }

def start (seed : UInt64) (allocs releaseEvery : Nat) : Worker :=
  ask ⟨.seeded seed, allocs, releaseEvery, allocs, none, ⟨0, 0, 0, 0⟩, #[]⟩

/-- Whether a release is due behind the allocation that was answered last. -/
def releaseDue (w : Worker) : Bool :=
  0 < w.releaseEvery && (w.allocs - w.left) % w.releaseEvery = 0 && 0 < w.held.size

/-- Takes the element at an index out; the last one moves into its place. -/
def swapRemove {α : Type} (xs : Array α) (i : Nat) : Array α := (xs.swapIfInBounds i (xs.size - 1)).pop

/-- Turns to the release of the held block at an index. -/
def give (w : Worker) (i : Nat) : Worker :=
  match w.held[i]? with
  | some h => { w with held := swapRemove w.held i, request := some (.release h) }
  | none => w.ask

/-- Turns to the release of one of the held blocks. -/
def giveOne (w : Worker) : Worker :=
  let index := w.random.range 0 (w.held.size - 1)
  { w with random := index.2 }.give index.1

/-- Notes the answer to a request for a block. -/
def note (w : Worker) : Except Failure Handle → Worker
  | .ok h => { w with tally := { w.tally with allocations := w.tally.allocations + 1 }, held := w.held.push h }
  | .error _ => { w with tally := { w.tally with failed := w.tally.failed + 1 } }

/-- Turns to what comes behind an allocation. -/
def proceed (w : Worker) : Worker := if w.releaseDue then w.giveOne else w.ask

/-- Goes on with the answer to a request for a block. -/
def received (w : Worker) (result : Except Failure Handle) : Worker := (w.note result).proceed

/-- Goes on with the answer to a release. -/
def returned (w : Worker) (outcome : ReleaseOutcome) : Worker :=
  let tally := match outcome with
    | .released => { w.tally with releases := w.tally.releases + 1 }
    | .untracked => { w.tally with untracked := w.tally.untracked + 1 }
  { w with tally }.ask

/-- At most this many answers are still to come. -/
def measure (w : Worker) : Nat :=
  match w.request with
  | none => 0
  | some (.release _) => 2 * w.left + 1
  | some _ => 2 * w.left + 2

private theorem measure_le (w : Worker) : w.measure ≤ 2 * w.left + 2 := by
  unfold measure
  split <;> omega

private theorem left_ask (w : Worker) : w.ask.left = w.left - 1 := by
  unfold ask
  split
  · simp only
    omega
  · rfl

private theorem measure_ask (w : Worker) : w.ask.measure ≤ 2 * w.left := by
  by_cases h : w.left = 0
  · have : w.ask.request = none := by simp only [ask, h, ↓reduceIte]
    simp only [measure, this, Nat.zero_le]
  · have := measure_le w.ask
    rw [left_ask] at this
    omega

private theorem measure_give (w : Worker) (i : Nat) : (w.give i).measure ≤ 2 * w.left + 1 := by
  unfold give
  split
  · exact Nat.le_refl _
  · exact Nat.le_succ_of_le (measure_ask w)

private theorem left_note (w : Worker) (result : Except Failure Handle) : (w.note result).left = w.left := by
  cases result <;> rfl

private theorem measure_proceed (w : Worker) : w.proceed.measure ≤ 2 * w.left + 1 := by
  unfold proceed
  split
  · exact measure_give ..
  · exact Nat.le_succ_of_le (measure_ask w)

theorem measure_received (w : Worker) (result : Except Failure Handle) :
    (w.received result).measure ≤ 2 * w.left + 1 := by
  rw [← left_note w result]
  exact measure_proceed _

theorem measure_returned (w : Worker) (outcome : ReleaseOutcome) : (w.returned outcome).measure ≤ 2 * w.left := by
  cases outcome <;> exact measure_ask _

end Worker

end BlockTracker
