import BlockTracker.Tracker.Basic

/-!
# Operations and runs

The operations of a tracker as data, so that a run is a list of them.  `Tracker.perform` does one, and `Tracker.run`
does one after the other and returns their results in order.
-/

namespace BlockTracker

inductive Operation (B : Type)
  | install
  | allocate (bytes : Nat)
  | zeroAllocate (bytes : Nat)
  | reallocate (old : Option Handle) (bytes : Nat)
  | release (block : Handle)
  | collect
  | exchange (o : Override B)
  | liveCount
  | isTracked (block : Handle)
  | stats

/-- What an operation answers. -/
inductive Answer
  | flag (b : Bool)
  | block (result : Except Failure Handle)
  | release (outcome : ReleaseOutcome)
  | count (n : Nat)
  | stats (st : Stats)

namespace Outcome

variable {B σ α β : Type}

def map (f : α → β) (o : Outcome B σ α) : Outcome B σ β := ⟨f o.value, o.notice, o.tracker, o.state⟩

end Outcome

namespace Tracker

variable {B σ : Type}

def perform (bs : Backends B σ) (t : Tracker B) (op : Operation B) (s : σ) : Outcome B σ Answer :=
  match op with
  | .install => (t.install bs s).map .flag
  | .allocate bytes => (t.allocate bs bytes s).map .block
  | .zeroAllocate bytes => (t.zeroAllocate bs bytes s).map .block
  | .reallocate old bytes => (t.reallocate bs old bytes s).map .block
  | .release h => (t.release bs h s).map .release
  | .collect => (t.collect bs s).map .count
  | .exchange o => (t.exchange bs o s).map .count
  | .liveCount => (t.liveCount bs s).map .count
  | .isTracked h => ⟨.flag (t.isTracked h), none, t, s⟩
  | .stats => (t.stats bs s).map .stats

/-- Does the operations of a list in order. -/
def run (bs : Backends B σ) (t : Tracker B) : List (Operation B) → σ → List (Outcome B σ Answer)
  | [], _ => []
  | op :: ops, s =>
    let o := t.perform bs op s
    o :: o.tracker.run bs ops o.state

end Tracker

end BlockTracker
