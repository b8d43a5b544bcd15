import BlockTracker.Backend.Selection
import BlockTracker.Draining
import BlockTracker.Settings
import BlockTracker.Tracker.Notice

/-!
# The tracker

A tracker stands between its callers and the backends: it sends every request through the routing in use, keeps the
blocks it hands out in its window, and takes back only blocks that are in the window.  Backends are exchanged while
it runs; the window is drained through the outgoing routing first.  Each operation returns an `Outcome`: the answer,
the notice it gives, the tracker afterwards and the state of the backends afterwards.
-/

namespace BlockTracker

structure Tracker (B : Type) where
  selection : Selection B
  window : Window
  untrackedReleases : Nat
  drainedTotal : Nat
  swaps : Nat

/-- The result of one operation of a tracker. -/
structure Outcome (B σ α : Type) where
  value : α
  notice : Option Notice
  tracker : Tracker B
  state : σ

/-- A tracker at a glance. -/
structure Stats where
  tracked : Nat
  capacity : Nat
  backendLive : Nat
  totalBytes : Nat
  wraps : Nat
  untrackedReleases : Nat
  drainedTotal : Nat
  swaps : Nat
  backends : BackendNames
deriving DecidableEq

def Stats.toJson (st : Stats) : Json :=
  .object
    [("tracked", .number st.tracked), ("capacity", .number st.capacity),
     ("backend_live_count", .number st.backendLive), ("total_bytes_allocated", .number st.totalBytes),
     ("wraparounds", .number st.wraps), ("untracked_releases", .number st.untrackedReleases),
     ("drained_total", .number st.drainedTotal), ("swaps", .number st.swaps),
     ("backends", .object (st.backends.map Json.text).fields)]

namespace Tracker

variable {B σ α : Type}

def create (st : Settings) : Tracker B := ⟨.create st.kind, .create st.capacity, 0, 0, 0⟩

/-- The routing in use, or the one that would be installed. -/
def routing (bs : Backends B σ) (t : Tracker B) : Routing B := t.selection.current bs

/-- Installs the default backend if nothing is installed, and tells whether it did. -/
def install (bs : Backends B σ) (t : Tracker B) (s : σ) : Outcome B σ Bool :=
  let (installed, selection) := t.selection.install bs
  let notice := Notice.installed (bs.name (selection.current bs).target.allocate) t.window.capacity
  { value := installed
    notice := if installed then some notice else none
    tracker := { t with selection }
    state := s }

/-- Takes the block that answers a request into the window. -/
def takeIn (t : Tracker B) (op : Primitive) (bytes : Nat) (answer : Option Handle) (s : σ) :
    Outcome B σ (Except Failure Handle) :=
  match answer with
  | none => { value := .error (.outOfMemory bytes), notice := some (.noBlock op bytes), tracker := t, state := s }
  | some block =>
    let ⟨selection, window, untracked, drained, swaps⟩ := t
    match window.push ⟨block, bytes⟩ with
    | (.appended index, window) =>
      { value := .ok block
        notice := some (.tracked op bytes index block)
        tracker := ⟨selection, window, untracked, drained, swaps⟩
        state := s }
    | (.wrapped evicted, window) =>
      { value := .ok block
        notice := some (.wrapped op window.capacity (evicted.map (·.handle)))
        tracker := ⟨selection, window, untracked, drained, swaps⟩
        state := s }

/-- Sends a request for a new block and takes the block into the window. -/
def request (bs : Backends B σ) (t : Tracker B) (c : Call) (s : σ) : Outcome B σ (Except Failure Handle) :=
  let (answer, selection, s) := t.selection.call bs c s
  { t with selection }.takeIn c.primitive c.bytes answer s

def allocate (bs : Backends B σ) (t : Tracker B) (bytes : Nat) (s : σ) : Outcome B σ (Except Failure Handle) :=
  t.request bs (.allocate bytes) s

def zeroAllocate (bs : Backends B σ) (t : Tracker B) (bytes : Nat) (s : σ) : Outcome B σ (Except Failure Handle) :=
  t.request bs (.zeroAllocate bytes) s

/-- Puts a resized block in the place of the old one; an old block outside the window stays outside. -/
def moved (t : Tracker B) (old new : Handle) (bytes : Nat) (s : σ) : Outcome B σ (Except Failure Handle) :=
  let ⟨selection, window, untracked, drained, swaps⟩ := t
  let (known, window) := window.replace old ⟨new, bytes⟩
  { value := .ok new
    notice := some (if known then .resized old new bytes else .resizedUntracked old bytes)
    tracker := ⟨selection, window, untracked, drained, swaps⟩
    state := s }

/-- Strikes a block that a resize to zero bytes gave back. -/
def vanished (bs : Backends B σ) (t : Tracker B) (old : Handle) (s : σ) : Outcome B σ (Except Failure Handle) :=
  let failed : Except Failure Handle := .error (.outOfMemory 0)
  match t.window.erase old with
  | (none, _) => { value := failed, notice := some (.notResized old 0), tracker := t, state := s }
  | (some _, window) =>
    let selection := t.selection.use (t.routing bs).forget
    { value := failed
      notice := some (.resizedToNothing old)
      tracker := { t with selection, window }
      state := s }

/-- Resizes a block.  Where the backend gives no block, the old one is left as it was, unless the request was for
zero bytes: then a block of the window is taken as given back. -/
def resize (bs : Backends B σ) (t : Tracker B) (old : Handle) (bytes : Nat) (s : σ) :
    Outcome B σ (Except Failure Handle) :=
  let (answer, selection, s) := t.selection.call bs (.reallocate (some old) bytes) s
  let t := { t with selection }
  match answer with
  | some new => t.moved old new bytes s
  | none =>
    if bytes = 0 then t.vanished bs old s
    else
      { value := .error (.outOfMemory bytes), notice := some (.notResized old bytes), tracker := t, state := s }

/-- Resizes a block, or allocates one where there is none to resize. -/
def reallocate (bs : Backends B σ) (t : Tracker B) (old : Option Handle) (bytes : Nat) (s : σ) :
    Outcome B σ (Except Failure Handle) :=
  match old with
  | none => t.request bs (.reallocate none bytes) s
  | some old => t.resize bs old bytes s

/-- Releases a block of the window; any other handle is counted and left alone. -/
def release (bs : Backends B σ) (t : Tracker B) (h : Handle) (s : σ) : Outcome B σ ReleaseOutcome :=
  let routing := t.routing bs
  let ⟨selection, window, untracked, drained, swaps⟩ := t
  match window.untrack bs h routing s with
  | (.released, window, routing, s) =>
    { value := .released
      notice := none
      tracker := ⟨selection.use routing, window, untracked, drained, swaps⟩
      state := s }
  | (.untracked, window, routing, s) =>
    { value := .untracked
      notice := some (.releaseIgnored h)
      tracker := ⟨selection.use routing, window, untracked + 1, drained, swaps⟩
      state := s }

/-- Releases every block of the window; tells how many. -/
def collect (bs : Backends B σ) (t : Tracker B) (s : σ) : Outcome B σ Nat :=
  let routing := t.routing bs
  let ⟨selection, window, untracked, drained, swaps⟩ := t
  let (n, window, routing, s) := window.drain bs routing s
  { value := n
    notice := some (.collected n)
    tracker := ⟨selection.use routing, window, untracked, drained + n, swaps⟩
    state := s }

/-- Drains the window through the routing in use, then puts other backends in place; tells how many were drained. -/
def exchange (bs : Backends B σ) (t : Tracker B) (o : Override B) (s : σ) : Outcome B σ Nat :=
  let outgoing := t.routing bs
  let ⟨selection, window, untracked, drained, swaps⟩ := t
  let (n, window, routing, s) := window.drain bs outgoing s
  let incoming := routing.override o
  { value := n
    notice := some (.exchanged n (outgoing.names bs) (incoming.names bs))
    tracker := ⟨selection.use incoming, window, untracked, drained + n, swaps + 1⟩
    state := s }

/-- The number of blocks in the window. -/
def liveCount (bs : Backends B σ) (t : Tracker B) (s : σ) : Outcome B σ Nat :=
  { value := t.window.count
    notice := none
    tracker := { t with selection := t.selection.ensure bs }
    state := s }

def isTracked (t : Tracker B) (h : Handle) : Bool := t.window.contains h

/-- The figures of a tracker whose routing in use is `r`. -/
def figures (bs : Backends B σ) (t : Tracker B) (r : Routing B) : Stats :=
  { tracked := t.window.count
    capacity := t.window.capacity
    backendLive := r.live
    totalBytes := t.window.totalBytes
    wraps := t.window.wraps
    untrackedReleases := t.untrackedReleases
    drainedTotal := t.drainedTotal
    swaps := t.swaps
    backends := r.names bs }

def stats (bs : Backends B σ) (t : Tracker B) (s : σ) : Outcome B σ Stats :=
  { value := t.figures bs (t.routing bs)
    notice := none
    tracker := { t with selection := t.selection.ensure bs }
    state := s }

def dump (bs : Backends B σ) (t : Tracker B) : String :=
  let state := Dump.record "FrontEndState"
    [("registry", t.selection.dump bs), ("table", t.window.dump), ("untracked_releases", t.untrackedReleases.repr),
     ("drained_total", t.drainedTotal.repr), ("swaps", t.swaps.repr)]
  Dump.record "MemoryFrontEnd" [("state", Dump.record "Mutex" [("data", state)])]

end Tracker

end BlockTracker
