import BlockTracker.Draining
import BlockTracker.Script.Catalogue
import BlockTracker.Script.Setup

/-!
# Scripts for a window and a routing

A window and a routing side by side, without a tracker to keep them in step: blocks may enter the window that no
backend handed out, and blocks may be handed out that never enter it.
-/

namespace BlockTracker

namespace Script

namespace WindowScript

inductive Step
  | push (block : Ref) (size : Nat)
  | erase (block : Ref)
  | untrack (block : Ref)
  | replace (old new : Ref) (size : Nat)
  | position (block : Ref)
  | contains (block : Ref)
  | drain
  | slot (i : Nat)
  | allocate (bytes : Nat)
  | zeroAllocate (bytes : Nat)
  | reallocate (old : Option Ref) (bytes : Nat)
  | release (block : Ref)
  | forget
  | override (o : Override Backend)
  | names
  | dumpRouting
  | dumpWindow

inductive Result
  | placed (p : Placement)
  | entry (e : Option Entry)
  | released (o : ReleaseOutcome)
  | flag (b : Bool)
  | index (i : Option Nat)
  | count (n : Nat)
  | block (h : Option Handle)
  | done
  | overridden (empty : Bool) (dump : String)
  | names (n : BackendNames)
  | text (s : String)
  | noHandle

structure Session where
  window : Window
  routing : Routing Backend
  world : World
  returned : Array (Option Handle)

/-- A step with the calls that reached a heap and what the window and the routing are like behind it. -/
structure StepReport where
  result : Result
  calls : Array LogEntry
  length : Nat
  totalBytes : Nat
  wraps : Nat
  live : Nat
  slots : List (Option Entry)

/-- A step that needs a block. -/
def withBlock (ses : Session) (r : Ref) (f : Handle → Result × Session) : Result × Session :=
  match r.resolve ses.returned with
  | some h => f h
  | none => (.noHandle, ses)

/-- Sends a call through the routing. -/
def send (ses : Session) (c : Call) : Option Handle × Session :=
  let (answer, routing, world) := ses.routing.call backends c ses.world
  (answer, { ses with routing, world })

/-- Sends a request for a block. -/
def obtain (ses : Session) (c : Call) : Result × Session :=
  let (answer, ses) := send ses c
  (.block answer, ses)

def act (ses : Session) : Step → Result × Session
  | .push r size =>
    withBlock ses r fun h =>
      let (p, window) := ses.window.push ⟨h, size⟩
      (.placed p, { ses with window })
  | .erase r =>
    withBlock ses r fun h =>
      let (e, window) := ses.window.erase h
      (.entry e, { ses with window })
  | .untrack r =>
    withBlock ses r fun h =>
      let (o, window, routing, world) := ses.window.untrack backends h ses.routing ses.world
      (.released o, { ses with window, routing, world })
  | .replace old new size =>
    withBlock ses old fun old =>
      withBlock ses new fun new =>
        let (known, window) := ses.window.replace old ⟨new, size⟩
        (.flag known, { ses with window })
  | .position r => withBlock ses r fun h => (.index (ses.window.idxOf? h), ses)
  | .contains r => withBlock ses r fun h => (.flag (ses.window.contains h), ses)
  | .drain =>
    let (n, window, routing, world) := ses.window.drain backends ses.routing ses.world
    (.count n, { ses with window, routing, world })
  | .slot i => (.entry (ses.window.slot i), ses)
  | .allocate n => obtain ses (.allocate n)
  | .zeroAllocate n => obtain ses (.zeroAllocate n)
  | .reallocate none n => obtain ses (.reallocate none n)
  | .reallocate (some r) n => withBlock ses r fun h => obtain ses (.reallocate (some h) n)
  | .release r =>
    withBlock ses r fun h =>
      let (_, ses) := send ses (.release h)
      (.done, ses)
  | .forget => (.done, { ses with routing := ses.routing.forget })
  | .override o => (.overridden o.isEmpty (o.dump backends), { ses with routing := ses.routing.override o })
  | .names => (.names (ses.routing.names backends), ses)
  | .dumpRouting => (.text (ses.routing.dump backends), ses)
  | .dumpWindow => (.text ses.window.dump, ses)

/-- The block that a step returned. -/
def blockOf : Result → Option Handle
  | .block h => h
  | _ => none

def step (ses : Session) (st : Step) : StepReport × Session :=
  let (result, ses) := act { ses with world := clearLog ses.world } st
  let report :=
    { result
      calls := ses.world.base.log
      length := ses.window.count
      totalBytes := ses.window.totalBytes
      wraps := ses.window.wraps
      live := ses.routing.live
      slots := ses.window.slots.toList }
  (report, { ses with returned := ses.returned.push (blockOf result) })

def steps : List Step → Session → List StepReport × Session
  | [], ses => ([], ses)
  | st :: rest, ses =>
    let (report, ses) := step ses st
    let (reports, ses) := steps rest ses
    (report :: reports, ses)

structure Report where
  steps : List StepReport
  capacity : Nat
  entries : List Entry
  names : BackendNames
  wrappers : List (String × Tally)

/-- Runs a script on a fresh window and a routing to one backend. -/
def run (c : Catalogue) (b : Backend) (capacity : Nat) (script : List Step) : Except Stop Report := do
  let st ← check (Settings.default.withCapacity capacity)
  checkFits st.capacity
  let (reports, ses) := steps script ⟨.create st.capacity, .uniform b, c.world, #[]⟩
  return { steps := reports
           capacity := ses.window.capacity
           entries := ses.window.entries
           names := ses.routing.names backends
           wrappers := wrapperCalls c.wrappers ses.world }

end WindowScript

end Script

end BlockTracker
