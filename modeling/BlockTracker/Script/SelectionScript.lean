import BlockTracker.Backend.Selection
import BlockTracker.Script.Setup
import BlockTracker.Simulation.Endless

/-!
# Scripts for a selection of backends

Blocks of eight bytes are asked for and given back through the selection; the backends are replaced only while no
block is out.
-/

namespace BlockTracker

namespace Script

namespace SelectionScript

inductive Step
  | isInstalled
  | install
  | names
  | live
  | allocate
  | zeroAllocate
  | reallocate
  | release
  | forget
  | replace (kind : String)
  | dump

inductive Result
  | flag (b : Bool)
  | names (n : BackendNames)
  | count (n : Nat)
  | text (s : String)
  | noneHeld
  | held

structure Session where
  selection : Selection Kind
  state : Endless
  blocks : List Handle

def backends : Backends Kind Endless := Endless.backends

/-- The size of every request. -/
def blockSize : Nat := 8

/-- The count of the routing in use. -/
def liveOf (ses : Session) : Nat := (ses.selection.current backends).live

/-- Changes the routing in use. -/
def onRouting (ses : Session) (f : Routing Kind → Routing Kind) : Session :=
  { ses with selection := ses.selection.use (f (ses.selection.current backends)) }

/-- Asks for a block. -/
def obtain (ses : Session) (c : Call) : Result × Session :=
  let (answer, selection, state) := ses.selection.call backends c ses.state
  let ses := { ses with selection, state, blocks := answer.toList ++ ses.blocks }
  (.count (liveOf ses), ses)

def act (ses : Session) : Step → Except Stop (Result × Session)
  | .isInstalled => .ok (.flag ses.selection.isInstalled, ses)
  | .install =>
    let (installed, selection) := ses.selection.install backends
    .ok (.flag installed, { ses with selection })
  | .names => .ok (.names ((ses.selection.current backends).names backends), onRouting ses id)
  | .live => .ok (.count (liveOf ses), onRouting ses id)
  | .allocate => .ok (obtain ses (.allocate blockSize))
  | .zeroAllocate => .ok (obtain ses (.zeroAllocate blockSize))
  | .reallocate => .ok (obtain ses (.reallocate none blockSize))
  | .release =>
    match ses.blocks with
    | [] => .ok (.noneHeld, ses)
    | h :: blocks =>
      let (_, selection, state) := ses.selection.call backends (.release h) ses.state
      let ses : Session := { selection, state, blocks }
      .ok (.count (liveOf ses), ses)
  | .forget =>
    let ses := onRouting ses (·.forget)
    .ok (.count (liveOf ses), ses)
  | .replace name =>
    if ses.blocks.isEmpty then do
      let kind ← check (Kind.parse name)
      let ses := onRouting ses (·.override (.all kind))
      return (.names ((ses.selection.current backends).names backends), ses)
    else .ok (.held, ses)
  | .dump => .ok (.text (ses.selection.dump backends), ses)

def steps : List Step → Session → Except Stop (List Result)
  | [], _ => .ok []
  | st :: rest, ses => do
    let (result, ses) ← act ses st
    return result :: (← steps rest ses)

def run (kind : String) (script : List Step) : Except Stop (List Result) := do
  let kind ← check (Kind.parse kind)
  steps script ⟨.create kind, .empty, []⟩

end SelectionScript

end Script

end BlockTracker
