import BlockTracker.Script.Catalogue
import BlockTracker.Script.Setup
import BlockTracker.Tracker.Operation

/-!
# Scripts for a tracker on simulated heaps

A step is an operation of the tracker on blocks that earlier steps returned, or a look at it.  The built-in backends
have no blocks here, so a step that would need one is left out while they are in use.
-/

namespace BlockTracker

namespace Script

namespace TrackerScript

variable {B σ : Type}

inductive Step (B : Type)
  | install
  | allocate (bytes : Nat)
  | zeroAllocate (bytes : Nat)
  | reallocate (old : Option Ref) (bytes : Nat)
  | release (block : Ref)
  | isTracked (block : Ref)
  | position (block : Ref)
  | collect
  | exchange (o : Override B)
  | exchangeKind (name : String)
  | liveCount
  | stats
  | slots
  | dump

inductive Result
  | answer (a : Answer)
  | position (i : Option Nat)
  | slots (content : List (Option Entry))
  | text (s : String)
  | noHandle
  | builtinInUse

/-- A script between two steps, with the blocks that its steps returned. -/
structure Session (B σ : Type) where
  tracker : Tracker B
  state : σ
  builtinInUse : Bool
  returned : Array (Option Handle)

/-- What a step asks of the tracker, or what it shows without asking. -/
inductive Demand (B : Type)
  | operation (op : Operation B)
  | look (r : Result)

/-- The slots, and one more behind the last. -/
def slotsOf (w : Window) : List (Option Entry) := (List.range (w.capacity + 1)).map w.slot

/-- A demand that needs a block. -/
def withBlock (ses : Session B σ) (r : Ref) (f : Handle → Demand B) : Demand B :=
  match r.resolve ses.returned with
  | some h => f h
  | none => .look .noHandle

/-- A demand that the built-in backends cannot meet. -/
def unlessBuiltin (ses : Session B σ) (d : Demand B) : Demand B :=
  if ses.builtinInUse then .look .builtinInUse else d

def demandOf (bs : Backends B σ) (ses : Session B σ) : Step B → Except Stop (Demand B)
  | .install => .ok (.operation .install)
  | .allocate n => .ok (unlessBuiltin ses (.operation (.allocate n)))
  | .zeroAllocate n => .ok (unlessBuiltin ses (.operation (.zeroAllocate n)))
  | .reallocate none n => .ok (unlessBuiltin ses (.operation (.reallocate none n)))
  | .reallocate (some r) n =>
    .ok (unlessBuiltin ses (withBlock ses r fun h => .operation (.reallocate (some h) n)))
  | .release r => .ok (withBlock ses r fun h => .operation (.release h))
  | .isTracked r => .ok (withBlock ses r fun h => .operation (.isTracked h))
  | .position r => .ok (withBlock ses r fun h => .look (.position (ses.tracker.window.idxOf? h)))
  | .collect => .ok (.operation .collect)
  | .exchange o =>
    .ok (if o.isFull || o.isEmpty then .operation (.exchange o) else unlessBuiltin ses (.operation (.exchange o)))
  | .exchangeKind name => do
    let kind ← check (Kind.parse name)
    return .operation (.exchange (.all (bs.builtin kind)))
  | .liveCount => .ok (.operation .liveCount)
  | .stats => .ok (.operation .stats)
  | .slots => .ok (.look (.slots (slotsOf ses.tracker.window)))
  | .dump => .ok (.look (.text (ses.tracker.dump bs)))

/-- Whether the built-in backends are in use behind a step. -/
def builtinAfter (inUse : Bool) : Step B → Bool
  | .exchange o => inUse && !o.isFull
  | .exchangeKind _ => true
  | _ => inUse

/-- The block that a step returned. -/
def blockOf : Result → Option Handle
  | .answer (.block (.ok h)) => some h
  | _ => none

/-- Runs one step. -/
def step (bs : Backends B σ) (ses : Session B σ) (st : Step B) :
    Except Stop (Result × Option Notice × Session B σ) := do
  let demand ← demandOf bs ses st
  let ⟨tracker, state, builtinInUse, returned⟩ := ses
  let (result, notice, tracker, state) := match demand with
    | .look r => (r, none, tracker, state)
    | .operation op =>
      let ⟨value, notice, tracker, state⟩ := tracker.perform bs op state
      (.answer value, notice, tracker, state)
  return (result, notice, ⟨tracker, state, builtinAfter builtinInUse st, returned.push (blockOf result)⟩)

/-! ### Reports on simulated heaps -/

/-- A step with its effects: the calls that reached a heap, the notice given, the length of the window and, unless
the script is quiet, its entries. -/
structure StepReport where
  result : Result
  calls : Array LogEntry
  notice : Option Notice
  length : Nat
  entries : List Entry

/-- Runs one step with an empty log and reports on it. -/
def report (quiet : Bool) (ses : Session Backend World) (st : Step Backend) :
    Except Stop (StepReport × Session Backend World) := do
  let (result, notice, ses) ← step backends { ses with state := clearLog ses.state } st
  let window := ses.tracker.window
  let made : StepReport :=
    { result, notice
      calls := ses.state.base.log
      length := window.count
      entries := if quiet then [] else window.entries }
  return (made, ses)

def steps (quiet : Bool) :
    List (Step Backend) → Session Backend World → Except Stop (List StepReport × Session Backend World)
  | [], ses => .ok ([], ses)
  | st :: rest, ses => do
    let (first, ses) ← report quiet ses st
    let (others, ses) ← steps quiet rest ses
    return (first :: others, ses)

structure Report where
  steps : List StepReport
  stats : Stats
  wrappers : List (String × Tally)
  slots : List (Option Entry)

/-- Runs a script.  The figures at the end are taken behind the last step. -/
def run (c : Catalogue) (st : Settings) (quiet : Bool) (script : List (Step Backend)) : Except Stop Report := do
  let (reports, ses) ← steps quiet script ⟨.create st, c.world, true, #[]⟩
  let ⟨stats, _, tracker, world⟩ := ses.tracker.stats backends ses.state
  return { steps := reports, stats, wrappers := wrapperCalls c.wrappers world, slots := slotsOf tracker.window }

end TrackerScript

end Script

end BlockTracker
