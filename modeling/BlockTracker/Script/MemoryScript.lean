import BlockTracker.Backend.Counted
import BlockTracker.Memory.Builtin
import BlockTracker.Script.Blocks
import BlockTracker.Tracker.Operation

/-!
# Scripts for a tracker on the built-in backends

Blocks with real contents: a script allocates, resizes and releases them through a tracker, writes and reads their
bytes, copies between them and exchanges the built-in backends, with or without a counting wrapper.
-/

namespace BlockTracker

namespace Script

namespace MemoryScript

abbrev Backend : Type := Counted Kind

abbrev World : Type := Tallied Memory

def backends : Backends Backend World := (Memory.builtins Memory.afresh).counted

inductive Step
  | install
  | allocate (bytes : Nat)
  | zeroAllocate (bytes : Nat)
  | reallocate (old : Option Nat) (bytes : Nat)
  | release (block : Option Nat)
  | isTracked (block : Option Nat)
  | collect
  | exchangeNone
  | exchangeAll (kind : String) (wrapper : Option String)
  | liveCount
  | write (block : Option Nat) (start : Nat) (bytes : List UInt8)
  | read (block : Option Nat) (start count : Nat)
  | copy (dst src : Option Nat) (count dstStart srcStart : Nat)
  | window
  | stats

inductive Result
  | answer (a : Answer)
  | made (r : Except Failure Nat)
  | failure (f : Failure)
  | bytes (bs : List UInt8)
  | copied (n : Nat)
  | done
  | window (entries : List (Option Nat × Nat))
  | refused (why : Refusal)

structure Session where
  tracker : Tracker Backend
  world : World
  kind : Kind
  blocks : Blocks
  wrappers : List String

/-- The entries of the window with the numbers of their blocks. -/
def windowOf (ses : Session) : List (Option Nat × Nat) :=
  ses.tracker.window.entries.map fun e => (ses.blocks.numberOf e.handle, e.size)

/-- Runs an operation of the tracker. -/
def perform (ses : Session) (op : Operation Backend) : Answer × Session :=
  let ⟨tracker, world, kind, blocks, wrappers⟩ := ses
  let o := tracker.perform backends op world
  (o.value, ⟨o.tracker, o.state, kind, blocks, wrappers⟩)

/-- Changes the memory. -/
def onMemory (ses : Session) (f : Memory → Memory) : Session :=
  let ⟨tracker, ⟨memory, tallies⟩, kind, blocks, wrappers⟩ := ses
  ⟨tracker, ⟨f memory, tallies⟩, kind, blocks, wrappers⟩

/-- Whether a size may be asked for. -/
def checkSize (bytes : Nat) : Except Refusal Unit :=
  if bytes ≤ alwaysFound || neverFound ≤ bytes then .ok () else .error .size

/-- The number of the step that runs now. -/
def now (ses : Session) : Nat := ses.blocks.size

/-- The result of a request, and the block it made. -/
abbrev Made : Type := Result × Option Block × Session

/-- A result that made no block. -/
def noBlock (r : Result) (ses : Session) : Made := (r, none, ses)

/-- Runs a step with what a check found, or refuses it. -/
def checked {α : Type} (ses : Session) (check : Except Refusal α) (run : α → Session → Made) : Made :=
  match check with
  | .ok a => run a ses
  | .error why => noBlock (.refused why) ses

/-- A request for a new block whose bytes from `kept` on are filled, if it is to be filled. -/
def obtain (ses : Session) (op : Operation Backend) (bytes : Nat) (filler : Option UInt8) : Made :=
  let (answer, ses) := perform ses op
  match answer with
  | .block (.ok h) =>
    let ses := onMemory ses fun m => match filler with
      | none => m
      | some b => ByteStore.fill m h.addr b bytes
    (.made (.ok (now ses)), some ⟨h, bytes, true, ses.kind⟩, ses)
  | .block (.error f) => noBlock (.made (.error f)) ses
  | a => noBlock (.answer a) ses

/-- A request to resize a block.  A platform resize to zero bytes frees the block and makes none. -/
def resize (ses : Session) (old : Block) (bytes : Nat) : Made :=
  let (answer, ses) := perform ses (.reallocate (some old.handle) bytes)
  let without (ses : Session) : Session := { ses with blocks := ses.blocks.kill (· = old.handle) }
  match answer with
  | .block (.ok h) =>
    let ses := onMemory (without ses) fun m => ByteStore.fill m (h.addr + old.size) grownByte (bytes - old.size)
    (.made (.ok (now ses)), some ⟨h, bytes, true, ses.kind⟩, ses)
  | .block (.error f) =>
    noBlock (.made (.error f)) (if bytes = 0 && ses.kind = .platform then without ses else ses)
  | a => noBlock (.answer a) ses

/-- Runs an operation after which the blocks at some handles are gone. -/
def lose (ses : Session) (gone : List Handle) (op : Operation Backend) : Made :=
  let (answer, ses) := perform ses op
  noBlock (.answer answer) { ses with blocks := ses.blocks.kill gone.contains }

/-- Runs an operation that gives back every block of the window. -/
def drain (ses : Session) (op : Operation Backend) : Made := lose ses ses.tracker.window.handles op

/-- Exchanges every backend for a built-in one, behind a new wrapper if it is to have one. -/
def exchangeAll (ses : Session) (kind : Kind) : Option String → Made
  | none =>
    let (r, b, ses) := drain ses (.exchange (.all (.plain kind)))
    (r, b, { ses with kind })
  | some name =>
    let (id, world) := ses.world.addTally
    let ses := { ses with world, wrappers := ses.wrappers ++ [name] }
    let (r, b, ses) := drain ses (.exchange (.all (.counting id name (.plain kind))))
    (r, b, { ses with kind })

/-- Releases a block; one that is outside the window stays. -/
def release (ses : Session) (b : Block) : Made :=
  let (answer, ses) := perform ses (.release b.handle)
  match answer with
  | .release .released => noBlock (.answer answer) { ses with blocks := ses.blocks.kill (· = b.handle) }
  | _ => noBlock (.answer answer) ses

/-- An operation that neither makes nor loses a block. -/
def plain (ses : Session) (op : Operation Backend) : Made :=
  let (answer, ses) := perform ses op
  noBlock (.answer answer) ses

/-- Copies bytes inside the memory. -/
def copy (ses : Session) (dst src : Option Nat) (count : Nat) : Made :=
  let ⟨tracker, ⟨memory, tallies⟩, kind, blocks, wrappers⟩ := ses
  let (n, memory) := copyRaw memory dst src count
  noBlock (.copied n) ⟨tracker, ⟨memory, tallies⟩, kind, blocks, wrappers⟩

def act (ses : Session) : Step → Made
  | .install => plain ses .install
  | .allocate n => checked ses (checkSize n) fun _ ses => obtain ses (.allocate n) n (some freshByte)
  | .zeroAllocate n => checked ses (checkSize n) fun _ ses => obtain ses (.zeroAllocate n) n none
  | .reallocate none n => checked ses (checkSize n) fun _ ses => obtain ses (.reallocate none n) n (some grownByte)
  | .reallocate (some k) n =>
    checked ses (checkSize n *> ses.blocks.findOwned k ses.kind) fun b ses => resize ses b n
  | .release k => checked ses (ses.blocks.find k) fun b ses => release ses b
  | .isTracked k => checked ses (ses.blocks.find k) fun b ses => plain ses (.isTracked b.handle)
  | .collect => drain ses .collect
  | .exchangeNone => drain ses (.exchange .none)
  | .exchangeAll name wrapper =>
    match Kind.parse name with
    | .ok kind => exchangeAll ses kind wrapper
    | .error f => noBlock (.failure f) ses
  | .liveCount => plain ses .liveCount
  | .write k start bytes =>
    checked ses (ses.blocks.findRange k start bytes.length) fun b ses =>
      noBlock .done (onMemory ses fun m => ByteStore.storeBytes m (b.handle.addr + start) bytes)
  | .read k start count =>
    checked ses (ses.blocks.findRange k start count) fun b ses =>
      noBlock (.bytes (ByteStore.loadBytes ses.world.base (b.handle.addr + start) count)) ses
  | .copy dst src count dstStart srcStart =>
    checked ses (ses.blocks.sides dst src count dstStart srcStart) fun places ses =>
      copy ses places.1 places.2 count
  | .window => noBlock (.window (windowOf ses)) ses
  | .stats => plain ses .stats

/-- A step with the window behind it. -/
structure StepReport where
  result : Result
  window : List (Option Nat × Nat)

def step (ses : Session) (st : Step) : StepReport × Session :=
  let (result, block, ses) := act ses st
  let ses := { ses with blocks := ses.blocks.push block }
  (⟨result, windowOf ses⟩, ses)

def steps : List Step → Session → List StepReport × Session
  | [], ses => ([], ses)
  | st :: rest, ses =>
    let (report, ses) := step ses st
    let (reports, ses) := steps rest ses
    (report :: reports, ses)

structure Report where
  steps : List StepReport
  stats : Stats
  wrappers : List (String × Tally)

def run (st : Settings) (script : List Step) : Report :=
  let (reports, ses) := steps script ⟨.create st, ⟨.empty, #[]⟩, st.kind, #[], []⟩
  let stats := ses.tracker.stats backends ses.world
  { steps := reports, stats := stats.value, wrappers := ses.wrappers.zip stats.state.tallies.toList }

end MemoryScript

end Script

end BlockTracker
