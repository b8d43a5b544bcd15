import BlockTracker.Memory.Builtin
import BlockTracker.Process
import BlockTracker.Script.Blocks

/-!
# Scripts for the process-wide tracker

The entries for callers from C, on blocks with real contents.  The functions of a table are those of the platform
backend, and the script counts how often each ran.
-/

namespace BlockTracker

namespace Script

namespace ProcessScript

/-- How often each function of a table ran. -/
structure FunctionRuns where
  malloc : Nat
  free : Nat
  realloc : Nat
  calloc : Nat
deriving DecidableEq, Repr

structure World where
  memory : Memory
  runs : FunctionRuns

instance : ByteStore World where
  load w a := w.memory.load a
  store w a b :=
    let ⟨memory, runs⟩ := w
    ⟨memory.store a b, runs⟩

abbrev Backend : Type := WithTables Unit Kind

/-- Lets the memory serve a call. -/
def onMemory {α : Type} (w : World) (f : Memory → α × Memory) : α × World :=
  let ⟨memory, runs⟩ := w
  let (a, memory) := f memory
  (a, ⟨memory, runs⟩)

/-- The built-in backends. -/
def builtins : Backends Kind World where
  name := Kind.name
  builtin kind := kind
  serve kind c w := onMemory w ((Memory.builtins Memory.afresh).serve kind c)

/-- The functions of the platform, each of which counts its runs. -/
def functions : FunctionCalls Unit World where
  malloc _ size w :=
    onMemory { w with runs := { w.runs with malloc := w.runs.malloc + 1 } } fun m =>
      let (start, m) := m.allocate Memory.afresh size.toNat
      (start.getD 0, m)
  calloc _ count size w :=
    onMemory { w with runs := { w.runs with calloc := w.runs.calloc + 1 } } fun m =>
      let (start, m) := m.allocate Memory.afresh (count.toNat * size.toNat)
      (start.getD 0, m)
  realloc _ old size w :=
    onMemory { w with runs := { w.runs with realloc := w.runs.realloc + 1 } } fun m =>
      let (start, m) := if old = 0 then m.allocate Memory.afresh size.toNat
        else m.reallocate Memory.afresh old size.toNat
      (start.getD 0, m)
  free _ addr w :=
    (onMemory { w with runs := { w.runs with free := w.runs.free + 1 } } fun m => ((), m.remove addr)).2

def backends : Backends Backend World := builtins.withTables functions

inductive Step
  | init
  | allocate (bytes : Nat)
  | zeroAllocate (bytes : Nat)
  | reallocate (old : Option Nat) (bytes : Nat)
  | release (block : Option Nat)
  | collect
  | count
  | copy (dst src : Option Nat) (count dstStart srcStart : Nat)
  | changeCalls (table : Option (FunctionTable Unit))
  | useSystem
  | runs
  | config
  | setEnvironment (env : Environment)
  | isTracked (block : Option Nat)
  | window
  | stats
  | write (block : Option Nat) (start : Nat) (bytes : List UInt8)
  | read (block : Option Nat) (start count : Nat)

inductive Result
  | number (n : Nat)
  | made (step : Option Nat)
  | flag (b : Bool)
  | done
  | bytes (bs : List UInt8)
  | runs (r : FunctionRuns)
  | config (st : Settings)
  | window (entries : List (Option Nat × Nat))
  | stats (st : Option Stats)
  | refused (why : Refusal)

structure Session where
  process : Process Backend World
  kind : Kind
  blocks : Blocks

/-- Whether a size may be asked for. -/
def checkSize (bytes : Nat) : Except Refusal Unit := if bytes ≤ alwaysFound then .ok () else .error .size

/-- A result, and the block it made. -/
abbrev Made : Type := Result × Option Block × Session

/-- A result that made no block. -/
def noBlock (r : Result) (ses : Session) : Made := (r, none, ses)

/-- Runs a step with what a check found, or refuses it. -/
def checked {α : Type} (ses : Session) (check : Except Refusal α) (run : α → Session → Made) : Made :=
  match check with
  | .ok a => run a ses
  | .error why => noBlock (.refused why) ses

/-- Calls an entry that makes or loses no block. -/
def call {α : Type} (ses : Session) (entry : Process Backend World → α × Process Backend World) : α × Session :=
  let ⟨process, kind, blocks⟩ := ses
  let (a, process) := entry process
  (a, ⟨process, kind, blocks⟩)

/-- Changes the contents of the blocks. -/
def onContents (ses : Session) (f : World → World) : Session :=
  let ⟨⟨environment, settings, tracker, state⟩, kind, blocks⟩ := ses
  ⟨⟨environment, settings, tracker, f state⟩, kind, blocks⟩

/-- Whether there are blocks in the window at some handles. -/
def inWindow (ses : Session) : (Handle → Bool) × Session :=
  let (entries, ses) := call ses (·.entries)
  ((entries.map (·.handle)).contains, ses)

/-- A request for a new block, which is then filled, if it is to be filled. -/
def obtain (ses : Session) (bytes : Nat) (filler : Option UInt8)
    (entry : Process Backend World → Nat × Process Backend World) : Made :=
  let (ptr, ses) := call ses entry
  match Handle.ofAddr? ptr with
  | none => noBlock (.made none) ses
  | some h =>
    let ses := onContents ses fun w => match filler with
      | none => w
      | some b => ByteStore.fill w h.addr b bytes
    (.made (some ses.blocks.size), some ⟨h, bytes, true, ses.kind⟩, ses)

/-- A request to resize a block.  A platform resize to zero bytes frees the block and makes none. -/
def resize (ses : Session) (old : Block) (bytes : Nat) : Made :=
  let (ptr, ses) := call ses (·.realloc backends old.handle.addr (.ofNat bytes))
  let without (ses : Session) : Session := { ses with blocks := ses.blocks.kill (· = old.handle) }
  match Handle.ofAddr? ptr with
  | none => noBlock (.made none) (if bytes = 0 && ses.kind = .platform then without ses else ses)
  | some h =>
    let ses := onContents (without ses) fun w =>
      ByteStore.fill w (h.addr + old.size) grownByte (bytes - old.size)
    (.made (some ses.blocks.size), some ⟨h, bytes, true, ses.kind⟩, ses)

/-- Calls an entry that gives back every block of the window. -/
def drain {α : Type} (ses : Session) (entry : Process Backend World → α × Process Backend World) : α × Session :=
  let (gone, ses) := inWindow ses
  let (a, ses) := call ses entry
  (a, { ses with blocks := ses.blocks.kill gone })

def release (ses : Session) (b : Block) : Made :=
  let (n, ses) := call ses (·.free backends b.handle.addr)
  noBlock (.number n) (if n = 1 then { ses with blocks := ses.blocks.kill (· = b.handle) } else ses)

/-- Whether a table has every function, or some of them only. -/
def isFull (t : FunctionTable Unit) : Bool :=
  t.malloc.isSome && t.free.isSome && t.realloc.isSome && t.calloc.isSome

@[inherit_doc isFull]
def isPartial (t : FunctionTable Unit) : Bool :=
  (t.malloc.isSome || t.free.isSome || t.realloc.isSome || t.calloc.isSome) && !isFull t

/-- Whether a table may be put in place: a partial one may not stand beside the system backend. -/
def checkTable (kind : Kind) (table : Option (FunctionTable Unit)) : Except Refusal Unit :=
  if table.any isPartial && kind = .system then .error .mixed else .ok ()

/-- Puts a table in place.  A full one makes the platform the maker of new blocks. -/
def changeCalls (ses : Session) (table : Option (FunctionTable Unit)) : Made :=
  let (_, ses) := drain ses fun p => ((), p.changeCalls backends table)
  noBlock .done (if table.any isFull then { ses with kind := .platform } else ses)

/-- Makes the system the maker of new blocks, unless there is no tracker that could use it. -/
def useSystem (ses : Session) : Made :=
  let (_, ses) := drain ses fun p => ((), p.useSystemAllocator backends)
  noBlock .done (if ses.process.tracker.isSome then { ses with kind := .system } else ses)

/-- Calls an entry whose answer is a number. -/
def number (ses : Session) (entry : Process Backend World → Nat × Process Backend World) : Made :=
  let (n, ses) := call ses entry
  noBlock (.number n) ses

/-- Releases every block of the window. -/
def collect (ses : Session) : Made :=
  let (n, ses) := drain ses (·.collect backends)
  noBlock (.number n) ses

def act (ses : Session) : Step → Made
  | .init => number ses (·.init backends)
  | .allocate n => checked ses (checkSize n) fun _ ses => obtain ses n (some freshByte) (·.alloc backends (.ofNat n))
  | .zeroAllocate n => checked ses (checkSize n) fun _ ses => obtain ses n none (·.clearAlloc backends (.ofNat n))
  | .reallocate none n =>
    checked ses (checkSize n) fun _ ses => obtain ses n (some grownByte) (·.realloc backends 0 (.ofNat n))
  | .reallocate (some k) n =>
    checked ses (checkSize n *> ses.blocks.findOwned k ses.kind) fun b ses => resize ses b n
  | .release none => number ses (·.free backends 0)
  | .release (some k) => checked ses (ses.blocks.find (some k)) fun b ses => release ses b
  | .collect => collect ses
  | .count => number ses (·.allocCount backends)
  | .copy dst src count dstStart srcStart =>
    checked ses (ses.blocks.sides dst src count dstStart srcStart) fun places ses =>
      number ses (·.copy (places.1.getD 0) (places.2.getD 0) (.ofNat count))
  | .changeCalls table => checked ses (checkTable ses.kind table) fun _ ses => changeCalls ses table
  | .useSystem => useSystem ses
  | .runs => noBlock (.runs ses.process.state.runs) ses
  | .config =>
    let (st, ses) := call ses (·.config)
    noBlock (.config st) ses
  | .setEnvironment env => noBlock .done { ses with process := { ses.process with environment := env } }
  | .isTracked k =>
    checked ses (ses.blocks.find k) fun b ses =>
      let (tracked, ses) := call ses (·.isTracked b.handle)
      noBlock (.flag tracked) ses
  | .window =>
    let (entries, ses) := call ses (·.entries)
    noBlock (.window (entries.map fun e => (ses.blocks.numberOf e.handle, e.size))) ses
  | .stats =>
    let (st, ses) := call ses (·.stats? backends)
    noBlock (.stats st) ses
  | .write k start bytes =>
    checked ses (ses.blocks.findRange k start bytes.length) fun b ses =>
      noBlock .done (onContents ses fun w => ByteStore.storeBytes w (b.handle.addr + start) bytes)
  | .read k start count =>
    checked ses (ses.blocks.findRange k start count) fun b ses =>
      noBlock (.bytes (ByteStore.loadBytes ses.process.state (b.handle.addr + start) count)) ses

/-- Whether a step leaves the settings unread. -/
def leavesUnread : Step → Bool
  | .setEnvironment _ => true
  | .runs => true
  | _ => false

/-- Reads the settings before the first step that may need them; their kind makes the first blocks. -/
def settle (ses : Session) (st : Step) : Session :=
  if leavesUnread st || ses.process.settings.isSome then ses
  else
    let (settings, ses) := call ses (·.config)
    { ses with kind := settings.kind }

def step (ses : Session) (st : Step) : Result × Session :=
  let ses := settle ses st
  let (result, block, ses) := act ses st
  (result, { ses with blocks := ses.blocks.push block })

def steps : List Step → Session → List Result
  | [], _ => []
  | st :: rest, ses =>
    let (result, ses) := step ses st
    result :: steps rest ses

def run (env : Environment) (script : List Step) : List Result :=
  steps script ⟨.start env ⟨.empty, ⟨0, 0, 0, 0⟩⟩, .platform, #[]⟩

end ProcessScript

end Script

end BlockTracker
