import BlockTracker.Backend.Table
import BlockTracker.Memory.Copy
import BlockTracker.Tracker.Basic

/-!
# The process-wide tracker

A process has one tracker for callers from C.  It is set up from the environment when it is first needed; the
settings are read once and kept.  A table that cannot be laid out leaves the process without a tracker: then every
entry gives its fallback, and the next one tries again.  Sizes are 32-bit words, a null pointer is address 0, and
counts are cut off at the largest value of their type.
-/

namespace BlockTracker

structure Process (B σ : Type) where
  environment : Environment
  settings : Option Settings
  tracker : Option (Tracker B)
  state : σ

namespace Process

variable {B σ F α : Type}

def start (environment : Environment) (state : σ) : Process B σ := ⟨environment, none, none, state⟩

/-- The settings, read from the environment unless they were read before. -/
def config (p : Process B σ) : Settings × Process B σ :=
  let settings := p.settings.getD (.ofEnvironment p.environment)
  (settings, { p with settings := some settings })

/-- The process with a tracker, set up if there was none, unless its table cannot be laid out. -/
def ready (p : Process B σ) : Process B σ :=
  match p.tracker with
  | some _ => p
  | none =>
    let (settings, p) := p.config
    if Window.fits settings.capacity then { p with tracker := some (.create settings) } else p

/-- Runs an operation of the tracker; without a tracker there is only the fallback. -/
def enter (p : Process B σ) (fallback : α) (act : Tracker B → σ → Outcome B σ α) : α × Process B σ :=
  match p.ready with
  | ⟨environment, settings, some t, state⟩ =>
    let o := act t state
    (o.value, ⟨environment, settings, some o.tracker, o.state⟩)
  | p => (fallback, p)

/-- A result as a pointer. -/
def pointerOf : Except Failure Handle → Nat
  | .ok h => h.addr
  | .error _ => 0

variable (bs : Backends B σ)

/-- Installs the default backend: 1 if this call did it. -/
def init (p : Process B σ) : Nat × Process B σ :=
  let (installed, p) := p.enter false fun t s => t.install bs s
  (installed.toNat, p)

def alloc (p : Process B σ) (bytes : UInt32) : Nat × Process B σ :=
  let (result, p) := p.enter (.error (.outOfMemory bytes.toNat)) fun t s => t.allocate bs bytes.toNat s
  (pointerOf result, p)

def clearAlloc (p : Process B σ) (bytes : UInt32) : Nat × Process B σ :=
  let (result, p) := p.enter (.error (.outOfMemory bytes.toNat)) fun t s => t.zeroAllocate bs bytes.toNat s
  (pointerOf result, p)

/-- Resizes the block at a pointer; a null pointer has no block and allocates. -/
def realloc (p : Process B σ) (ptr : Nat) (bytes : UInt32) : Nat × Process B σ :=
  let (result, p) := p.enter (.error (.outOfMemory bytes.toNat)) fun t s =>
    t.reallocate bs (Handle.ofAddr? ptr) bytes.toNat s
  (pointerOf result, p)

/-- Releases the block at a pointer: 1 if it was in the window.  A null pointer does not reach the tracker. -/
def free (p : Process B σ) (ptr : Nat) : Nat × Process B σ :=
  match Handle.ofAddr? ptr with
  | none => (0, p)
  | some h =>
    let (outcome, p) := p.enter .untracked fun t s => t.release bs h s
    (if outcome = .released then 1 else 0, p)

/-- Releases every block of the window; tells how many, up to `2 ^ 32 - 1`. -/
def collect (p : Process B σ) : Nat × Process B σ :=
  let (n, p) := p.enter 0 fun t s => t.collect bs s
  (min n (Nat.pow 2 32 - 1), p)

/-- The number of blocks in the window, up to `2 ^ 31 - 1`. -/
def allocCount (p : Process B σ) : Nat × Process B σ :=
  let (n, p) := p.enter 0 fun t s => t.liveCount bs s
  (min n (Nat.pow 2 31 - 1), p)

/-- Drains the window and puts the functions of a table in place; a null table only drains. -/
def changeCalls (bs : Backends (WithTables F B) σ) (p : Process (WithTables F B) σ) (table : Option (FunctionTable F)) :
    Process (WithTables F B) σ :=
  let o := (table.map (·.toOverride)).getD .none
  (p.enter 0 fun t s => t.exchange bs o s).2

/-- Drains the window and routes every primitive to the system backend. -/
def useSystemAllocator (p : Process B σ) : Process B σ :=
  (p.enter 0 fun t s => t.exchange bs (.all (bs.builtin .system)) s).2

/-- The figures of the tracker; none without a tracker. -/
def stats? (p : Process B σ) : Option Stats × Process B σ :=
  p.enter none fun t s =>
    let o := t.stats bs s
    ⟨some o.value, o.notice, o.tracker, o.state⟩

/-- Whether the block at a pointer is in the window. -/
def isTracked (p : Process B σ) (h : Handle) : Bool × Process B σ :=
  p.enter false fun t s => ⟨t.isTracked h, none, t, s⟩

/-- The entries of the window. -/
def entries (p : Process B σ) : List Entry × Process B σ :=
  p.enter [] fun t s => ⟨t.window.entries, none, t, s⟩

/-- Copies bytes from one pointer to another, front to back; the tracker has no part in it. -/
def copy [ByteStore σ] (p : Process B σ) (dst src : Nat) (count : UInt32) : Nat × Process B σ :=
  let pointer (a : Nat) : Option Nat := if a = 0 then none else some a
  let ⟨environment, settings, tracker, state⟩ := p
  let (n, state) := copyRaw state (pointer dst) (pointer src) count.toNat
  (min n (Nat.pow 2 32 - 1), ⟨environment, settings, tracker, state⟩)

end Process

end BlockTracker
