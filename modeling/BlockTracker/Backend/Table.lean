import BlockTracker.Backend.Basic

/-!
# Tables of C functions

A table holds up to four C allocator functions, which take sizes of 32 bits.  It puts a backend in place for exactly
the functions it has (`FunctionTable.toOverride`).  A request for more bytes than 32 bits can say fails before any
function is called.
-/

namespace BlockTracker

/-- A table of functions of type `F`, each of which may be missing. -/
structure FunctionTable (F : Type) where
  malloc : Option F
  free : Option F
  realloc : Option F
  calloc : Option F
deriving DecidableEq

/-- What C allocator functions do when they are called.  Addresses are numbers, and 0 is the null pointer. -/
structure FunctionCalls (F σ : Type) where
  malloc : F → UInt32 → σ → Nat × σ
  calloc : F → UInt32 → UInt32 → σ → Nat × σ
  realloc : F → Nat → UInt32 → σ → Nat × σ
  free : F → Nat → σ → σ

/-- A backend of one's own, or a table of C functions. -/
inductive WithTables (F B : Type)
  | own (b : B)
  | table (t : FunctionTable F)

/-- A size as a C function takes it. -/
def size32? (bytes : Nat) : Option UInt32 :=
  if bytes < Nat.pow 2 32 then some (.ofNat bytes) else none

namespace FunctionTable

variable {F B σ : Type}

/-- Puts the table in the place of every primitive that it has a function for. -/
def toOverride (t : FunctionTable F) : Override (WithTables F B) :=
  let present (f : Option F) : Option (WithTables F B) := f.map fun _ => .table t
  ⟨present t.malloc, present t.calloc, present t.realloc, present t.free⟩

def serve (fs : FunctionCalls F σ) (t : FunctionTable F) (c : Call) (s : σ) : Option Handle × σ :=
  match c with
  | .allocate bytes =>
    match size32? bytes, t.malloc with
    | some size, some f =>
      let (addr, s) := fs.malloc f size s
      (Handle.ofAddr? addr, s)
    | _, _ => (none, s)
  | .zeroAllocate bytes =>
    match size32? bytes, t.calloc with
    | some size, some f =>
      let (addr, s) := fs.calloc f 1 size s
      (Handle.ofAddr? addr, s)
    | _, _ => (none, s)
  | .reallocate old bytes =>
    match size32? bytes, t.realloc with
    | some size, some f =>
      let (addr, s) := fs.realloc f ((old.map (·.addr)).getD 0) size s
      (Handle.ofAddr? addr, s)
    | _, _ => (none, s)
  | .release block =>
    match t.free with
    | some f => (none, fs.free f block.addr s)
    | none => (none, s)

end FunctionTable

/-- The same backends, and every table of functions as one more. -/
def Backends.withTables {F B σ : Type} (bs : Backends B σ) (fs : FunctionCalls F σ) :
    Backends (WithTables F B) σ where
  name
    | .own b => bs.name b
    | .table _ => "foreign"
  builtin kind := .own (bs.builtin kind)
  serve
    | .own b => bs.serve b
    | .table t => t.serve fs

end BlockTracker
