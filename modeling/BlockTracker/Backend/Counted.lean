import BlockTracker.Backend.Basic

/-!
# Counting wrappers

A counting wrapper has a name of its own, counts every call that reaches it and passes the call on.  Wrappers may be
put around wrappers.  The counts are kept beside the state of the backends, one tally for each wrapper.
-/

namespace BlockTracker

/-- A backend with any number of counting wrappers around it. -/
inductive Counted (B : Type)
  | plain (b : B)
  | counting (id : Nat) (name : String) (inner : Counted B)

/-- How often each primitive was called. -/
abbrev Tally : Type := PerPrimitive Nat

/-- A state with the tallies of the wrappers, by number. -/
structure Tallied (σ : Type) where
  base : σ
  tallies : Array Tally

namespace Tallied

variable {σ : Type}

/-- Starts a new tally; its number is the count of those before it. -/
def addTally (s : Tallied σ) : Nat × Tallied σ := (s.tallies.size, { s with tallies := s.tallies.push (.all 0) })

def record (s : Tallied σ) (id : Nat) (p : Primitive) : Tallied σ :=
  { s with tallies := s.tallies.modify id fun t => t.modify p (· + 1) }

end Tallied

namespace Counted

variable {B σ : Type}

def name (bs : Backends B σ) : Counted B → String
  | plain b => bs.name b
  | counting _ name _ => name

def serve (bs : Backends B σ) : Counted B → Call → Tallied σ → Option Handle × Tallied σ
  | plain b, c, s =>
    let (answer, base) := bs.serve b c s.base
    (answer, { s with base })
  | counting id _ inner, c, s => serve bs inner c (s.record id c.primitive)

end Counted

/-- The same backends, with counting wrappers around some. -/
def Backends.counted {B σ : Type} (bs : Backends B σ) : Backends (Counted B) (Tallied σ) where
  name := Counted.name bs
  builtin kind := .plain (bs.builtin kind)
  serve := Counted.serve bs

end BlockTracker
