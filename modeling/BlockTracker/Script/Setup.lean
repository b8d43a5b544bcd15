import BlockTracker.Settings
import BlockTracker.Window.Basic

/-!
# Setting a script up

A script names blocks by the step that returned them or by their address.  Before its first step the settings are
checked; a script that fails this check has no steps.
-/

namespace BlockTracker

namespace Script

/-- A block as a script names it. -/
inductive Ref
  | address (a : Nat)
  | step (k : Nat)
deriving DecidableEq, Repr

/-- The block that a reference stands for, given what the steps so far returned. -/
def Ref.resolve (returned : Array (Option Handle)) : Ref → Option Handle
  | address a => Handle.ofAddr? a
  | step k => returned[k]?.join

/-- Why a script cannot run, or cannot run on. -/
inductive Stop
  | failure (f : Failure)
  | tableTooLarge
deriving DecidableEq

def Stop.message : Stop → String
  | failure f => f.message
  | tableTooLarge => "capacity overflow"

/-- Lifts the result of reading a name or a number. -/
def check {α : Type} : Except Failure α → Except Stop α := Except.mapError .failure

/-- Refuses a table that cannot be laid out. -/
def checkFits (capacity : Nat) : Except Stop Unit :=
  if Window.fits capacity then .ok () else .error .tableTooLarge

/-- Settings with the number of slots checked before the kind. -/
def capacityFirst (capacity : Option Nat) (kind : String) : Except Stop Settings := do
  let st ← check (Settings.default.withCapacity (capacity.getD defaultCapacity))
  let kind ← check (Kind.parse kind)
  checkFits st.capacity
  return st.withKind kind

/-- Settings with the kind checked before the number of slots. -/
def kindFirst (capacity : Option Nat) (kind : String) : Except Stop Settings := do
  let kind ← check (Kind.parse kind)
  let st ← check (Settings.default.withCapacity (capacity.getD defaultCapacity))
  checkFits st.capacity
  return st.withKind kind

end Script

end BlockTracker
