import BlockTracker.Backend.Kind
import BlockTracker.Text.Json
import BlockTracker.Text.Numeral

/-!
# Settings

How a tracker is set up: the number of slots of its window, at least one, and the kind of backend it starts with.
Settings are read from two variables of the environment, independently of each other; an absent or unreadable
variable leaves its default.
-/

namespace BlockTracker

def defaultCapacity : Nat := 1024

structure Settings where
  capacity : Nat
  kind : Kind
  capacity_pos : 0 < capacity
deriving DecidableEq

/-- The values of the two variables, as bytes; an unset variable has none. -/
structure Environment where
  capacity : Option ByteArray
  backend : Option ByteArray

/-- The variable with the number of slots. -/
def capacityVariable : String := "BKIT_MEM_CAPACITY"

/-- The variable with the kind of backend. -/
def backendVariable : String := "BKIT_MEM_BACKEND"

namespace Settings

def default : Settings := ⟨defaultCapacity, .platform, by decide⟩

def withCapacity (st : Settings) (capacity : Nat) : Except Failure Settings :=
  if h : 0 < capacity then .ok { st with capacity, capacity_pos := h } else .error (.invalidCapacity capacity)

def withKind (st : Settings) (kind : Kind) : Settings := { st with kind }

/-- Changes the number of slots, then the kind.  A fault keeps what was changed before it and ends the change. -/
def change (st : Settings) (capacity : Option Nat) (kind : Option String) : Option Failure × Settings :=
  match (capacity.map st.withCapacity).getD (.ok st) with
  | .error f => (some f, st)
  | .ok st =>
    match (kind.map Kind.parse).getD (.ok st.kind) with
    | .error f => (some f, st)
    | .ok kind => (none, st.withKind kind)

/-- Makes changes one after the other and shows what each led to. -/
def changes (st : Settings) : List (Option Nat × Option String) → List (Option Failure × Settings)
  | [] => []
  | (capacity, kind) :: rest =>
    let result := st.change capacity kind
    result :: result.2.changes rest

/-- Reads a number of slots: blanks around it and underscores anywhere in it do not count, and 0 is refused. -/
def parseCapacity (raw : String) : Option { n : Nat // 0 < n } :=
  match Numeral.read 10 (Numeral.dropUnderscores (trim raw.toList)) with
  | .ok n => if h : 0 < n then some ⟨n, h⟩ else none
  | .error _ => none

/-- The text of a variable; bytes that are not UTF-8 count as absent. -/
def textOf (value : Option ByteArray) : Option String := value.bind String.fromUTF8?

/-- The settings that an environment asks for. -/
def ofEnvironment (env : Environment) : Settings :=
  let capacity := ((textOf env.capacity).bind parseCapacity).getD ⟨default.capacity, default.capacity_pos⟩
  let kind := ((textOf env.backend).bind fun raw => (Kind.parse raw).toOption).getD default.kind
  ⟨capacity.val, kind, capacity.property⟩

def toJson (st : Settings) : Json :=
  .object [("capacity", .number st.capacity), ("backend", .text st.kind.name)]

def dump (st : Settings) : String :=
  Dump.record "TrackerConfig" [("capacity", st.capacity.repr), ("backend", st.kind.dump)]

end Settings

end BlockTracker
