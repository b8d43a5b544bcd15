import BlockTracker.Backend.Basic
import BlockTracker.Text.Json

/-!
# Notices

What a tracker reports about its work while it works.  A notice has a level, a message and fields.
-/

namespace BlockTracker

inductive Level
  | trace
  | debug
  | info
  | warn
deriving DecidableEq, Repr

def Level.name : Level → String
  | trace => "TRACE"
  | debug => "DEBUG"
  | info => "INFO"
  | warn => "WARN"

inductive Notice
  | installed (backend : String) (capacity : Nat)
  | noBlock (op : Primitive) (bytes : Nat)
  | tracked (op : Primitive) (bytes index : Nat) (block : Handle)
  | wrapped (op : Primitive) (capacity : Nat) (evicted : Option Handle)
  | resized (old new : Handle) (bytes : Nat)
  | resizedUntracked (old : Handle) (bytes : Nat)
  | resizedToNothing (old : Handle)
  | notResized (old : Handle) (bytes : Nat)
  | releaseIgnored (block : Handle)
  | collected (drained : Nat)
  | exchanged (drained : Nat) (outgoing incoming : BackendNames)

namespace Notice

def level : Notice → Level
  | installed .. => .debug
  | noBlock .. => .debug
  | tracked .. => .trace
  | wrapped .. => .warn
  | resized .. => .trace
  | resizedUntracked .. => .debug
  | resizedToNothing .. => .trace
  | notResized .. => .debug
  | releaseIgnored .. => .debug
  | collected .. => .debug
  | exchanged .. => .info

def message : Notice → String
  | installed .. => "memory front end initialized"
  | noBlock .. => "backend returned no block"
  | tracked .. => "block tracked"
  | wrapped .. => "tracking table wrapped; older records left the window"
  | resized .. => "tracked block resized"
  | resizedUntracked .. => "untracked block resized"
  | resizedToNothing .. => "tracked block released by zero-byte resize"
  | notResized .. => "backend could not resize block"
  | releaseIgnored .. => "release of untracked handle ignored"
  | collected .. => "tracked allocations collected"
  | exchanged .. => "allocator backend swapped"

def fields : Notice → List (String × Json)
  | installed backend capacity => [("backend", .text backend), ("capacity", .number capacity)]
  | noBlock op bytes => [("op", .text op.name), ("bytes", .number bytes)]
  | tracked op bytes index block =>
    [("op", .text op.name), ("bytes", .number bytes), ("index", .number index), ("addr", .number block.addr)]
  | wrapped op capacity evicted =>
    [("op", .text op.name), ("capacity", .number capacity)]
      ++ (evicted.map fun h => ("evicted", Json.number h.addr)).toList
  | resized old new bytes => [("old", .number old.addr), ("new", .number new.addr), ("bytes", .number bytes)]
  | resizedUntracked old bytes => [("old", .number old.addr), ("bytes", .number bytes)]
  | resizedToNothing old => [("old", .number old.addr)]
  | notResized old bytes => [("old", .number old.addr), ("bytes", .number bytes)]
  | releaseIgnored block => [("addr", .number block.addr)]
  | collected drained => [("drained", .number drained)]
  | exchanged drained outgoing incoming =>
    [("drained", .number drained), ("from", .text outgoing.dump), ("to", .text incoming.dump)]

end Notice

end BlockTracker
