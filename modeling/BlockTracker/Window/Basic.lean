import BlockTracker.Handle
import BlockTracker.Text.Numeral

/-!
# The window of tracked blocks

A window keeps its entries in the first `count` of a fixed number of slots.  An erased entry trades places with the
last one, so the order is not kept.  When every slot is taken, the next entry overwrites the last slot, trades places
with the first and is the only entry of the window; the others stay in their slots but are out of reach until they
are overwritten.
-/

namespace BlockTracker

structure Window where
  slots : Array (Option Entry)
  count : Nat
  totalBytes : Nat
  wraps : Nat

/-- Where a new entry went: behind the others, or to the front of a window that started over. -/
inductive Placement
  | appended (index : Nat)
  | wrapped (evicted : Option Entry)
deriving DecidableEq

namespace Window

def create (capacity : Nat) : Window := ⟨.replicate capacity none, 0, 0, 0⟩

/-- Whether a table of this many slots, 16 bytes each, can be laid out in memory. -/
def fits (capacity : Nat) : Bool := capacity < Nat.pow 2 59

def capacity (w : Window) : Nat := w.slots.size

/-- The slots of the window itself. -/
def occupied (w : Window) : Array (Option Entry) := w.slots.take w.count

/-- The entries, in slot order. -/
def entries (w : Window) : List Entry := w.occupied.toList.filterMap id

/-- The handles of the entries, in slot order. -/
def handles (w : Window) : List Handle := w.entries.map (·.handle)

/-- The content of a slot, inside the window or not. -/
def slot (w : Window) (i : Nat) : Option Entry := w.slots[i]?.join

/-- Whether a slot holds an entry for `h`. -/
def holds (h : Handle) (slot : Option Entry) : Bool := slot.any fun e => e.handle = h

/-- The first of the `n` slots from `i` on that holds an entry for `h`. -/
def firstHolding (h : Handle) (slots : Array (Option Entry)) (i : Nat) : Nat → Option Nat
  | 0 => none
  | n + 1 => if holds h (slots.getD i none) then some i else firstHolding h slots (i + 1) n

/-- The index of the first entry for `h`. -/
def idxOf? (w : Window) (h : Handle) : Option Nat := firstHolding h w.slots 0 w.count

def contains (w : Window) (h : Handle) : Bool := (w.idxOf? h).isSome

/-- Takes a new entry in.  The bytes ever taken in stop at the largest word. -/
def push (w : Window) (e : Entry) : Placement × Window :=
  let total := min (w.totalBytes + e.size) (wordCount - 1)
  if w.count < w.capacity then
    (.appended w.count,
      { w with slots := w.slots.setIfInBounds w.count (some e), count := w.count + 1, totalBytes := total })
  else
    let last := w.capacity - 1
    (.wrapped (w.slot last),
      { slots := (w.slots.setIfInBounds last (some e)).swapIfInBounds 0 last, count := 1, totalBytes := total,
        wraps := w.wraps + 1 })

/-- Takes the first entry for `h` out; the last entry moves into its place. -/
def erase (w : Window) (h : Handle) : Option Entry × Window :=
  match w.idxOf? h with
  | none => (none, w)
  | some i =>
    let last := w.count - 1
    let slots := w.slots.swapIfInBounds i last
    (slots[last]?.join, { w with slots := slots.setIfInBounds last none, count := last })

/-- Puts `e` in the place of the first entry for `old`, and tells whether there was one. -/
def replace (w : Window) (old : Handle) (e : Entry) : Bool × Window :=
  match w.idxOf? old with
  | none => (false, w)
  | some i => (true, { w with slots := w.slots.setIfInBounds i (some e) })

/-- Empties the first `n` slots, from the last of them to the first. -/
def clearFirst (slots : Array (Option Entry)) : Nat → Array (Option Entry)
  | 0 => slots
  | n + 1 => clearFirst (slots.setIfInBounds n none) n

/-- Takes every entry out. -/
def clear (w : Window) : Window :=
  let ⟨slots, count, totalBytes, wraps⟩ := w
  ⟨clearFirst slots count, 0, totalBytes, wraps⟩

private theorem firstHolding_eq (h : Handle) (slots : Array (Option Entry)) (i n : Nat) :
    firstHolding h slots i n = (((slots.toList.drop i).take n).findIdx? (holds h)).map (· + i) := by
  induction n generalizing i with
  | zero => simp [firstHolding]
  | succ n ih =>
    by_cases hi : i < slots.size
    · have d : slots.toList.drop i = slots[i] :: slots.toList.drop (i + 1) := List.drop_eq_getElem_cons hi
      have e : slots.getD i none = slots[i] := by simp [Array.getD, hi]
      rw [firstHolding, ih, d, e, List.take_succ_cons, List.findIdx?_cons]
      split
      · simp
      · rw [Option.map_map]
        congr 1
        funext x
        simp only [Function.comp_apply]
        omega
    · have e : slots.toList.drop i = [] := List.drop_eq_nil_of_le (by simp; omega)
      have e' : slots.toList.drop (i + 1) = [] := List.drop_eq_nil_of_le (by simp; omega)
      have g : slots.getD i none = none := by simp [Array.getD, hi]
      simp [firstHolding, ih, e, e', g, holds]

/-- The index of the first entry for `h` among the occupied slots. -/
theorem idxOf?_eq_findIdx? (w : Window) (h : Handle) : w.idxOf? h = w.occupied.toList.findIdx? (holds h) := by
  simp [idxOf?, firstHolding_eq, occupied]

def dump (w : Window) : String :=
  Dump.record "TrackingTable"
    [("slots", Dump.list (w.slots.toList.map fun s => Dump.option (s.map (·.dump)))), ("count", w.count.repr),
     ("total_bytes_allocated", w.totalBytes.repr), ("wraparounds", w.wraps.repr)]

end Window

end BlockTracker
