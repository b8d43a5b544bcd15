import BlockTracker.Draining
import BlockTracker.Window.Lemmas

/-!
# Windows on a machine

On a machine a table is only reached inside its slots, and words hold the numbers below `2 ^ 64`.  The checked
operations do what the plain ones do, step by step, and break off with a `Fault` where a step leaves the table or the
words.  A well-formed window whose counters have room for one more gives no cause for a fault: each checked operation
comes out as the plain one (`checkedPush_eq`, `checkedErase_eq`, `checkedReplace_eq`, `checkedDrain_eq`).
-/

namespace BlockTracker

/-- Why a step breaks off: there is no such slot, or the number is no word. -/
inductive Fault
  | noSlot
  | belowZero
  | tooLarge
deriving DecidableEq, Repr

namespace Checked

def add (a b : Nat) : Except Fault Nat := if a + b < wordCount then .ok (a + b) else .error .tooLarge

def sub (a b : Nat) : Except Fault Nat := if b ≤ a then .ok (a - b) else .error .belowZero

def get (slots : Array (Option Entry)) (i : Nat) : Except Fault (Option Entry) :=
  if h : i < slots.size then .ok slots[i] else .error .noSlot

def set (slots : Array (Option Entry)) (i : Nat) (x : Option Entry) : Except Fault (Array (Option Entry)) :=
  if h : i < slots.size then .ok (slots.set i x) else .error .noSlot

def swap (slots : Array (Option Entry)) (i j : Nat) : Except Fault (Array (Option Entry)) :=
  if h : i < slots.size ∧ j < slots.size then .ok (slots.swap i j h.1 h.2) else .error .noSlot

/-- The first `n` slots. -/
def first (slots : Array (Option Entry)) (n : Nat) : Except Fault (List (Option Entry)) :=
  if n ≤ slots.size then .ok (slots.take n).toList else .error .noSlot

variable {a b i j n : Nat}

theorem ok_bind {α β : Type} (x : α) (f : α → Except Fault β) : (Except.ok x >>= f) = f x := rfl

theorem add_eq (h : a + b < wordCount) : add a b = .ok (a + b) := if_pos h

theorem sub_eq (h : b ≤ a) : sub a b = .ok (a - b) := if_pos h

theorem get_eq (slots : Array (Option Entry)) (h : i < slots.size) : get slots i = .ok slots[i]?.join := by
  rw [get, dif_pos h, Array.getElem?_eq_getElem h, Option.join_some]

theorem set_eq (slots : Array (Option Entry)) (h : i < slots.size) (x : Option Entry) :
    set slots i x = .ok (slots.setIfInBounds i x) := by
  rw [set, dif_pos h, Array.setIfInBounds_def, dif_pos h]

theorem swap_eq (slots : Array (Option Entry)) (hi : i < slots.size) (hj : j < slots.size) :
    swap slots i j = .ok (slots.swapIfInBounds i j) := by
  rw [swap, dif_pos ⟨hi, hj⟩, Array.swapIfInBounds_def, dif_pos hi, dif_pos hj]

theorem first_eq {slots : Array (Option Entry)} (h : n ≤ slots.size) : first slots n = .ok (slots.take n).toList :=
  if_pos h

end Checked

/-! ### Windows -/

namespace Window

variable {w : Window}

def checkedIdxOf (w : Window) (h : Handle) : Except Fault (Option Nat) := do
  let slots ← Checked.first w.slots w.count
  return slots.findIdx? (holds h)

def checkedPush (w : Window) (e : Entry) : Except Fault (Placement × Window) :=
  let totalBytes := min (w.totalBytes + e.size) (wordCount - 1)
  if w.count < w.capacity then do
    let slots ← Checked.set w.slots w.count (some e)
    let count ← Checked.add w.count 1
    return (.appended w.count, { w with slots, count, totalBytes })
  else do
    let last ← Checked.sub w.capacity 1
    let evicted ← Checked.get w.slots last
    let slots ← Checked.set w.slots last (some e)
    let slots ← Checked.swap slots 0 last
    let wraps ← Checked.add w.wraps 1
    return (.wrapped evicted, { slots, count := 1, totalBytes, wraps })

def checkedErase (w : Window) (h : Handle) : Except Fault (Option Entry × Window) := do
  match ← w.checkedIdxOf h with
  | none => return (none, w)
  | some i =>
    let last ← Checked.sub w.count 1
    let slots ← Checked.swap w.slots i last
    let e ← Checked.get slots last
    let slots ← Checked.set slots last none
    return (e, { w with slots, count := last })

def checkedReplace (w : Window) (old : Handle) (e : Entry) : Except Fault (Bool × Window) := do
  match ← w.checkedIdxOf old with
  | none => return (false, w)
  | some i =>
    let slots ← Checked.set w.slots i (some e)
    return (true, { w with slots })

namespace WellFormed

theorem checkedIdxOf_eq (hw : w.WellFormed) (h : Handle) : w.checkedIdxOf h = .ok (w.idxOf? h) := by
  rw [checkedIdxOf, Checked.first_eq hw.count_le, idxOf?_eq_findIdx?]
  rfl

theorem checkedPush_eq (hw : w.WellFormed) (hcount : w.count + 1 < wordCount) (hwraps : w.wraps + 1 < wordCount)
    (e : Entry) : w.checkedPush e = .ok (w.push e) := by
  have hpos := hw.capacity_pos
  by_cases hroom : w.count < w.capacity
  · simp only [checkedPush, Window.push, hroom, ↓reduceIte, Checked.set_eq w.slots hroom, Checked.add_eq hcount,
      Checked.ok_bind]
    rfl
  · have hlast : w.capacity - 1 < w.slots.size := Nat.sub_lt hpos Nat.one_pos
    have hsize : (w.slots.setIfInBounds (w.capacity - 1) (some e)).size = w.slots.size := Array.size_setIfInBounds
    have hswap : Checked.swap (w.slots.setIfInBounds (w.capacity - 1) (some e)) 0 (w.capacity - 1) =
        .ok ((w.slots.setIfInBounds (w.capacity - 1) (some e)).swapIfInBounds 0 (w.capacity - 1)) :=
      Checked.swap_eq _ (by omega) (by omega)
    simp only [checkedPush, Window.push, hroom, ↓reduceIte, Checked.sub_eq hpos, Checked.get_eq w.slots hlast,
      Checked.set_eq w.slots hlast, hswap, Checked.add_eq hwraps, Checked.ok_bind]
    rfl

/-- The index that is found lies in the window, so there is a last entry to take its place. -/
theorem checkedErase_eq (hw : w.WellFormed) (h : Handle) : w.checkedErase h = .ok (w.erase h) := by
  rw [checkedErase, hw.checkedIdxOf_eq, Checked.ok_bind]
  rcases hi : w.idxOf? h with _ | i
  · rw [erase_of_none hi]
    rfl
  · have hlt := hw.lt_of_idxOf? hi
    have hle := hw.count_le
    unfold capacity at hle
    have hlast : w.count - 1 < w.slots.size := by omega
    have hsub : Checked.sub w.count 1 = .ok (w.count - 1) := Checked.sub_eq (by omega)
    have hswap := Checked.swap_eq w.slots (by omega : i < w.slots.size) hlast
    rw [← Array.size_swapIfInBounds (i := i) (j := w.count - 1)] at hlast
    simp only [Window.erase, hi, hsub, hswap, Checked.get_eq _ hlast, Checked.set_eq _ hlast, Checked.ok_bind]
    rfl

theorem checkedReplace_eq (hw : w.WellFormed) (old : Handle) (e : Entry) :
    w.checkedReplace old e = .ok (w.replace old e) := by
  rw [checkedReplace, hw.checkedIdxOf_eq, Checked.ok_bind]
  rcases hi : w.idxOf? old with _ | i
  · rw [replace_of_none hi]
    rfl
  · have hlt : i < w.slots.size := Nat.lt_of_lt_of_le (hw.lt_of_idxOf? hi) hw.count_le
    simp only [Window.replace, hi, Checked.set_eq w.slots hlt, Checked.ok_bind]
    rfl

end WellFormed

end Window

/-! ### Blocks that go back -/

variable {B σ : Type}

namespace Routing

variable {bs : Backends B σ} {r : Routing B}

/-- The count of blocks goes up within the words; down, it stops at zero by itself. -/
def checkedLiveAfter (live : Nat) : Call → Option Handle → Except Fault Nat
  | .allocate _, some _ | .zeroAllocate _, some _ | .reallocate none _, some _ => Checked.add live 1
  | .release _, _ => .ok (live - 1)
  | _, _ => .ok live

def checkedCall (bs : Backends B σ) (r : Routing B) (c : Call) (s : σ) :
    Except Fault (Option Handle × Routing B × σ) := do
  let (answer, s) := bs.serve (r.target.get c.primitive) c s
  let live ← checkedLiveAfter r.live c answer
  return (answer, { r with live }, s)

/-- Releases the blocks in some slots one after the other; counts them on from `n`. -/
def checkedReleaseEach (bs : Backends B σ) : List (Option Entry) → Nat → Routing B → σ →
    Except Fault (Nat × Routing B × σ)
  | [], n, r, s => return (n, r, s)
  | none :: slots, n, r, s => checkedReleaseEach bs slots n r s
  | some e :: slots, n, r, s => do
    let (_, r, s) ← r.checkedCall bs (.release e.handle) s
    let n ← Checked.add n 1
    checkedReleaseEach bs slots n r s

theorem checkedLiveAfter_eq {live : Nat} (hlive : live + 1 < wordCount) (c : Call) (answer : Option Handle) :
    checkedLiveAfter live c answer = .ok (liveAfter live c answer) := by
  have hadd := Checked.add_eq hlive
  cases answer with
  | none => rcases c with _ | _ | ⟨_ | _, _⟩ | _ <;> rfl
  | some block =>
    cases c with
    | allocate bytes => exact hadd
    | zeroAllocate bytes => exact hadd
    | reallocate old bytes =>
      cases old with
      | none => exact hadd
      | some old => rfl
    | release h => rfl

theorem checkedCall_eq (hlive : r.live + 1 < wordCount) (c : Call) (s : σ) :
    r.checkedCall bs c s = .ok (r.call bs c s) := by
  simp only [checkedCall, checkedLiveAfter_eq hlive, Checked.ok_bind]
  rfl

/-- A release only counts down. -/
theorem checkedCall_release (bs : Backends B σ) (r : Routing B) (h : Handle) (s : σ) :
    r.checkedCall bs (.release h) s = .ok (r.call bs (.release h) s) := rfl

theorem checkedReleaseEach_eq (bs : Backends B σ) (slots : List (Option Entry)) {n : Nat}
    (hn : n + (slots.filterMap id).length < wordCount) (r : Routing B) (s : σ) :
    r.checkedReleaseEach bs slots n s =
      .ok (n + (slots.filterMap id).length, r.releaseAll bs ((slots.filterMap id).map (·.handle)) s) := by
  induction slots generalizing n r s with
  | nil => rfl
  | cons x slots ih =>
    rcases x with _ | e
    · exact ih hn r s
    · have hlen : ((some e :: slots).filterMap id).length = (slots.filterMap id).length + 1 := rfl
      rw [hlen] at hn
      have hadd := Checked.add_eq (a := n) (b := 1) (by omega)
      have hrest := ih (n := n + 1) (by omega) (r.call bs (.release e.handle) s).2.1
        (r.call bs (.release e.handle) s).2.2
      rw [checkedReleaseEach, checkedCall_release, Checked.ok_bind, hadd, hlen, ← Nat.add_assoc, Nat.add_right_comm]
      exact hrest

end Routing

namespace Window

variable {bs : Backends B σ} {w : Window}

def checkedUntrack (bs : Backends B σ) (w : Window) (h : Handle) (r : Routing B) (s : σ) :
    Except Fault (ReleaseOutcome × Window × Routing B × σ) := do
  match ← w.checkedErase h with
  | (none, w) => return (.untracked, w, r, s)
  | (some e, w) =>
    let (_, r, s) ← r.checkedCall bs (.release e.handle) s
    return (.released, w, r, s)

def checkedDrain (bs : Backends B σ) (w : Window) (r : Routing B) (s : σ) :
    Except Fault (Nat × Window × Routing B × σ) := do
  let slots ← Checked.first w.slots w.count
  let (n, r, s) ← r.checkedReleaseEach bs slots 0 s
  return (n, w.clear, r, s)

namespace WellFormed

theorem checkedUntrack_eq (hw : w.WellFormed) (h : Handle) (r : Routing B) (s : σ) :
    w.checkedUntrack bs h r s = .ok (w.untrack bs h r s) := by
  rw [checkedUntrack, hw.checkedErase_eq, Checked.ok_bind, untrack]
  rcases w.erase h with ⟨_ | e, w'⟩ <;> rfl

theorem checkedDrain_eq (hw : w.WellFormed) (hcount : w.count < wordCount) (r : Routing B) (s : σ) :
    w.checkedDrain bs r s = .ok (w.drain bs r s) := by
  have hlen : ((w.slots.take w.count).toList.filterMap id).length = w.count := hw.length_entries
  have heach := Routing.checkedReleaseEach_eq bs (w.slots.take w.count).toList (n := 0) (by omega) r s
  rw [checkedDrain, Checked.first_eq hw.count_le, Checked.ok_bind, heach, Checked.ok_bind, Nat.zero_add,
    ← List.length_map (·.handle)]
  rfl

end WellFormed

end Window

end BlockTracker
