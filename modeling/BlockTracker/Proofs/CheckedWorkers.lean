import BlockTracker.Proofs.CheckedWindow
import BlockTracker.Proofs.Workers
import BlockTracker.Workload.Run

/-!
# Workers on a machine

A worker is served by anything that answers its requests (`Server`); a tracker is one way to serve it (`drive_eq_work`).
Here its work is told once more as a loop over its allocations that keeps a record of every round.  The loop is checked:
it counts in words, and it breaks off where a difference, a remainder or a block that it asks for does not exist.
Whatever the answers are, a round comes to its end (`checkedRound_spec`).  It is a `Step` from the stock of the worker
to the next stock, and the worker itself makes the same step.
-/

namespace BlockTracker

/-- Whatever answers the requests of a worker, and what becomes of it. -/
structure Server (τ : Type) where
  allocate : Nat → τ → Except Failure Handle × τ
  zeroAllocate : Nat → τ → Except Failure Handle × τ
  release : Handle → τ → ReleaseOutcome × τ

/-- A tracker on given backends serves its workers. -/
def Server.ofTracker {B σ : Type} (bs : Backends B σ) : Server (Tracker B × σ) where
  allocate bytes s :=
    let o := s.1.allocate bs bytes s.2
    (o.value, o.tracker, o.state)
  zeroAllocate bytes s :=
    let o := s.1.zeroAllocate bs bytes s.2
    (o.value, o.tracker, o.state)
  release block s :=
    let o := s.1.release bs block s.2
    (o.value, o.tracker, o.state)

variable {τ : Type}

namespace Worker

/-- Lets a worker work until it is done. -/
def work (sv : Server τ) (w : Worker) (s : τ) : Worker × τ :=
  match _h : w.request with
  | none => (w, s)
  | some (.allocate bytes) => work sv (w.received (sv.allocate bytes s).1) (sv.allocate bytes s).2
  | some (.zeroAllocate bytes) => work sv (w.received (sv.zeroAllocate bytes s).1) (sv.zeroAllocate bytes s).2
  | some (.release block) => work sv (w.returned (sv.release block s).1) (sv.release block s).2
termination_by w.measure
decreasing_by
  · have := w.measure_received (sv.allocate bytes s).1
    simp only [measure, _h] at this ⊢
    omega
  · have := w.measure_received (sv.zeroAllocate bytes s).1
    simp only [measure, _h] at this ⊢
    omega
  · have := w.measure_returned (sv.release block s).1
    simp only [measure, _h] at this ⊢
    omega

theorem work_eq (sv : Server τ) (w : Worker) (s : τ) :
    work sv w s =
      match w.request with
      | none => (w, s)
      | some (.allocate bytes) => work sv (w.received (sv.allocate bytes s).1) (sv.allocate bytes s).2
      | some (.zeroAllocate bytes) => work sv (w.received (sv.zeroAllocate bytes s).1) (sv.zeroAllocate bytes s).2
      | some (.release block) => work sv (w.returned (sv.release block s).1) (sv.release block s).2 := by
  rw [work]
  split
  all_goals next h => rw [h]

/-- A worker that has come to its end still accounts for everything. -/
theorem balanced_work {w : Worker} (sv : Server τ) (hw : w.Balanced) (s : τ) :
    (work sv w s).1.Balanced ∧ (work sv w s).1.request = none := by
  fun_induction work sv w s with
  | case1 w s h => exact ⟨hw, h⟩
  | case2 w s bytes h ih => exact ih (balanced_received hw (by rw [awaited, h]) _).1
  | case3 w s bytes h ih => exact ih (balanced_received hw (by rw [awaited, h]) _).1
  | case4 w s block h ih => exact ih (balanced_returned hw h _).1

end Worker

/-- The workers of a workload are served by its tracker. -/
theorem Workload.drive_eq_work {B σ : Type} (bs : Backends B σ) (w : Worker) (t : Tracker B) (s : σ) :
    drive bs w t s = w.work (.ofTracker bs) (t, s) := by
  fun_induction drive bs w t s with
  | case1 w t s h => rw [Worker.work_eq, h]
  | case2 w t s bytes h result _ t' s' ho ih =>
    have hs : (Server.ofTracker bs).allocate bytes (t, s) = (result, t', s') := by simp only [Server.ofTracker, ho]
    rw [ih, Worker.work_eq _ w]
    simp only [h, hs]
  | case3 w t s bytes h result _ t' s' ho ih =>
    have hs : (Server.ofTracker bs).zeroAllocate bytes (t, s) = (result, t', s') := by simp only [Server.ofTracker, ho]
    rw [ih, Worker.work_eq _ w]
    simp only [h, hs]
  | case4 w t s block h outcome _ t' s' ho ih =>
    have hs : (Server.ofTracker bs).release block (t, s) = (outcome, t', s') := by simp only [Server.ofTracker, ho]
    rw [ih, Worker.work_eq _ w]
    simp only [h, hs]

/-! ### Checked steps -/

namespace Checked

/-- A remainder is below its divisor; with the divisor 0 it would have to be below zero. -/
def mod (a b : Nat) : Except Fault Nat := if 0 < b then .ok (a % b) else .error .belowZero

/-- Takes the element at an index out of an array. -/
def swapRemove {α : Type} (xs : Array α) (i : Nat) : Except Fault (α × Array α) :=
  if h : i < xs.size then .ok (xs[i], Worker.swapRemove xs i) else .error .noSlot

/-- A number from `low` to `high`. -/
def range (g : Xorshift) (low high : Nat) : Except Fault (Nat × Xorshift) := do
  let width ← sub high low
  let span ← add width 1
  let offset ← mod g.next.1.toNat span
  let n ← add low offset
  return (n, g.next.2)

theorem mod_eq {a b : Nat} (h : 0 < b) : mod a b = .ok (a % b) := if_pos h

theorem range_eq (g : Xorshift) {low high : Nat} (h : low ≤ high) (hhigh : high + 1 < wordCount) :
    range g low high = .ok (g.range low high) := by
  have hle := g.range_le h
  have hvalue : low + g.next.1.toNat % (high - low + 1) = (g.range low high).1 := rfl
  have hspan : add (high - low) 1 = .ok (high - low + 1) := add_eq (by omega)
  have hoffset : mod g.next.1.toNat (high - low + 1) = .ok (g.next.1.toNat % (high - low + 1)) :=
    mod_eq (Nat.succ_pos _)
  have hsum : add low (g.next.1.toNat % (high - low + 1)) = .ok (g.range low high).1 := add_eq (by omega)
  have hnext : g.next.2 = (g.range low high).2 := rfl
  rw [range, sub_eq h, ok_bind, hspan, ok_bind, hoffset, ok_bind, hsum, ok_bind, hnext]
  rfl

end Checked

/-! ### Rounds -/

/-- What a worker has at hand between two allocations. -/
structure Stock where
  random : Xorshift
  tally : WorkerTally
  held : Array Handle

/-- A block that was given back, and its index among so many held blocks. -/
structure Release where
  index : Nat
  among : Nat
  block : Handle
  outcome : ReleaseOutcome

/-- An allocation, and the release that followed it. -/
structure Round where
  bytes : Nat
  zeroed : Bool
  result : Except Failure Handle
  release : Option Release

namespace Stock

/-- The worker with this stock that has `left` allocations to turn to. -/
def worker (k : Stock) (allocs every left : Nat) : Worker := ⟨k.random, allocs, every, left, none, k.tally, k.held⟩

/-- The stock that a worker starts with. -/
def initial (seed : UInt64) : Stock := ⟨.seeded seed, ⟨0, 0, 0, 0⟩, #[]⟩

/-- The size that is asked for next. -/
def size (k : Stock) : Nat × Xorshift := k.random.range 1 Worker.maxBytes

/-- The number that decides on zeroing. -/
def choice (k : Stock) : UInt64 × Xorshift := k.size.2.next

/-- Whether the next block is to be zeroed. -/
def zeroed (k : Stock) : Bool := k.choice.1 % 4 = 0

/-- The stock behind the answer to the allocation. -/
def note (k : Stock) : Except Failure Handle → Stock
  | .ok h => ⟨k.choice.2, { k.tally with allocations := k.tally.allocations + 1 }, k.held.push h⟩
  | .error _ => ⟨k.choice.2, { k.tally with failed := k.tally.failed + 1 }, k.held⟩

/-- Whether a release is due behind the allocation number `i`. -/
def due (k : Stock) (every i : Nat) : Bool := 0 < every && (i + 1) % every = 0 && 0 < k.held.size

/-- The index of the held block that is given back. -/
def index (k : Stock) : Nat × Xorshift := k.random.range 0 (k.held.size - 1)

/-- A tally behind a release. -/
def count (tally : WorkerTally) : ReleaseOutcome → WorkerTally
  | .released => { tally with releases := tally.releases + 1 }
  | .untracked => { tally with untracked := tally.untracked + 1 }

/-- The stock behind the release. -/
def give (k : Stock) (outcome : ReleaseOutcome) : Stock :=
  ⟨k.index.2, count k.tally outcome, Worker.swapRemove k.held k.index.1⟩

def checkedNote (k : Stock) : Except Failure Handle → Except Fault Stock
  | .ok h => do
    let allocations ← Checked.add k.tally.allocations 1
    return { k with tally := { k.tally with allocations }, held := k.held.push h }
  | .error _ => do
    let failed ← Checked.add k.tally.failed 1
    return { k with tally := { k.tally with failed } }

def checkedDue (k : Stock) (every i : Nat) : Except Fault Bool :=
  if 0 < every then do
    let rest ← Checked.mod (← Checked.add i 1) every
    return rest = 0 && 0 < k.held.size
  else return false

def checkedCount (tally : WorkerTally) : ReleaseOutcome → Except Fault WorkerTally
  | .released => return { tally with releases := ← Checked.add tally.releases 1 }
  | .untracked => return { tally with untracked := ← Checked.add tally.untracked 1 }

def checkedGive (sv : Server τ) (k : Stock) (s : τ) : Except Fault (Release × Stock × τ) := do
  let index ← Checked.range k.random 0 (← Checked.sub k.held.size 1)
  let block ← Checked.swapRemove k.held index.1
  let answer := sv.release block.1 s
  let tally ← checkedCount k.tally answer.1
  return (⟨index.1, k.held.size, block.1, answer.1⟩, ⟨index.2, tally, block.2⟩, answer.2)

/-- The allocation number `i` and the release behind it, if there is to be one. -/
def checkedRound (sv : Server τ) (every i : Nat) (k : Stock) (s : τ) : Except Fault (Round × Stock × τ) := do
  let bytes ← Checked.range k.random 1 Worker.maxBytes
  let choice := bytes.2.next
  let answer := if choice.1 % 4 = 0 then sv.zeroAllocate bytes.1 s else sv.allocate bytes.1 s
  let k ← { k with random := choice.2 }.checkedNote answer.1
  if ← k.checkedDue every i then
    let given ← k.checkedGive sv answer.2
    return (⟨bytes.1, choice.1 % 4 = 0, answer.1, some given.1⟩, given.2)
  else return (⟨bytes.1, choice.1 % 4 = 0, answer.1, none⟩, k, answer.2)

/-- The rounds from the allocation number `i` on. -/
def checkedRounds (sv : Server τ) (every : Nat) : Nat → Nat → Stock → τ → Except Fault (List Round × Stock × τ)
  | _, 0, k, s => return ([], k, s)
  | i, n + 1, k, s => do
    let round ← k.checkedRound sv every i s
    let rest ← checkedRounds sv every (i + 1) n round.2.1 round.2.2
    return (round.1 :: rest.1, rest.2)

/-- What a round makes of a stock. -/
inductive Step (every i : Nat) (k : Stock) : Round → Stock → Prop
  | keep (result : Except Failure Handle) (h : (k.note result).due every i = false) :
    Step every i k ⟨k.size.1, k.zeroed, result, none⟩ (k.note result)
  | give (result : Except Failure Handle) (outcome : ReleaseOutcome) {block : Handle}
    (h : (k.note result).due every i = true) (hblock : (k.note result).held[(k.note result).index.1]? = some block) :
    Step every i k
      ⟨k.size.1, k.zeroed, result, some ⟨(k.note result).index.1, (k.note result).held.size, block, outcome⟩⟩
      ((k.note result).give outcome)

/-- The rounds from the allocation number `i` on, one step after the other. -/
inductive Steps (every : Nat) : Nat → Stock → List Round → Stock → Prop
  | nil (i : Nat) (k : Stock) : Steps every i k [] k
  | cons {i : Nat} {k k₁ k' : Stock} {r : Round} {log : List Round} (hr : k.Step every i r k₁)
    (hlog : Steps every (i + 1) k₁ log k') : Steps every i k (r :: log) k'

/-! ### Counters -/

/-- The stock behind `i` allocations accounts for all of them. -/
structure Within (k : Stock) (i : Nat) : Prop where
  answered_eq : k.tally.allocations + k.tally.failed = i
  held_eq : k.tally.allocations = k.tally.releases + k.tally.untracked + k.held.size

variable {k k' : Stock} {r : Round} {log : List Round} {every i : Nat}

theorem Within.note (hk : k.Within i) (result : Except Failure Handle) : (k.note result).Within (i + 1) := by
  obtain ⟨hanswered, hheld⟩ := hk
  cases result with
  | ok h => exact ⟨by simp only [Stock.note]; omega, by simp only [Stock.note, Array.size_push]; omega⟩
  | error f => exact ⟨by simp only [Stock.note]; omega, hheld⟩

theorem size_give (k : Stock) (outcome : ReleaseOutcome) : (k.give outcome).held.size = k.held.size - 1 := by
  simp only [give, Worker.swapRemove, Array.size_pop, Array.size_swapIfInBounds]

theorem Within.give (hk : k.Within i) (hpos : 0 < k.held.size) (outcome : ReleaseOutcome) :
    (k.give outcome).Within i := by
  have hsize := size_give k outcome
  obtain ⟨hanswered, hheld⟩ := hk
  cases outcome with
  | released => exact ⟨hanswered, by simp only [Stock.give, count] at hsize ⊢; omega⟩
  | untracked => exact ⟨hanswered, by simp only [Stock.give, count] at hsize ⊢; omega⟩

theorem size_pos_of_due (h : k.due every i = true) : 0 < k.held.size := by
  simp only [due, Bool.and_eq_true, decide_eq_true_eq] at h
  exact h.2

theorem Step.within (hr : k.Step every i r k') (hk : k.Within i) : k'.Within (i + 1) := by
  cases hr with
  | keep result h => exact hk.note result
  | give result outcome h hblock => exact (hk.note result).give (size_pos_of_due h) outcome

theorem index_lt (hpos : 0 < k.held.size) : k.index.1 < k.held.size := by
  have := k.random.range_le (Nat.zero_le (k.held.size - 1))
  unfold index
  omega

/-! ### Every round comes to its end -/

theorem checkedNote_eq (hk : k.Within i) (hi : i + 1 < wordCount) (result : Except Failure Handle) :
    { k with random := k.choice.2 }.checkedNote result = .ok (k.note result) := by
  have hanswered := hk.answered_eq
  have hadd {n : Nat} (hn : n ≤ i) : Checked.add n 1 = .ok (n + 1) := Checked.add_eq (by omega)
  cases result with
  | ok h =>
    simp only [checkedNote, hadd (by omega : k.tally.allocations ≤ i), Checked.ok_bind]
    rfl
  | error f =>
    simp only [checkedNote, hadd (by omega : k.tally.failed ≤ i), Checked.ok_bind]
    rfl

theorem checkedDue_eq (hi : i + 1 < wordCount) (k : Stock) (every : Nat) :
    k.checkedDue every i = .ok (k.due every i) := by
  unfold checkedDue due
  by_cases h : 0 < every
  · simp only [h, ↓reduceIte, Checked.add_eq hi, Checked.mod_eq h, Checked.ok_bind, decide_true, Bool.true_and]
    rfl
  · simp only [h, ↓reduceIte, decide_false, Bool.false_and]
    rfl

theorem checkedCount_eq {tally : WorkerTally} (h : tally.releases + tally.untracked + 1 < wordCount)
    (outcome : ReleaseOutcome) : checkedCount tally outcome = .ok (count tally outcome) := by
  cases outcome with
  | released => rw [checkedCount, Checked.add_eq (by omega)]; rfl
  | untracked => rw [checkedCount, Checked.add_eq (by omega)]; rfl

theorem checkedGive_eq (sv : Server τ) (hk : k.Within i) (hi : i < wordCount) (hpos : 0 < k.held.size) (s : τ) :
    ∃ block, k.held[k.index.1]? = some block ∧
      let answer := sv.release block s
      k.checkedGive sv s = .ok (⟨k.index.1, k.held.size, block, answer.1⟩, k.give answer.1, answer.2) := by
  obtain ⟨hanswered, hheld⟩ := hk
  have hlt := index_lt hpos
  refine ⟨k.held[k.index.1], Array.getElem?_eq_getElem hlt, ?_⟩
  have hrange : Checked.range k.random 0 (k.held.size - 1) = .ok k.index :=
    Checked.range_eq k.random (Nat.zero_le _) (by omega)
  have hswap : Checked.swapRemove k.held k.index.1 = .ok (k.held[k.index.1], Worker.swapRemove k.held k.index.1) :=
    dif_pos hlt
  have hcount (outcome : ReleaseOutcome) : checkedCount k.tally outcome = .ok (count k.tally outcome) :=
    checkedCount_eq (by omega) outcome
  rw [checkedGive, Checked.sub_eq hpos, Checked.ok_bind, hrange, Checked.ok_bind, hswap, Checked.ok_bind]
  simp only [hcount, Checked.ok_bind]
  rfl

/-! ### The worker makes the same step -/

variable {allocs left : Nat}

theorem ask_worker (k : Stock) (allocs every left : Nat) :
    (k.worker allocs every (left + 1)).ask =
      { k.worker allocs every left with
        random := k.choice.2
        request := some (if k.choice.1 % 4 = 0 then .zeroAllocate k.size.1 else .allocate k.size.1) } :=
  if_neg (Nat.succ_ne_zero left)

/-- What a worker turns to does not hang on the request that was answered. -/
theorem ask_request (w : Worker) (request : Option WorkerRequest) : { w with request }.ask = w.ask := rfl

theorem proceed_request (w : Worker) (request : Option WorkerRequest) :
    { w with request }.proceed = if w.releaseDue then w.giveOne else w.ask := by
  have hdue : { w with request }.releaseDue = w.releaseDue := rfl
  have hgive (v : Worker) (j : Nat) : { v with request }.give j = v.give j := rfl
  have hgiveOne : { w with request }.giveOne = w.giveOne :=
    hgive { w with random := (w.random.range 0 (w.held.size - 1)).2 } _
  rw [Worker.proceed, hdue, ask_request, hgiveOne]

theorem releaseDue_worker (k : Stock) (hleft : i + left + 1 = allocs) :
    (k.worker allocs every left).releaseDue = k.due every i := by
  have hi : allocs - left = i + 1 := by omega
  rw [Worker.releaseDue, due, ← hi, worker]

/-- The answer to an allocation. -/
theorem received_worker (k : Stock) (hleft : i + left + 1 = allocs) (result : Except Failure Handle) :
    (k.worker allocs every (left + 1)).ask.received result =
      let w := (k.note result).worker allocs every left
      if (k.note result).due every i then w.giveOne else w.ask := by
  have hnote : ∃ request, (k.worker allocs every (left + 1)).ask.note result =
      { (k.note result).worker allocs every left with request } := by
    rw [ask_worker]
    cases result <;> exact ⟨_, rfl⟩
  obtain ⟨request, hnote⟩ := hnote
  rw [Worker.received, hnote, proceed_request, releaseDue_worker (k.note result) hleft]

theorem give_eq {w : Worker} {j : Nat} {block : Handle} (h : w.held[j]? = some block) :
    w.give j = { w with held := Worker.swapRemove w.held j, request := some (.release block) } := by
  simp only [Worker.give, h]

/-- The release that follows. -/
theorem giveOne_worker {block : Handle} (hblock : k.held[k.index.1]? = some block) :
    let w := (k.worker allocs every left).giveOne
    w.request = some (.release block) ∧
      ∀ outcome, w.returned outcome = ((k.give outcome).worker allocs every left).ask := by
  have hgive : (k.worker allocs every left).giveOne =
      { k.worker allocs every left with
        random := k.index.2, held := Worker.swapRemove k.held k.index.1, request := some (.release block) } :=
    give_eq hblock
  rw [hgive]
  refine ⟨rfl, fun outcome => ?_⟩
  rw [← ask_request _ (some (.release block))]
  cases outcome <;> rfl

/-- The answer to the next allocation, and what becomes of the server. -/
def answer (sv : Server τ) (k : Stock) (s : τ) : Except Failure Handle × τ :=
  if k.choice.1 % 4 = 0 then sv.zeroAllocate k.size.1 s else sv.allocate k.size.1 s

theorem work_ask_worker (sv : Server τ) (k : Stock) (hleft : i + left + 1 = allocs) (s : τ) :
    (k.worker allocs every (left + 1)).ask.work sv s =
      (if (k.note (k.answer sv s).1).due every i then ((k.note (k.answer sv s).1).worker allocs every left).giveOne
        else ((k.note (k.answer sv s).1).worker allocs every left).ask).work sv (k.answer sv s).2 := by
  rw [← received_worker k hleft, Worker.work_eq]
  have hrequest : (k.worker allocs every (left + 1)).ask.request =
      some (if k.choice.1 % 4 = 0 then .zeroAllocate k.size.1 else .allocate k.size.1) := by rw [ask_worker]
  rw [hrequest, answer]
  by_cases hzero : k.choice.1 % 4 = 0
  · simp only [hzero, ↓reduceIte]
  · simp only [hzero, ↓reduceIte]

/-- A round is a step of the stock, and the worker that is served alike makes the same step. -/
theorem checkedRound_spec (sv : Server τ) (hk : k.Within i) (hi : i + 1 < wordCount) (every : Nat) (s : τ) :
    ∃ r k' s', k.checkedRound sv every i s = .ok (r, k', s') ∧ k.Step every i r k' ∧
      ∀ {allocs left}, i + left + 1 = allocs →
        (k.worker allocs every (left + 1)).ask.work sv s = (k'.worker allocs every left).ask.work sv s' := by
  have hsize : Checked.range k.random 1 Worker.maxBytes = .ok k.size := Checked.range_eq _ (by decide) (by decide)
  have hchoice : k.size.2.next = k.choice := rfl
  have hanswer :
      (if k.choice.1 % 4 = 0 then sv.zeroAllocate k.size.1 s else sv.allocate k.size.1 s) = k.answer sv s := rfl
  rw [checkedRound, hsize, Checked.ok_bind]
  simp only [hchoice, hanswer, checkedNote_eq hk hi, checkedDue_eq hi, Checked.ok_bind]
  have hm := hk.note (k.answer sv s).1
  by_cases hdue : (k.note (k.answer sv s).1).due every i = true
  · obtain ⟨block, hblock, hgive⟩ := checkedGive_eq sv hm hi (size_pos_of_due hdue) (k.answer sv s).2
    simp only [hdue, ↓reduceIte, hgive, Checked.ok_bind]
    refine ⟨_, _, _, rfl, .give _ _ hdue hblock, fun hleft => ?_⟩
    obtain ⟨hrequest, hreturned⟩ := giveOne_worker hblock
    rw [work_ask_worker sv k hleft, if_pos hdue, Worker.work_eq, hrequest]
    simp only [hreturned]
  · simp only [hdue]
    refine ⟨_, _, _, rfl, .keep _ (Bool.eq_false_iff.2 hdue), fun hleft => ?_⟩
    rw [work_ask_worker sv k hleft, if_neg hdue]

theorem checkedRounds_spec (sv : Server τ) (every n : Nat) (hk : k.Within i) (hi : i + n < wordCount) (s : τ) :
    ∃ log k' s', checkedRounds sv every i n k s = .ok (log, k', s') ∧ Steps every i k log k' ∧ log.length = n ∧
      ∀ {allocs}, i + n = allocs → (k.worker allocs every n).ask.work sv s = (k'.worker allocs every 0, s') := by
  induction n generalizing i k s with
  | zero =>
    refine ⟨[], k, s, rfl, .nil i k, rfl, fun _ => ?_⟩
    rw [Worker.work_eq]
    rfl
  | succ n ih =>
    obtain ⟨r, k₁, s₁, hround, hstep, hwork⟩ := checkedRound_spec sv hk (by omega) every s
    obtain ⟨log, k', s', hrounds, hsteps, hlength, hrest⟩ := ih (hstep.within hk) (by omega) s₁
    refine ⟨r :: log, k', s', ?_, .cons hstep hsteps, congrArg (· + 1) hlength, fun hallocs => ?_⟩
    · rw [checkedRounds, hround, Checked.ok_bind, hrounds, Checked.ok_bind]
      rfl
    · rw [hwork (by omega), hrest (by omega)]

end Stock

end BlockTracker
