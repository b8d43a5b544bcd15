import BlockTracker.Proofs.Accounting
import BlockTracker.Proofs.CheckedWindow

/-!
# Trackers on a machine

A checked tracker works on a checked window and counts in words.  No counter can outgrow the number of operations: the
blocks that are live and the blocks that were drained have all been handed out, one by an operation (`Within`).  So
within `2 ^ 64` operations no step leaves the table or the words, and the run of a checked tracker is the plain one
(`run_without_fault`).
-/

namespace BlockTracker

variable {B σ : Type}

namespace Tracker

/-! ### Checked operations -/

def checkedTakeIn (t : Tracker B) (op : Primitive) (bytes : Nat) (answer : Option Handle) (s : σ) :
    Except Fault (Outcome B σ (Except Failure Handle)) := do
  match answer with
  | none =>
    return { value := .error (.outOfMemory bytes), notice := some (.noBlock op bytes), tracker := t, state := s }
  | some block =>
    match ← t.window.checkedPush ⟨block, bytes⟩ with
    | (.appended index, window) =>
      return {
        value := .ok block
        notice := some (.tracked op bytes index block)
        tracker := { t with window }
        state := s }
    | (.wrapped evicted, window) =>
      return {
        value := .ok block
        notice := some (.wrapped op window.capacity (evicted.map (·.handle)))
        tracker := { t with window }
        state := s }

def checkedRequest (bs : Backends B σ) (t : Tracker B) (c : Call) (s : σ) :
    Except Fault (Outcome B σ (Except Failure Handle)) := do
  let (answer, routing, s) ← (t.routing bs).checkedCall bs c s
  checkedTakeIn { t with selection := t.selection.use routing } c.primitive c.bytes answer s

def checkedMoved (t : Tracker B) (old new : Handle) (bytes : Nat) (s : σ) :
    Except Fault (Outcome B σ (Except Failure Handle)) := do
  let (known, window) ← t.window.checkedReplace old ⟨new, bytes⟩
  return {
    value := .ok new
    notice := some (if known then .resized old new bytes else .resizedUntracked old bytes)
    tracker := { t with window }
    state := s }

def checkedVanished (bs : Backends B σ) (t : Tracker B) (old : Handle) (s : σ) :
    Except Fault (Outcome B σ (Except Failure Handle)) := do
  let failed : Except Failure Handle := .error (.outOfMemory 0)
  match ← t.window.checkedErase old with
  | (none, _) => return { value := failed, notice := some (.notResized old 0), tracker := t, state := s }
  | (some _, window) =>
    let selection := t.selection.use (t.routing bs).forget
    return {
      value := failed
      notice := some (.resizedToNothing old)
      tracker := { t with selection, window }
      state := s }

def checkedResize (bs : Backends B σ) (t : Tracker B) (old : Handle) (bytes : Nat) (s : σ) :
    Except Fault (Outcome B σ (Except Failure Handle)) := do
  let (answer, routing, s) ← (t.routing bs).checkedCall bs (.reallocate (some old) bytes) s
  let t := { t with selection := t.selection.use routing }
  match answer with
  | some new => t.checkedMoved old new bytes s
  | none =>
    if bytes = 0 then t.checkedVanished bs old s
    else
      return {
        value := .error (.outOfMemory bytes), notice := some (.notResized old bytes), tracker := t, state := s }

def checkedRelease (bs : Backends B σ) (t : Tracker B) (h : Handle) (s : σ) :
    Except Fault (Outcome B σ ReleaseOutcome) := do
  match ← t.window.checkedUntrack bs h (t.routing bs) s with
  | (.released, window, routing, s) =>
    return {
      value := .released
      notice := none
      tracker := { t with selection := t.selection.use routing, window }
      state := s }
  | (.untracked, window, routing, s) =>
    let untrackedReleases ← Checked.add t.untrackedReleases 1
    return {
      value := .untracked
      notice := some (.releaseIgnored h)
      tracker := { t with selection := t.selection.use routing, window, untrackedReleases }
      state := s }

def checkedCollect (bs : Backends B σ) (t : Tracker B) (s : σ) : Except Fault (Outcome B σ Nat) := do
  let (n, window, routing, s) ← t.window.checkedDrain bs (t.routing bs) s
  let drainedTotal ← Checked.add t.drainedTotal n
  return {
    value := n
    notice := some (.collected n)
    tracker := { t with selection := t.selection.use routing, window, drainedTotal }
    state := s }

def checkedExchange (bs : Backends B σ) (t : Tracker B) (o : Override B) (s : σ) : Except Fault (Outcome B σ Nat) := do
  let outgoing := t.routing bs
  let (n, window, routing, s) ← t.window.checkedDrain bs outgoing s
  let incoming := routing.override o
  let drainedTotal ← Checked.add t.drainedTotal n
  let swaps ← Checked.add t.swaps 1
  return {
    value := n
    notice := some (.exchanged n (outgoing.names bs) (incoming.names bs))
    tracker := { t with selection := t.selection.use incoming, window, drainedTotal, swaps }
    state := s }

def checkedIsTracked (t : Tracker B) (h : Handle) : Except Fault Bool := do
  let i ← t.window.checkedIdxOf h
  return i.isSome

def checkedPerform (bs : Backends B σ) (t : Tracker B) (op : Operation B) (s : σ) :
    Except Fault (Outcome B σ Answer) :=
  match op with
  | .install => return (t.install bs s).map .flag
  | .allocate bytes => return (← t.checkedRequest bs (.allocate bytes) s).map .block
  | .zeroAllocate bytes => return (← t.checkedRequest bs (.zeroAllocate bytes) s).map .block
  | .reallocate none bytes => return (← t.checkedRequest bs (.reallocate none bytes) s).map .block
  | .reallocate (some old) bytes => return (← t.checkedResize bs old bytes s).map .block
  | .release h => return (← t.checkedRelease bs h s).map .release
  | .collect => return (← t.checkedCollect bs s).map .count
  | .exchange o => return (← t.checkedExchange bs o s).map .count
  | .liveCount => return (t.liveCount bs s).map .count
  | .isTracked h => return ⟨.flag (← t.checkedIsTracked h), none, t, s⟩
  | .stats => return (t.stats bs s).map .stats

def checkedRun (bs : Backends B σ) (t : Tracker B) : List (Operation B) → σ →
    Except Fault (List (Outcome B σ Answer))
  | [], _ => return []
  | op :: ops, s => do
    let o ← t.checkedPerform bs op s
    let os ← o.tracker.checkedRun bs ops o.state
    return o :: os

/-! ### Counters -/

variable {bs : Backends B σ} {t : Tracker B} {n : Nat}

/-- What a tracker can have counted in `n` operations. -/
structure Within (bs : Backends B σ) (t : Tracker B) (n : Nat) : Prop where
  wellFormed : t.window.WellFormed
  balanced : (t.ledger bs).Balanced
  /-- Every block that is live or was drained has been handed out. -/
  blocks_le : (t.routing bs).live + t.drainedTotal ≤ n
  untracked_le : t.untrackedReleases ≤ n
  swaps_le : t.swaps ≤ n

namespace Within

theorem live_eq (ht : t.Within bs n) : (t.routing bs).live = t.window.count + t.window.capacity * t.window.wraps := by
  have h := ht.balanced.live_eq
  have hlen := ht.wellFormed.length_entries
  change (t.routing bs).live = t.window.entries.length + t.window.capacity * t.window.wraps at h
  omega

theorem count_le (ht : t.Within bs n) : t.window.count + t.drainedTotal ≤ n := by
  have h := ht.live_eq
  have hle := ht.blocks_le
  omega

/-- A window starts over with as many blocks left behind as it has slots, at least one. -/
theorem wraps_le (ht : t.Within bs n) : t.window.wraps ≤ n := by
  have h := ht.live_eq
  have hle := ht.blocks_le
  have hpos : t.window.wraps ≤ t.window.capacity * t.window.wraps :=
    Nat.le_mul_of_pos_left _ ht.wellFormed.capacity_pos
  omega

/-- An operation hands out one block at most; what it drains it takes back. -/
theorem perform (ht : t.Within bs n) (op : Operation B) (s : σ) : (t.perform bs op s).tracker.Within bs (n + 1) := by
  obtain ⟨-, hlive, hdrained, -⟩ := step_balance ht.wellFormed ht.balanced op s
  let x : Step B σ := ⟨t, op, t.perform bs op s⟩
  have hback : x.takenBack = x.released.toNat + x.drained + x.dropped := rfl
  have hone : x.obtained.toNat ≤ 1 := Bool.toNat_le _
  change ((t.perform bs op s).tracker.routing bs).live + x.takenBack = (t.routing bs).live + x.obtained.toNat at hlive
  change (t.perform bs op s).tracker.drainedTotal = t.drainedTotal + x.drained at hdrained
  have hblocks := ht.blocks_le
  obtain ⟨huntracked, hswaps⟩ := (t.ledger bs).tolls_update_le op
    (bs.serveAll (t.ledger bs).target ((t.ledger bs).calls op) s).1
  rw [← (perform_spec bs ht.wellFormed op s).2.1] at huntracked hswaps
  exact {
    wellFormed := wellFormed_perform ht.wellFormed op s
    balanced := balanced_perform ht.wellFormed ht.balanced op s
    blocks_le := by omega
    untracked_le := Nat.le_trans huntracked (Nat.succ_le_succ ht.untracked_le)
    swaps_le := Nat.le_trans hswaps (Nat.succ_le_succ ht.swaps_le) }

theorem create (bs : Backends B σ) (st : Settings) : (Tracker.create st).Within bs 0 where
  wellFormed := .create st.capacity_pos
  balanced := balanced_create bs st
  blocks_le := Nat.le_refl 0
  untracked_le := Nat.le_refl 0
  swaps_le := Nat.le_refl 0

end Within

/-! ### Checked operations come out as plain ones -/

theorem checkedTakeIn_eq (hw : t.window.WellFormed) (hcount : t.window.count + 1 < wordCount)
    (hwraps : t.window.wraps + 1 < wordCount) (op : Primitive) (bytes : Nat) (answer : Option Handle) (s : σ) :
    t.checkedTakeIn op bytes answer s = .ok (t.takeIn op bytes answer s) := by
  cases answer with
  | none => rfl
  | some block =>
    simp only [checkedTakeIn, takeIn, hw.checkedPush_eq hcount hwraps, Checked.ok_bind]
    rcases t.window.push ⟨block, bytes⟩ with ⟨_ | _, w⟩ <;> rfl

theorem checkedVanished_eq (hw : t.window.WellFormed) (old : Handle) (s : σ) :
    t.checkedVanished bs old s = .ok (t.vanished bs old s) := by
  simp only [checkedVanished, vanished, hw.checkedErase_eq, Checked.ok_bind]
  rcases t.window.erase old with ⟨_ | _, w⟩ <;> rfl

theorem checkedMoved_eq (hw : t.window.WellFormed) (old new : Handle) (bytes : Nat) (s : σ) :
    t.checkedMoved old new bytes s = .ok (t.moved old new bytes s) := by
  simp only [checkedMoved, moved, hw.checkedReplace_eq, Checked.ok_bind]
  rfl

namespace Within

theorem checkedRequest_eq (ht : t.Within bs n) (hn : n + 1 < wordCount) (c : Call) (s : σ) :
    t.checkedRequest bs c s = .ok (t.request bs c s) := by
  have hlive := ht.blocks_le
  have hcount := ht.count_le
  have hwraps := ht.wraps_le
  rw [checkedRequest, Routing.checkedCall_eq (by omega), Checked.ok_bind]
  exact checkedTakeIn_eq (t := { t with selection := t.selection.use ((t.routing bs).call bs c s).2.1 }) ht.wellFormed
    (by simp only; omega) (by simp only; omega) ..

theorem checkedResize_eq (ht : t.Within bs n) (hn : n + 1 < wordCount) (old : Handle) (bytes : Nat) (s : σ) :
    t.checkedResize bs old bytes s = .ok (t.resize bs old bytes s) := by
  have hlive := ht.blocks_le
  rw [checkedResize, Routing.checkedCall_eq (by omega), Checked.ok_bind]
  simp only [resize, Selection.call, routing]
  rcases (t.selection.current bs).call bs (.reallocate (some old) bytes) s with ⟨_ | new, r, s'⟩
  · by_cases hzero : bytes = 0
    · simp only [hzero, ↓reduceIte]
      exact checkedVanished_eq (t := { t with selection := t.selection.use r }) ht.wellFormed old s'
    · simp only [hzero, ↓reduceIte]
      rfl
  · exact checkedMoved_eq (t := { t with selection := t.selection.use r }) ht.wellFormed old new bytes s'

theorem checkedRelease_eq (ht : t.Within bs n) (hn : n + 1 < wordCount) (h : Handle) (s : σ) :
    t.checkedRelease bs h s = .ok (t.release bs h s) := by
  have huntracked := ht.untracked_le
  have hadd : Checked.add t.untrackedReleases 1 = .ok (t.untrackedReleases + 1) := Checked.add_eq (by omega)
  rw [checkedRelease, ht.wellFormed.checkedUntrack_eq, Checked.ok_bind]
  simp only [release, hadd]
  rcases t.window.untrack bs h (t.routing bs) s with ⟨_ | _, w, r, s'⟩ <;> rfl

theorem checkedDrain_eq (ht : t.Within bs n) (hn : n + 1 < wordCount) (s : σ) :
    t.window.checkedDrain bs (t.routing bs) s = .ok (t.window.drain bs (t.routing bs) s) ∧
      Checked.add t.drainedTotal (t.window.drain bs (t.routing bs) s).1 =
        .ok (t.drainedTotal + (t.window.drain bs (t.routing bs) s).1) := by
  have hcount := ht.count_le
  have hlen : (t.window.drain bs (t.routing bs) s).1 = t.window.count := by
    rw [Window.drain_eq]
    exact ht.wellFormed.length_entries
  exact ⟨ht.wellFormed.checkedDrain_eq (by omega) .., Checked.add_eq (by omega)⟩

theorem checkedCollect_eq (ht : t.Within bs n) (hn : n + 1 < wordCount) (s : σ) :
    t.checkedCollect bs s = .ok (t.collect bs s) := by
  obtain ⟨hdrain, hadd⟩ := ht.checkedDrain_eq hn s
  rw [checkedCollect, hdrain, Checked.ok_bind]
  simp only [hadd, Checked.ok_bind]
  rfl

theorem checkedExchange_eq (ht : t.Within bs n) (hn : n + 1 < wordCount) (o : Override B) (s : σ) :
    t.checkedExchange bs o s = .ok (t.exchange bs o s) := by
  obtain ⟨hdrain, hadd⟩ := ht.checkedDrain_eq hn s
  have hswaps := ht.swaps_le
  have hswap : Checked.add t.swaps 1 = .ok (t.swaps + 1) := Checked.add_eq (by omega)
  rw [checkedExchange, hdrain, Checked.ok_bind]
  simp only [hadd, hswap, Checked.ok_bind]
  rfl

/-- An operation gives no cause for a fault. -/
theorem checkedPerform_eq (ht : t.Within bs n) (hn : n + 1 < wordCount) (op : Operation B) (s : σ) :
    t.checkedPerform bs op s = .ok (t.perform bs op s) := by
  cases op with
  | install => rfl
  | allocate bytes => rw [checkedPerform, ht.checkedRequest_eq hn]; rfl
  | zeroAllocate bytes => rw [checkedPerform, ht.checkedRequest_eq hn]; rfl
  | reallocate old bytes =>
    cases old with
    | none => rw [checkedPerform, ht.checkedRequest_eq hn]; rfl
    | some old => rw [checkedPerform, ht.checkedResize_eq hn]; rfl
  | release h => rw [checkedPerform, ht.checkedRelease_eq hn]; rfl
  | collect => rw [checkedPerform, ht.checkedCollect_eq hn]; rfl
  | exchange o => rw [checkedPerform, ht.checkedExchange_eq hn]; rfl
  | liveCount => rfl
  | isTracked h => rw [checkedPerform, checkedIsTracked, ht.wellFormed.checkedIdxOf_eq]; rfl
  | stats => rfl

end Within

/-! ### Runs -/

theorem Within.mono (ht : t.Within bs n) {m : Nat} (h : n ≤ m) : t.Within bs m :=
  { ht with
    blocks_le := Nat.le_trans ht.blocks_le h
    untracked_le := Nat.le_trans ht.untracked_le h
    swaps_le := Nat.le_trans ht.swaps_le h }

theorem checkedRun_eq (ht : t.Within bs n) (ops : List (Operation B)) (hn : n + ops.length < wordCount) (s : σ) :
    t.checkedRun bs ops s = .ok (t.run bs ops s) ∧
      ∀ o ∈ t.run bs ops s, o.tracker.Within bs (n + ops.length) ∧ o.tracker.window.capacity = t.window.capacity := by
  induction ops generalizing t n s with
  | nil => exact ⟨rfl, fun o ho => absurd ho List.not_mem_nil⟩
  | cons op ops ih =>
    rw [List.length_cons] at hn ⊢
    have hlen : n + 1 + ops.length = n + (ops.length + 1) := by omega
    have hnext := ht.perform op s
    have hcapacity : (t.perform bs op s).tracker.window.capacity = t.window.capacity := by
      have hledger := congrArg Ledger.capacity (perform_spec bs ht.wellFormed op s).2.1
      rwa [Ledger.capacity_update] at hledger
    obtain ⟨hrun, hreached⟩ := ih hnext (by omega) (t.perform bs op s).state
    rw [hlen] at hreached
    refine ⟨?_, fun o ho => ?_⟩
    · rw [checkedRun, ht.checkedPerform_eq (by omega), Checked.ok_bind, hrun]
      rfl
    · rcases List.mem_cons.1 ho with rfl | ho
      · exact ⟨hnext.mono (by omega), hcapacity⟩
      · exact ⟨(hreached o ho).1, (hreached o ho).2.trans hcapacity⟩

/-- From a fresh tracker on, whatever the backends answer, a run of fewer than `2 ^ 64` operations never reaches for a
slot outside the table, never takes more away than there is and never counts past the words: with every step checked
it is the same run.  In every state that it reaches, the table has the capacity that it was given, no slot of the
window is empty, and each counter is at most the number of operations. -/
theorem run_without_fault (bs : Backends B σ) (st : Settings) (ops : List (Operation B)) (hops : ops.length < wordCount)
    (s : σ) :
    (create st).checkedRun bs ops s = .ok ((create st).run bs ops s) ∧
      ∀ o ∈ (create st).run bs ops s,
        o.tracker.Within bs ops.length ∧ o.tracker.window.capacity = st.capacity := by
  have hrun := checkedRun_eq (Within.create bs st) ops (by omega) s
  rw [Nat.zero_add] at hrun
  refine ⟨hrun.1, fun o ho => ?_⟩
  obtain ⟨hwithin, hcapacity⟩ := hrun.2 o ho
  exact ⟨hwithin, hcapacity.trans (Window.capacity_create st.capacity)⟩

/-- Two slots and a backend that answers the same block again and again, but none for zero bytes: the third block starts
the window over, its record is dropped, and the next one is drained. -/
theorem run_without_fault_repeated :
    let block : Handle := ⟨8, by decide⟩
    let bs : Backends Kind Unit := ⟨Kind.name, id, fun _ c s => (if c.bytes = 0 then none else some block, s)⟩
    let st : Settings := ⟨2, .platform, by decide⟩
    let ops : List (Operation Kind) :=
      [.allocate 1, .allocate (wordCount - 1), .zeroAllocate 3, .reallocate (some block) 0, .release block, .allocate 4,
       .exchange .none]
    ops.length < wordCount ∧
      (create st).checkedRun bs ops () = .ok ((create st).run bs ops ()) ∧
      ((create st).run bs ops ()).map (fun o => (o.tracker.window.count, o.tracker.window.wraps,
        (o.tracker.routing bs).live, o.tracker.untrackedReleases, o.tracker.drainedTotal)) =
        [(1, 0, 1, 0, 0), (2, 0, 2, 0, 0), (1, 1, 3, 0, 0), (0, 1, 2, 0, 0), (0, 1, 2, 1, 0), (1, 1, 3, 1, 0),
         (0, 1, 2, 1, 1)] := by
  intro block bs st ops
  exact ⟨by decide, (run_without_fault bs st ops (by decide) ()).1, by decide +kernel⟩

end Tracker

end BlockTracker
