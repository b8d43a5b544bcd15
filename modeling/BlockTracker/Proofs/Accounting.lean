import BlockTracker.Proofs.Runs
import BlockTracker.Total

/-!
# The counters agree

A tracker counts its blocks in three places: the cursor of the window, the live count of the routing and its own
totals.  A ledger is balanced when the live count exceeds its entries by one full window for every time the window
started over; every operation keeps it balanced and takes away no more than is there (`step_balance`).  Summed up
over a run this ties the counters to what the run has asked for and been answered (`counters_agree`).
-/

namespace BlockTracker

variable {B σ : Type}

/-! ### What a step adds and takes away -/

/-- Whether an operation with this answer got a new block. -/
def Operation.obtained : Operation B → Answer → Bool
  | .allocate _, .block (.ok _) | .zeroAllocate _, .block (.ok _) | .reallocate none _, .block (.ok _) => true
  | _, _ => false

/-- Whether a block of the window was released by its handle. -/
def Answer.released : Answer → Bool
  | .release .released => true
  | _ => false

/-- The number of blocks that an operation with this answer drained from the window. -/
def Operation.drained : Operation B → Answer → Nat
  | .collect, .count n | .exchange _, .count n => n
  | _, _ => 0

/-- The number of entries that a resize to zero bytes took out of the window, from how many there were and are. -/
def Operation.dropped (op : Operation B) (before after : Nat) : Nat :=
  match op with
  | .reallocate (some _) bytes => if bytes = 0 then before - after else 0
  | _ => 0

namespace Step

def obtained (x : Step B σ) : Bool := x.op.obtained x.outcome.value

def released (x : Step B σ) : Bool := x.outcome.value.released

def drained (x : Step B σ) : Nat := x.op.drained x.outcome.value

def dropped (x : Step B σ) : Nat := x.op.dropped x.before.window.count x.outcome.tracker.window.count

/-- How often the step counts the live blocks down. -/
def takenBack (x : Step B σ) : Nat := x.released.toNat + x.drained + x.dropped

def liveBefore (bs : Backends B σ) (x : Step B σ) : Nat := (x.before.routing bs).live

def liveAfter (bs : Backends B σ) (x : Step B σ) : Nat := (x.outcome.tracker.routing bs).live

end Step

/-! ### Balanced ledgers -/

namespace Ledger

structure Balanced (l : Ledger B) : Prop where
  capacity_pos : 0 < l.capacity
  length_le : l.entries.length ≤ l.capacity
  live_eq : l.live = l.entries.length + l.capacity * l.wraps

variable {l : Ledger B}

theorem Balanced.ready (hl : l.Balanced) : l.ready.Balanced := ⟨hl.1, hl.2, hl.3⟩

theorem Balanced.ignore (hl : l.Balanced) : l.ignore.Balanced := ⟨hl.1, hl.2, hl.3⟩

theorem Balanced.override (hl : l.Balanced) (o : Override B) : (l.override o).Balanced := ⟨hl.1, hl.2, hl.3⟩

theorem Balanced.replace (hl : l.Balanced) (old : Handle) (e : Entry) : (l.replace old e).Balanced := by
  refine ⟨hl.1, ?_, ?_⟩
  · rw [length_replace]
    exact hl.2
  · rw [length_replace]
    exact hl.3

/-- A window that starts over leaves a full window of blocks behind. -/
theorem Balanced.grant (hl : l.Balanced) (bytes : Nat) (answer : Option Handle) : (l.grant bytes answer).Balanced := by
  have hpos := hl.capacity_pos
  have hlen := hl.length_le
  have hlive := hl.live_eq
  cases answer with
  | none => exact hl
  | some block =>
    by_cases hroom : l.entries.length < l.capacity
    · rw [grant_of_room hroom]
      refine ⟨hpos, ?_, ?_⟩
      · simp only [List.length_append, List.length_singleton]
        omega
      · simp only [List.length_append, List.length_singleton]
        omega
    · -- one entry is left of a full window and one more, and one more wrap stands for the others
      rw [grant_of_full hroom]
      refine ⟨hpos, ?_, ?_⟩
      · simp only [List.length_singleton]
        omega
      · simp only [List.length_singleton, Nat.mul_add, Nat.mul_one]
        omega

theorem Balanced.live_strike (hl : l.Balanced) {h : Handle} (hm : h ∈ l.handles) : (l.strike h).live + 1 = l.live := by
  have hlen := length_strike hm
  have hlive := hl.live_eq
  have : (l.strike h).live = l.live - 1 := by rw [strike_of_mem hm]
  omega

theorem Balanced.strike (hl : l.Balanced) (h : Handle) : (l.strike h).Balanced := by
  by_cases hm : h ∈ l.handles
  · have hlen := length_strike hm
    have hlive := hl.live_strike hm
    have hle := hl.length_le
    have heq := hl.live_eq
    refine ⟨?_, ?_, ?_⟩
    · rw [capacity_strike]
      exact hl.capacity_pos
    · rw [capacity_strike]
      omega
    · rw [capacity_strike, wraps_strike]
      omega
  · rwa [strike_of_notMem hm]

theorem Balanced.live_drain (hl : l.Balanced) : l.drain.live + l.entries.length = l.live := by
  have := hl.live_eq
  have : l.drain.live = l.live - l.entries.length := rfl
  omega

theorem Balanced.drain (hl : l.Balanced) : l.drain.Balanced := by
  have := hl.live_drain
  have := hl.live_eq
  refine ⟨hl.capacity_pos, Nat.zero_le _, ?_⟩
  have hlen : l.drain.entries.length = 0 := rfl
  have hrest : l.drain.capacity = l.capacity ∧ l.drain.wraps = l.wraps := ⟨rfl, rfl⟩
  rw [hlen, hrest.1, hrest.2]
  omega

theorem Balanced.update (hl : l.Balanced) (op : Operation B) (answer : Option Handle) :
    (l.update op answer).Balanced := by
  cases op with
  | isTracked h => exact hl
  | install => exact hl.ready
  | liveCount => exact hl.ready
  | stats => exact hl.ready
  | allocate bytes => exact hl.ready.grant bytes answer
  | zeroAllocate bytes => exact hl.ready.grant bytes answer
  | reallocate old bytes =>
    cases old with
    | none => exact hl.ready.grant bytes answer
    | some old =>
      cases answer with
      | some new => exact hl.ready.replace old _
      | none =>
        simp only [Ledger.update]
        split
        · exact hl.ready.strike old
        · exact hl.ready
  | release h =>
    simp only [Ledger.update]
    split
    · exact hl.ready.strike h
    · exact hl.ready.ignore
  | collect => exact hl.ready.drain
  | exchange o => exact hl.ready.drain.override o

theorem live_grant (l : Ledger B) (bytes : Nat) (answer : Option Handle) :
    (l.grant bytes answer).live = l.live + answer.isSome.toNat := by
  cases answer with
  | none => rfl
  | some block =>
    by_cases hroom : l.entries.length < l.capacity
    · rw [grant_of_room hroom]; rfl
    · rw [grant_of_full hroom]; rfl

private theorem countP_releases (hs : List Handle) :
    (hs.map Call.release).countP (·.primitive = .release) = hs.length := by
  rw [List.countP_map, List.countP_eq_length]
  exact fun _ _ => rfl

/-- How often an operation counts the live blocks down. -/
def taken (bs : Backends B σ) (l : Ledger B) (op : Operation B) (answer : Option Handle) : Nat :=
  let a := l.reply bs op answer
  a.released.toNat + op.drained a + op.dropped l.entries.length (l.update op answer).entries.length

/-- The counters follow an operation: the live blocks are counted up for a new block and down for every block that is
taken back, of which there are never more than live ones. -/
structure Counts (bs : Backends B σ) (l : Ledger B) (op : Operation B) (answer : Option Handle) : Prop where
  taken_le : l.taken bs op answer ≤ l.live
  live_eq : (l.update op answer).live + l.taken bs op answer = l.live + (op.obtained (l.reply bs op answer)).toNat
  drained_eq : (l.update op answer).drainedTotal = l.drainedTotal + op.drained (l.reply bs op answer)
  released_eq : (l.calls op).countP (·.primitive = .release) =
    (l.reply bs op answer).released.toNat + op.drained (l.reply bs op answer)

/-- A resize that gives no block drops the entry if it was for zero bytes. -/
private theorem counts_shrink (hl : l.Balanced) (bs : Backends B σ) (old : Handle) (bytes : Nat) :
    l.Counts bs (.reallocate (some old) bytes) none := by
  by_cases hb : bytes = 0
  · subst hb
    have htaken : l.taken bs (.reallocate (some old) 0) none =
      0 + 0 + (l.ready.entries.length - (l.ready.strike old).entries.length) := rfl
    by_cases hm : old ∈ l.ready.handles
    · have hlive := hl.ready.live_strike hm
      have hlen := length_strike (l := l.ready) hm
      have hdrained := drainedTotal_strike l.ready old
      have hone : l.taken bs (.reallocate (some old) 0) none = 1 := by omega
      refine ⟨?_, ?_, hdrained, rfl⟩
      · have hready : l.ready.live = l.live := rfl
        omega
      · rw [hone]
        exact hlive
    · -- a block outside the window is not counted, whatever the backend has done with it
      have hsame : l.update (.reallocate (some old) 0) none = l.ready := strike_of_notMem hm
      rw [strike_of_notMem hm, Nat.sub_self] at htaken
      refine ⟨?_, ?_, ?_, rfl⟩
      · rw [htaken]
        exact Nat.zero_le _
      · rw [htaken, hsame]
        rfl
      · rw [hsame]
        rfl
  · have hsame : l.update (.reallocate (some old) bytes) none = l.ready := if_neg hb
    have hdropped : (Operation.reallocate (B := B) (some old) bytes).dropped l.entries.length
        (l.update (.reallocate (some old) bytes) none).entries.length = 0 := if_neg hb
    have htaken : l.taken bs (.reallocate (some old) bytes) none = 0 := by
      rw [taken, hdropped]
      rfl
    refine ⟨?_, ?_, ?_, rfl⟩
    · rw [htaken]
      exact Nat.zero_le _
    · rw [htaken, hsame]
      rfl
    · rw [hsame]
      rfl

/-- A resize that gives a block keeps the number of entries. -/
private theorem counts_moved (bs : Backends B σ) (l : Ledger B) (old new : Handle) (bytes : Nat) :
    l.Counts bs (.reallocate (some old) bytes) (some new) := by
  have hlen : (l.update (.reallocate (some old) bytes) (some new)).entries.length = l.entries.length :=
    length_replace ..
  have htaken : l.taken bs (.reallocate (some old) bytes) (some new) = 0 := by
    simp only [taken, Operation.dropped, hlen, Nat.sub_self, ite_self]
    rfl
  refine ⟨?_, ?_, rfl, rfl⟩
  · rw [htaken]
    exact Nat.zero_le _
  · rw [htaken]
    rfl

private theorem counts_release (hl : l.Balanced) (bs : Backends B σ) (h : Handle) (answer : Option Handle) :
    l.Counts bs (.release h) answer := by
  by_cases hm : h ∈ l.handles
  · have hlive := hl.ready.live_strike hm
    have hdrained := drainedTotal_strike l.ready h
    have hupdate : l.update (.release h) answer = l.ready.strike h := if_pos hm
    have hcalls : l.calls (.release h) = [.release h] := if_pos hm
    have hreply : l.reply bs (.release h) answer = .release .released := congrArg Answer.release (if_pos hm)
    have htaken : l.taken bs (.release h) answer = 1 := by
      rw [taken, hreply]
      rfl
    refine ⟨?_, ?_, ?_, ?_⟩
    · have hready : l.ready.live = l.live := rfl
      omega
    · rw [htaken, hupdate]
      exact hlive
    · rw [hupdate]
      exact hdrained
    · rw [hcalls, hreply]
      rfl
  · have hupdate : l.update (.release h) answer = l.ready.ignore := if_neg hm
    have hcalls : l.calls (.release h) = [] := if_neg hm
    have hreply : l.reply bs (.release h) answer = .release .untracked := congrArg Answer.release (if_neg hm)
    have htaken : l.taken bs (.release h) answer = 0 := by
      rw [taken, hreply]
      rfl
    refine ⟨?_, ?_, ?_, ?_⟩
    · rw [htaken]
      exact Nat.zero_le _
    · rw [htaken, hupdate]
      rfl
    · rw [hupdate]
      rfl
    · rw [hcalls, hreply]
      rfl

/-- Whatever it is answered, an operation leaves the counters where they should be. -/
theorem Balanced.counts (hl : l.Balanced) (bs : Backends B σ) (op : Operation B) (answer : Option Handle) :
    l.Counts bs op answer := by
  have hdrain : l.drain.live + (0 + l.entries.length + 0) = l.live := by
    rw [Nat.zero_add, Nat.add_zero]
    exact hl.live_drain
  have hle : 0 + l.entries.length + 0 ≤ l.live := by omega
  have hcalls : (l.handles.map Call.release).countP (·.primitive = .release) = 0 + l.entries.length := by
    rw [countP_releases, length_handles, Nat.zero_add]
  have hlive : ∀ bytes, (l.ready.grant bytes answer).live = l.live + answer.isSome.toNat := fun bytes =>
    live_grant l.ready bytes answer
  have hdrained : ∀ bytes, (l.ready.grant bytes answer).drainedTotal = l.drainedTotal := fun bytes =>
    drainedTotal_grant l.ready bytes answer
  cases op with
  | install => exact ⟨Nat.zero_le _, rfl, rfl, rfl⟩
  | liveCount => exact ⟨Nat.zero_le _, rfl, rfl, rfl⟩
  | isTracked h => exact ⟨Nat.zero_le _, rfl, rfl, rfl⟩
  | stats => exact ⟨Nat.zero_le _, rfl, rfl, rfl⟩
  | allocate bytes => cases answer <;> exact ⟨Nat.zero_le _, hlive bytes, hdrained bytes, rfl⟩
  | zeroAllocate bytes => cases answer <;> exact ⟨Nat.zero_le _, hlive bytes, hdrained bytes, rfl⟩
  | reallocate old bytes =>
    rcases old with _ | old
    · cases answer <;> exact ⟨Nat.zero_le _, hlive bytes, hdrained bytes, rfl⟩
    · rcases answer with _ | new
      · exact counts_shrink hl bs old bytes
      · exact counts_moved bs l old new bytes
  | release h => exact counts_release hl bs h answer
  | collect => exact ⟨hle, hdrain, rfl, hcalls⟩
  | exchange o => exact ⟨hle, hdrain, rfl, hcalls⟩

end Ledger

/-! ### Steps and runs -/

namespace Tracker

variable {bs : Backends B σ} {t : Tracker B}

theorem balanced_perform (hw : t.window.WellFormed) (hl : (t.ledger bs).Balanced) (op : Operation B) (s : σ) :
    ((t.perform bs op s).tracker.ledger bs).Balanced := by
  rw [(perform_spec bs hw op s).2.1]
  exact hl.update ..

theorem balanced_create (bs : Backends B σ) (st : Settings) : ((create st).ledger bs).Balanced := by
  rw [ledger_create]
  exact ⟨st.capacity_pos, Nat.zero_le _, rfl⟩

theorem balanced_after (hw : t.window.WellFormed) (hl : (t.ledger bs).Balanced) (ops : List (Operation B)) (s : σ) :
    ((t.after bs ops s).1.ledger bs).Balanced := by
  induction ops generalizing t s with
  | nil => exact hl
  | cons op ops ih => exact ih (wellFormed_perform hw op s) (balanced_perform hw hl op s) _

/-- No step counts down below zero: what it takes back was there. -/
theorem step_balance (hw : t.window.WellFormed) (hl : (t.ledger bs).Balanced) (op : Operation B) (s : σ) :
    let x : Step B σ := ⟨t, op, t.perform bs op s⟩
    x.takenBack ≤ x.liveBefore bs ∧ x.liveAfter bs + x.takenBack = x.liveBefore bs + x.obtained.toNat ∧
      x.outcome.tracker.drainedTotal = t.drainedTotal + x.drained ∧
      ((t.ledger bs).calls op).countP (·.primitive = .release) = x.released.toNat + x.drained := by
  intro x
  have hw' : x.outcome.tracker.window.WellFormed := wellFormed_perform hw op s
  obtain ⟨hval, hled, -⟩ := perform_spec bs hw op s
  have hdropped : x.dropped = op.dropped (t.ledger bs).entries.length (x.outcome.tracker.ledger bs).entries.length := by
    rw [Step.dropped, ← hw.length_entries, ← hw'.length_entries]
    rfl
  obtain ⟨hle, hlive, hdrained, hreleased⟩ :=
    hl.counts bs op (bs.serveAll (t.ledger bs).target ((t.ledger bs).calls op) s).1
  rw [Ledger.taken, ← hled, ← hval, ← hdropped] at hle hlive
  rw [← hled, ← hval] at hdrained
  rw [← hval] at hreleased
  exact ⟨hle, hlive, hdrained, hreleased⟩

/-- What a run adds to the counters and takes from them, summed up over its steps. -/
theorem run_balance (hw : t.window.WellFormed) (hl : (t.ledger bs).Balanced) (ops : List (Operation B)) (s : σ) :
    let xs := t.steps bs ops s
    let t' := (t.after bs ops s).1
    (t'.ledger bs).capacity = (t.ledger bs).capacity ∧
      (∀ x ∈ xs, x.takenBack ≤ x.liveBefore bs ∧
        x.liveAfter bs + x.takenBack = x.liveBefore bs + x.obtained.toNat) ∧
      (t'.ledger bs).live + xs.countP Step.released + total (xs.map Step.drained) + total (xs.map Step.dropped) =
        (t.ledger bs).live + xs.countP Step.obtained ∧
      t'.drainedTotal = t.drainedTotal + total (xs.map Step.drained) ∧
      (t.callLog bs ops s).countP (·.call.primitive = .release) =
        xs.countP Step.released + total (xs.map Step.drained) := by
  induction ops generalizing t s with
  | nil => exact ⟨rfl, fun _ hx => absurd hx List.not_mem_nil, rfl, rfl, rfl⟩
  | cons op ops ih =>
    intro xs t'
    obtain ⟨hle, hlive, hdrained, hcalls⟩ := step_balance hw hl op s
    have hw' : (t.perform bs op s).tracker.window.WellFormed := wellFormed_perform hw op s
    obtain ⟨icap, isteps, ilive, idrained, icalls⟩ := ih hw' (balanced_perform hw hl op s) (t.perform bs op s).state
    have hxs : xs = ⟨t, op, t.perform bs op s⟩ ::
      (t.perform bs op s).tracker.steps bs ops (t.perform bs op s).state := rfl
    have hcap : ((t.perform bs op s).tracker.ledger bs).capacity = (t.ledger bs).capacity := by
      rw [(perform_spec bs hw op s).2.1]
      exact Ledger.capacity_update ..
    have hlog : (t.callLog bs (op :: ops) s).countP (·.call.primitive = .release) =
        ((t.ledger bs).calls op).countP (·.primitive = .release) +
          ((t.perform bs op s).tracker.callLog bs ops (t.perform bs op s).state).countP
            (·.call.primitive = .release) := by
      rw [callLog_cons bs hw, List.countP_append]
      congr 1
      conv_rhs => rw [← bs.calls_trail (t.ledger bs).target ((t.ledger bs).calls op) s, List.countP_map]
      rfl
    have hone : ∀ b : Bool, (if b = true then 1 else 0) = b.toNat := by decide
    rw [hxs]
    simp only [total, List.countP_cons, List.map_cons, List.sum_cons, hone] at ilive idrained icalls ⊢
    refine ⟨icap.trans hcap, ?_, ?_, ?_, ?_⟩
    · intro x hx
      rcases List.mem_cons.1 hx with rfl | hx
      · exact ⟨hle, hlive⟩
      · exact isteps x hx
    · simp only [Step.takenBack, Step.liveAfter, Step.liveBefore] at hlive
      have ht' : t' = ((t.perform bs op s).tracker.after bs ops (t.perform bs op s).state).1 := rfl
      rw [← ht'] at ilive
      have hl₁ : ((t.perform bs op s).tracker.ledger bs).live = ((t.perform bs op s).tracker.routing bs).live := rfl
      have hl₀ : (t.ledger bs).live = (t.routing bs).live := rfl
      omega
    · exact idrained.trans (by rw [hdrained, Nat.add_assoc])
    · rw [hlog, icalls, hcalls]
      omega

/-- From a fresh tracker on, whatever the backends answer, the live count exceeds the blocks in the window by one full
window for every time the window started over, no count is taken below zero, every block got is still in the window
or accounted for, and no block is released but for a caller or by a drain. -/
theorem counters_agree (bs : Backends B σ) (st : Settings) (ops : List (Operation B)) (s : σ) :
    let t := create st
    let xs := t.steps bs ops s
    let last := t.after bs ops s
    let fig := (last.1.stats bs last.2).value
    fig.backendLive = fig.tracked + st.capacity * fig.wraps ∧
      (fig.backendLive = fig.tracked ↔ fig.wraps = 0) ∧
      (∀ x ∈ xs, x.takenBack ≤ x.liveBefore bs ∧
        x.liveAfter bs + x.takenBack = x.liveBefore bs + x.obtained.toNat) ∧
      xs.countP Step.obtained =
        fig.tracked + xs.countP Step.released + fig.drainedTotal + total (xs.map Step.dropped) + st.capacity * fig.wraps ∧
      (t.callLog bs ops s).countP (·.call.primitive = .release) = xs.countP Step.released + fig.drainedTotal := by
  intro t xs last fig
  have hw : t.window.WellFormed := .create st.capacity_pos
  have hw' : last.1.window.WellFormed := wellFormed_after hw ops s
  have hl : (t.ledger bs).Balanced := balanced_create bs st
  have hpos := st.capacity_pos
  -- all counters start at 0, so the sums over the run are what they show at its end
  obtain ⟨hcapacity, hlive₀, hdrained₀⟩ :
      (t.ledger bs).capacity = st.capacity ∧ (t.ledger bs).live = 0 ∧ t.drainedTotal = 0 := by
    rw [ledger_create]
    exact ⟨rfl, rfl, rfl⟩
  obtain ⟨hcap, hsteps, hlive, hdrained, hcalls⟩ := run_balance hw hl ops s
  have hbal := (balanced_after hw hl ops s).live_eq
  have htracked : fig.tracked = (last.1.ledger bs).entries.length := hw'.length_entries.symm
  rw [hlive₀, Nat.zero_add] at hlive
  rw [hdrained₀, Nat.zero_add] at hdrained
  rw [hcap, hcapacity, ← htracked] at hbal
  change fig.backendLive + xs.countP Step.released + _ + total (xs.map Step.dropped) = xs.countP Step.obtained at hlive
  change fig.drainedTotal = _ at hdrained
  change fig.backendLive = fig.tracked + st.capacity * fig.wraps at hbal
  refine ⟨hbal, ?_, hsteps, ?_, ?_⟩
  · constructor
    · intro h
      have hzero : st.capacity * fig.wraps = 0 := by omega
      exact (Nat.mul_eq_zero.1 hzero).resolve_left (Nat.ne_of_gt hpos)
    · intro h
      rw [hbal, h, Nat.mul_zero, Nat.add_zero]
  · omega
  · rw [hdrained]
    exact hcalls

end Tracker

end BlockTracker
