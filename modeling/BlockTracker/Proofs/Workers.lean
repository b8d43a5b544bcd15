import BlockTracker.Workload.Worker
import Mathlib.Data.List.Perm.Basic

/-!
# The books of a worker

Whatever it is answered, a worker accounts for its allocations and for its blocks (`Worker.Balanced`): each of its
allocations was granted, failed, is awaited or is left, each block it got it still has or has released, and as long as
none failed it has released one block for every `releaseEvery` allocations.  An answer keeps the books balanced and
changes the blocks of the worker by the block that was answered (`balanced_received`, `balanced_returned`).
-/

namespace BlockTracker

namespace Worker

/-- The blocks of a worker: those that it holds, and the one that it is giving back. -/
def owned (w : Worker) : List Handle :=
  match w.request with
  | some (.release h) => h :: w.held.toList
  | _ => w.held.toList

/-- The number of allocations that the worker waits for. -/
def awaited (w : Worker) : Nat :=
  match w.request with
  | some (.allocate _) | some (.zeroAllocate _) => 1
  | _ => 0

/-- The number of blocks that the worker is giving back. -/
def returning (w : Worker) : Nat :=
  match w.request with
  | some (.release _) => 1
  | _ => 0

/-- The books of a worker that waits for an answer or is done. -/
structure Balanced (w : Worker) : Prop where
  allocs_eq : w.tally.allocations + w.tally.failed + w.awaited + w.left = w.allocs
  owned_eq : w.tally.allocations = w.tally.releases + w.tally.untracked + w.owned.length
  due_eq : w.tally.failed = 0 →
    w.tally.releases + w.tally.untracked + w.returning = (w.allocs - (w.left + w.awaited)) / w.releaseEvery
  left_eq : w.request = none → w.left = 0

/-- The books of a worker that turns to its next request. -/
private structure Settled (w : Worker) : Prop where
  allocs_eq : w.tally.allocations + w.tally.failed + w.left = w.allocs
  held_eq : w.tally.allocations = w.tally.releases + w.tally.untracked + w.held.size
  due_eq : w.tally.failed = 0 → w.tally.releases + w.tally.untracked = (w.allocs - w.left) / w.releaseEvery

/-- What a worker is to do: how many blocks to allocate, and how often to release one. -/
def task (w : Worker) : Nat × Nat := (w.allocs, w.releaseEvery)

variable {w : Worker}

/-! ### The next request -/

private theorem ask_of_left (h : w.left ≠ 0) :
    ∃ random request, w.ask = { w with random, left := w.left - 1, request := some request } ∧
      ∃ bytes, request = .allocate bytes ∨ request = .zeroAllocate bytes := by
  refine ⟨_, _, if_neg h, (w.random.range 1 maxBytes).1, ?_⟩
  split
  · exact .inr rfl
  · exact .inl rfl

/-- Turning to the next allocation changes nothing but the request. -/
private theorem balanced_ask (hw : w.Settled) :
    w.ask.Balanced ∧ w.ask.owned = w.held.toList ∧ w.ask.tally = w.tally ∧ w.ask.task = w.task := by
  obtain ⟨hallocs, hheld, hdue⟩ := hw
  by_cases h : w.left = 0
  · have hask : w.ask = { w with request := none } := if_pos h
    rw [hask]
    exact ⟨⟨hallocs, hheld, hdue, fun _ => h⟩, rfl, rfl, rfl⟩
  · obtain ⟨random, request, hask, bytes, hrequest⟩ := ask_of_left h
    have hleft : w.left - 1 + 1 = w.left := Nat.succ_pred_eq_of_ne_zero h
    have hallocs' : w.tally.allocations + w.tally.failed + 1 + (w.left - 1) = w.allocs := by omega
    rw [hask]
    -- both kinds of allocation are awaited alike
    rcases hrequest with rfl | rfl
    · exact ⟨⟨hallocs', hheld, hleft.symm ▸ hdue, fun e => nomatch e⟩, rfl, rfl, rfl⟩
    · exact ⟨⟨hallocs', hheld, hleft.symm ▸ hdue, fun e => nomatch e⟩, rfl, rfl, rfl⟩

theorem balanced_start (seed : UInt64) (allocs releaseEvery : Nat) :
    let w := start seed allocs releaseEvery
    w.Balanced ∧ w.owned = [] ∧ w.tally = ⟨0, 0, 0, 0⟩ ∧ w.task = (allocs, releaseEvery) := by
  have hdue : 0 + 0 = (allocs - allocs) / releaseEvery := by rw [Nat.sub_self, Nat.zero_div]
  exact balanced_ask ⟨Nat.zero_add _, rfl, fun _ => hdue⟩

/-! ### Giving a block back -/

theorem swapRemove_perm {xs : Array Handle} {i : Nat} {h : Handle} (hi : xs[i]? = some h) :
    (h :: (swapRemove xs i).toList).Perm xs.toList := by
  obtain ⟨hlt, rfl⟩ := Array.getElem?_eq_some_iff.1 hi
  have hlast : xs.size - 1 < xs.size := by omega
  have hswap : xs.swapIfInBounds i (xs.size - 1) = xs.swap i (xs.size - 1) := by
    simp only [Array.swapIfInBounds_def, hlt, hlast, ↓reduceDIte]
  have hne : (xs.swap i (xs.size - 1)).toList ≠ [] := by
    refine List.ne_nil_of_length_pos ?_
    rw [Array.length_toList, Array.size_swap]
    omega
  have hback : (xs.swap i (xs.size - 1)).toList.getLast hne = xs[i] := by
    simp only [List.getLast_eq_getElem, Array.getElem_toList, Array.length_toList, Array.size_swap]
    exact Array.getElem_swap_right
  have hpop : (xs.swap i (xs.size - 1)).toList = (swapRemove xs i).toList ++ [xs[i]] := by
    rw [swapRemove, hswap, Array.toList_pop, ← hback, List.dropLast_append_getLast]
  refine (List.perm_append_singleton _ _).symm.trans ?_
  rw [← hpop]
  exact Array.perm_iff_toList_perm.1 (Array.swap_perm hlt hlast)

private theorem giveOne_eq (hpos : 0 < w.held.size) :
    ∃ random i h, w.held[i]? = some h ∧
      w.giveOne = { w with random, held := swapRemove w.held i, request := some (.release h) } := by
  rcases hr : w.random.range 0 (w.held.size - 1) with ⟨i, random⟩
  have hlt : i < w.held.size := by
    have hle := w.random.range_le (Nat.zero_le (w.held.size - 1))
    rw [hr] at hle
    omega
  have hget : w.held[i]? = some w.held[i] := Array.getElem?_eq_getElem hlt
  refine ⟨random, i, w.held[i], hget, ?_⟩
  rw [giveOne, hr]
  simp only [give, hget]

/-! ### Answers -/

/-- The books of a worker whose latest allocation was answered. -/
private structure Answered (w : Worker) : Prop where
  allocs_eq : w.tally.allocations + w.tally.failed + w.left = w.allocs
  held_eq : w.tally.allocations = w.tally.releases + w.tally.untracked + w.held.size
  due_eq : w.tally.failed = 0 → w.tally.releases + w.tally.untracked = (w.allocs - (w.left + 1)) / w.releaseEvery
  left_lt : w.left < w.allocs

/-- Where no release is due, the number of releases is still right. -/
private theorem Answered.settled (hw : w.Answered) (hdue : w.releaseDue = false) : w.Settled := by
  obtain ⟨hallocs, hheld, hreleases, hlt⟩ := hw
  refine ⟨hallocs, hheld, fun hf => ?_⟩
  have hrel := hreleases hf
  have hsucc : w.allocs - w.left = w.allocs - (w.left + 1) + 1 := by omega
  simp only [releaseDue, Bool.and_eq_false_iff, decide_eq_false_iff_not] at hdue
  rcases hdue with (hevery | hmod) | hempty
  · have hzero : w.releaseEvery = 0 := by omega
    rw [hrel, hzero, Nat.div_zero, Nat.div_zero]
  · rw [hsucc] at hmod ⊢
    rw [Nat.succ_div_of_not_dvd fun hd => hmod (Nat.mod_eq_zero_of_dvd hd), hrel]
  · -- a worker whose allocations were all granted has released fewer than it got
    have := Nat.div_le_self (w.allocs - (w.left + 1)) w.releaseEvery
    omega

private theorem balanced_proceed (hw : w.Answered) :
    w.proceed.Balanced ∧ w.proceed.owned.Perm w.held.toList ∧ w.proceed.tally = w.tally ∧ w.proceed.task = w.task := by
  by_cases hdue : w.releaseDue
  · have hproceed : w.proceed = w.giveOne := if_pos hdue
    simp only [releaseDue, Bool.and_eq_true, decide_eq_true_eq] at hdue
    obtain ⟨⟨hevery, hmod⟩, hpos⟩ := hdue
    obtain ⟨random, i, h, hget, hgive⟩ := giveOne_eq hpos
    obtain ⟨hallocs, hheld, hreleases, hlt⟩ := hw
    have hperm := swapRemove_perm hget
    have hlen : (h :: (swapRemove w.held i).toList).length = w.held.size := by
      rw [hperm.length_eq, Array.length_toList]
    have hsucc : w.allocs - w.left = w.allocs - (w.left + 1) + 1 := by omega
    rw [hproceed, hgive]
    refine ⟨⟨hallocs, ?_, ?_, fun e => nomatch e⟩, hperm, rfl, rfl⟩
    · exact hlen.symm ▸ hheld
    · intro hf
      have hrel := hreleases hf
      rw [hsucc] at hmod
      have hdiv := Nat.succ_div_of_dvd (Nat.dvd_of_mod_eq_zero hmod)
      rw [← hsucc, ← hrel] at hdiv
      exact hdiv.symm
  · have hproceed : w.proceed = w.ask := if_neg hdue
    obtain ⟨hbal, howned, hrest⟩ := balanced_ask (hw.settled (Bool.eq_false_iff.2 hdue))
    rw [hproceed]
    exact ⟨hbal, howned ▸ .refl _, hrest⟩

private theorem answered_note (hw : w.Balanced) (ha : w.awaited = 1) (result : Except Failure Handle) :
    (w.note result).Answered ∧ w.owned = w.held.toList := by
  obtain ⟨hallocs, howned, hdue, -⟩ := hw
  have hlent : w.owned = w.held.toList ∧ w.returning = 0 := by
    unfold owned returning
    unfold awaited at ha
    split at ha
    · next h => rw [h]; exact ⟨rfl, rfl⟩
    · next h => rw [h]; exact ⟨rfl, rfl⟩
    · exact absurd ha (by decide)
  obtain ⟨hheld, hreturning⟩ := hlent
  rw [ha, hreturning] at hdue
  rw [hheld, Array.length_toList] at howned
  rw [ha] at hallocs
  refine ⟨?_, hheld⟩
  cases result with
  | ok h =>
    have hpush : (w.held.push h).size = w.held.size + 1 := Array.size_push ..
    refine ⟨?_, ?_, hdue, ?_⟩
    · change w.tally.allocations + 1 + w.tally.failed + w.left = w.allocs
      omega
    · change w.tally.allocations + 1 = w.tally.releases + w.tally.untracked + (w.held.push h).size
      omega
    · change w.left < w.allocs
      omega
  | error f =>
    refine ⟨?_, howned, fun hf => absurd hf (Nat.succ_ne_zero _), ?_⟩
    · change w.tally.allocations + (w.tally.failed + 1) + w.left = w.allocs
      omega
    · change w.left < w.allocs
      omega

/-- An answer to a request for a block. -/
theorem balanced_received (hw : w.Balanced) (ha : w.awaited = 1) (result : Except Failure Handle) :
    (w.received result).Balanced ∧ (w.received result).owned.Perm (result.toOption.toList ++ w.owned) ∧
      (w.received result).tally.releases = w.tally.releases ∧
      (w.received result).tally.untracked = w.tally.untracked ∧ (w.received result).task = w.task := by
  obtain ⟨hnote, howned⟩ := answered_note hw ha result
  obtain ⟨hbal, hperm, htally, htask⟩ := balanced_proceed hnote
  rw [howned]
  cases result with
  | ok h =>
    have hpush : (w.held.push h).toList.Perm (h :: w.held.toList) := by
      rw [Array.toList_push]
      exact List.perm_append_singleton ..
    exact ⟨hbal, hperm.trans hpush, by rw [received, htally]; rfl, by rw [received, htally]; rfl, htask⟩
  | error f => exact ⟨hbal, hperm, by rw [received, htally]; rfl, by rw [received, htally]; rfl, htask⟩

private theorem settled_returned (hw : w.Balanced) {h : Handle} (hr : w.request = some (.release h))
    (tally : WorkerTally) (hallocations : tally.allocations = w.tally.allocations) (hfailed : tally.failed = w.tally.failed)
    (hreleases : tally.releases + tally.untracked = w.tally.releases + w.tally.untracked + 1) :
    { w with tally }.Settled ∧ w.owned = h :: w.held.toList := by
  obtain ⟨hallocs, howned, hdue, -⟩ := hw
  have hheld : w.owned = h :: w.held.toList := by rw [owned, hr]
  have hawaited : w.awaited = 0 := by rw [awaited, hr]
  have hreturning : w.returning = 1 := by rw [returning, hr]
  rw [hheld, List.length_cons, Array.length_toList] at howned
  rw [hawaited, hreturning, Nat.add_zero, ← hfailed, ← hreleases] at hdue
  refine ⟨⟨?_, ?_, hdue⟩, hheld⟩
  · change tally.allocations + tally.failed + w.left = w.allocs
    omega
  · change tally.allocations = tally.releases + tally.untracked + w.held.size
    omega

/-- An answer to a release. -/
theorem balanced_returned (hw : w.Balanced) {h : Handle} (hr : w.request = some (.release h))
    (outcome : ReleaseOutcome) :
    (w.returned outcome).Balanced ∧ w.owned = h :: (w.returned outcome).owned ∧
      (w.returned outcome).tally.releases = w.tally.releases + (if outcome = .released then 1 else 0) ∧
      (w.returned outcome).tally.untracked = w.tally.untracked + (if outcome = .untracked then 1 else 0) ∧
      (w.returned outcome).task = w.task := by
  cases outcome with
  | released =>
    obtain ⟨hsettled, hheld⟩ := settled_returned hw hr
      { w.tally with releases := w.tally.releases + 1 } rfl rfl (Nat.add_right_comm ..)
    obtain ⟨hbal, howned, htally, htask⟩ := balanced_ask hsettled
    have hreleases := congrArg WorkerTally.releases htally
    have huntracked := congrArg WorkerTally.untracked htally
    exact ⟨hbal, hheld.trans (congrArg (h :: ·) howned.symm), hreleases, huntracked, htask⟩
  | untracked =>
    obtain ⟨hsettled, hheld⟩ := settled_returned hw hr
      { w.tally with untracked := w.tally.untracked + 1 } rfl rfl (Nat.add_assoc ..).symm
    obtain ⟨hbal, howned, htally, htask⟩ := balanced_ask hsettled
    have hreleases := congrArg WorkerTally.releases htally
    have huntracked := congrArg WorkerTally.untracked htally
    exact ⟨hbal, hheld.trans (congrArg (h :: ·) howned.symm), hreleases, huntracked, htask⟩

end Worker

end BlockTracker
