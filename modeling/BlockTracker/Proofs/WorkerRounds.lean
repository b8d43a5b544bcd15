import BlockTracker.Proofs.CheckedWorkers

/-!
# The rounds of a worker

What the record of a worker's rounds says of its work (`Stock.Accounted`): the sizes and the indices are in range, the
tally counts the rounds, the blocks that went back were handed out before, and with those that are still held they
are all that were handed out.  Each fact is one of a step, and holds of the steps one after the other.

Two runs on servers that refuse the same allocations keep generators and numbers of blocks alike (`Stock.Alike`), so
they ask for the same and give back at the same indices, whatever the blocks are and however releases end.
-/

namespace BlockTracker

namespace Round

/-- What the allocation asks for. -/
def asked (r : Round) : Nat × Bool := (r.bytes, r.zeroed)

/-- Whether the allocation got a block. -/
def granted (r : Round) : Bool := r.result.toOption.isSome

/-- The index of the block that goes back. -/
def given (r : Round) : Option Nat := r.release.map (·.index)

/-- The block that the allocation got. -/
def obtained (r : Round) : List Handle := r.result.toOption.toList

/-- The block that goes back. -/
def returned (r : Round) : List Handle := (r.release.map (·.block)).toList

/-- Whether a block goes back, and in this way. -/
def ended (outcome : ReleaseOutcome) (r : Round) : Bool := r.release.any (·.outcome = outcome)

end Round

namespace WorkerTally

/-- The tally of rounds. -/
def ofRounds (log : List Round) : WorkerTally where
  allocations := log.countP (·.granted)
  failed := log.countP (!·.granted)
  releases := log.countP (·.ended .released)
  untracked := log.countP (·.ended .untracked)

/-- Two tallies taken together. -/
def join (t u : WorkerTally) : WorkerTally :=
  ⟨t.allocations + u.allocations, t.failed + u.failed, t.releases + u.releases, t.untracked + u.untracked⟩

theorem join_assoc (t u v : WorkerTally) : (t.join u).join v = t.join (u.join v) := by
  simp only [join, Nat.add_assoc]

theorem ofRounds_cons (r : Round) (log : List Round) : ofRounds (r :: log) = (ofRounds [r]).join (ofRounds log) := by
  simp only [ofRounds, join, ← List.countP_append, List.singleton_append]

theorem length_obtained (log : List Round) : (log.flatMap (·.obtained)).length = (ofRounds log).allocations := by
  induction log with
  | nil => rfl
  | cons r log ih =>
    have hr : r.obtained.length = (ofRounds [r]).allocations := by
      rcases r with ⟨bytes, zeroed, _ | _, release⟩ <;> rfl
    rw [List.flatMap_cons, List.length_append, ih, hr, ofRounds_cons r log]
    rfl

end WorkerTally

namespace Stock

variable {k k' : Stock} {r : Round} {log : List Round} {allocs every i : Nat}

/-! ### Ranges -/

theorem Step.bounds (hr : k.Step every i r k') :
    (1 ≤ r.bytes ∧ r.bytes ≤ 1024) ∧ ∀ release ∈ r.release, release.index < release.among := by
  have hsize : 1 ≤ k.size.1 ∧ k.size.1 ≤ 1024 := ⟨k.random.le_range 1 _, k.random.range_le (by decide)⟩
  cases hr with
  | keep result h => exact ⟨hsize, fun _ hrelease => nomatch hrelease⟩
  | give result outcome h hblock =>
    refine ⟨hsize, fun release hrelease => ?_⟩
    obtain rfl := Option.some.inj hrelease
    exact index_lt (size_pos_of_due h)

theorem Steps.bounds (hlog : Steps every i k log k') :
    ∀ r ∈ log, (1 ≤ r.bytes ∧ r.bytes ≤ 1024) ∧ ∀ release ∈ r.release, release.index < release.among := by
  induction hlog with
  | nil i k => exact fun _ hr => nomatch hr
  | cons hr hlog ih => exact List.forall_mem_cons.2 ⟨hr.bounds, ih⟩

/-! ### The tally -/

theorem Steps.within (hlog : Steps every i k log k') (hk : k.Within i) : k'.Within (i + log.length) := by
  induction hlog with
  | nil i k => exact hk
  | cons hr hlog ih =>
    rw [List.length_cons, Nat.add_comm _ 1, ← Nat.add_assoc]
    exact ih (hr.within hk)

theorem Step.tally_eq (hr : k.Step every i r k') : k'.tally = k.tally.join (.ofRounds [r]) := by
  cases hr with
  | keep result h => cases result <;> rfl
  | give result outcome h hblock => cases result <;> cases outcome <;> rfl

theorem Steps.tally_eq (hlog : Steps every i k log k') : k'.tally = k.tally.join (.ofRounds log) := by
  induction hlog with
  | nil i k => rfl
  | cons hr hlog ih => rw [ih, hr.tally_eq, WorkerTally.join_assoc, ← WorkerTally.ofRounds_cons]

/-! ### The blocks -/

theorem note_perm (k : Stock) (result : Except Failure Handle) :
    (result.toOption.toList ++ k.held.toList).Perm (k.note result).held.toList := by
  cases result with
  | ok h =>
    simp only [note, Array.toList_push]
    exact (List.perm_append_singleton ..).symm
  | error f => exact .refl _

/-- The blocks that a round starts with and gets are those that it gives back and leaves. -/
theorem Step.perm (hr : k.Step every i r k') :
    (r.obtained ++ k.held.toList).Perm (r.returned ++ k'.held.toList) := by
  cases hr with
  | keep result h => exact note_perm k result
  | give result outcome h hblock => exact (note_perm k result).trans (Worker.swapRemove_perm hblock).symm

theorem Steps.perm (hlog : Steps every i k log k') :
    (log.flatMap (·.obtained) ++ k.held.toList).Perm (log.flatMap (·.returned) ++ k'.held.toList) := by
  induction hlog with
  | nil i k => exact .refl _
  | @cons i k k₁ k' r log hr hlog ih =>
    simp only [List.flatMap_cons, List.append_assoc]
    calc r.obtained ++ (log.flatMap (·.obtained) ++ k.held.toList)
      _ |>.Perm (log.flatMap (·.obtained) ++ (r.obtained ++ k.held.toList)) := List.perm_append_comm_assoc ..
      _ |>.Perm (log.flatMap (·.obtained) ++ (r.returned ++ k₁.held.toList)) := hr.perm.append_left _
      _ |>.Perm (r.returned ++ (log.flatMap (·.obtained) ++ k₁.held.toList)) := List.perm_append_comm_assoc ..
      _ |>.Perm (r.returned ++ (log.flatMap (·.returned) ++ k'.held.toList)) := ih.append_left _

/-- The first rounds are rounds themselves. -/
theorem Steps.take (hlog : Steps every i k log k') (n : Nat) : ∃ k₁, Steps every i k (log.take n) k₁ := by
  induction hlog generalizing n with
  | nil i k =>
    rw [List.take_nil]
    exact ⟨k, .nil i k⟩
  | cons hr hlog ih =>
    cases n with
    | zero => exact ⟨_, .nil ..⟩
    | succ n =>
      obtain ⟨k₁, hk₁⟩ := ih n
      exact ⟨k₁, .cons hr hk₁⟩

/-! ### The whole record -/

/-- What the record of the rounds says of `allocs` allocations with a release behind every `every` of them. -/
structure Accounted (allocs every : Nat) (log : List Round) (k : Stock) : Prop where
  length_eq : log.length = allocs
  bytes_mem : ∀ r ∈ log, 1 ≤ r.bytes ∧ r.bytes ≤ 1024
  index_lt : ∀ r ∈ log, ∀ release ∈ r.release, release.index < release.among
  tally_eq : k.tally = .ofRounds log
  allocs_eq : k.tally.allocations + k.tally.failed = allocs
  held_eq : k.tally.allocations = k.tally.releases + k.tally.untracked + k.held.size
  /-- What goes back was handed out before: in no number of first rounds does more go back. -/
  returned_subperm : ∀ n, ((log.take n).flatMap (·.returned)).Subperm ((log.take n).flatMap (·.obtained))
  returned_perm : (log.flatMap (·.returned) ++ k.held.toList).Perm (log.flatMap (·.obtained))
  due_eq : (∀ r ∈ log, r.granted) → (log.flatMap (·.returned)).length = allocs / every

theorem within_initial (seed : UInt64) : (initial seed).Within 0 := ⟨rfl, rfl⟩

theorem Steps.returned_perm {seed : UInt64} (hlog : Steps every i (.initial seed) log k) :
    (log.flatMap (·.returned) ++ k.held.toList).Perm (log.flatMap (·.obtained)) := by
  have hperm := hlog.perm
  rw [initial, List.append_nil] at hperm
  exact hperm.symm

theorem Steps.accounted {seed : UInt64} (hlog : Steps every 0 (.initial seed) log k) (hlength : log.length = allocs)
    (hbalanced : (k.worker allocs every 0).Balanced) : Accounted allocs every log k := by
  obtain ⟨hanswered, hheld⟩ := hlog.within (within_initial seed)
  have htally : k.tally = .ofRounds log := by
    rw [hlog.tally_eq]
    simp only [WorkerTally.join, initial, Nat.zero_add]
  have hperm := hlog.returned_perm
  refine ⟨hlength, fun r hr => (hlog.bounds r hr).1, fun r hr => (hlog.bounds r hr).2, htally, ?_, hheld, fun n => ?_,
    hperm, fun hgranted => ?_⟩
  · rw [hanswered, Nat.zero_add, hlength]
  · -- the first rounds account for their blocks as all of them do
    obtain ⟨k₁, hk₁⟩ := hlog.take n
    exact (List.sublist_append_left ..).subperm.trans hk₁.returned_perm.subperm
  · have hfailed : k.tally.failed = 0 := by
      rw [htally]
      refine List.countP_eq_zero.2 fun r hr => ?_
      simp only [hgranted r hr, Bool.not_true, Bool.false_eq_true, not_false_eq_true]
    -- the books of the worker count the releases by their answers, the record counts them by their blocks
    have hdue : k.tally.releases + k.tally.untracked = allocs / every := hbalanced.due_eq hfailed
    have hsize : _ + k.held.size = _ := List.length_append.symm.trans hperm.length_eq
    rw [WorkerTally.length_obtained, ← htally] at hsize
    omega

/-! ### Two runs -/

/-- Two stocks with the same generator and with as many blocks. -/
structure Alike (k₁ k₂ : Stock) : Prop where
  random_eq : k₁.random = k₂.random
  size_eq : k₁.held.size = k₂.held.size

variable {k₁ k₁' k₂ k₂' : Stock} {r₁ r₂ : Round} {log₁ log₂ : List Round}

namespace Alike

theorem next_eq (h : k₁.Alike k₂) : k₁.size = k₂.size ∧ k₁.choice = k₂.choice ∧ k₁.index = k₂.index := by
  have hsize : k₁.size = k₂.size := congrArg (·.range 1 Worker.maxBytes) h.random_eq
  refine ⟨hsize, congrArg (·.2.next) hsize, ?_⟩
  rw [index, index, h.random_eq, h.size_eq]

theorem due_eq (h : k₁.Alike k₂) (every i : Nat) : k₁.due every i = k₂.due every i := by
  rw [due, due, h.size_eq]

theorem note (h : k₁.Alike k₂) {result₁ result₂ : Except Failure Handle}
    (hgranted : result₁.toOption.isSome = result₂.toOption.isSome) : (k₁.note result₁).Alike (k₂.note result₂) := by
  have hrandom : k₁.choice.2 = k₂.choice.2 := congrArg (·.2) h.next_eq.2.1
  cases result₁ with
  | ok _ =>
    cases result₂ with
    | ok _ => exact ⟨hrandom, by simp only [Stock.note, Array.size_push, h.size_eq]⟩
    | error _ => exact absurd hgranted.symm Bool.false_ne_true
  | error _ =>
    cases result₂ with
    | ok _ => exact absurd hgranted Bool.false_ne_true
    | error _ => exact ⟨hrandom, h.size_eq⟩

theorem give (h : k₁.Alike k₂) (outcome₁ outcome₂ : ReleaseOutcome) :
    (k₁.give outcome₁).Alike (k₂.give outcome₂) :=
  ⟨congrArg (·.2) h.next_eq.2.2, by rw [size_give, size_give, h.size_eq]⟩

/-- Alike stocks ask for the same.  Where both are granted a block or both are refused, they give back alike. -/
theorem step (h : k₁.Alike k₂) (hr₁ : k₁.Step every i r₁ k₁') (hr₂ : k₂.Step every i r₂ k₂') :
    r₁.asked = r₂.asked ∧ (r₁.granted = r₂.granted → r₁.given = r₂.given ∧ k₁'.Alike k₂') := by
  obtain ⟨hsize, hchoice, -⟩ := h.next_eq
  have hasked : (k₁.size.1, k₁.zeroed) = (k₂.size.1, k₂.zeroed) := by rw [zeroed, zeroed, hsize, hchoice]
  cases hr₁ with
  | keep result₁ h₁ =>
    cases hr₂ with
    | keep result₂ h₂ => exact ⟨hasked, fun hgranted => ⟨by simp only [Round.given], h.note hgranted⟩⟩
    | give result₂ outcome₂ h₂ _ =>
      refine ⟨hasked, fun hgranted => ?_⟩
      rw [(h.note hgranted).due_eq, h₂] at h₁
      exact nomatch h₁
  | give result₁ outcome₁ h₁ _ =>
    cases hr₂ with
    | keep result₂ h₂ =>
      refine ⟨hasked, fun hgranted => ?_⟩
      rw [(h.note hgranted).due_eq, h₂] at h₁
      exact nomatch h₁
    | give result₂ outcome₂ h₂ _ =>
      refine ⟨hasked, fun hgranted => ⟨?_, (h.note hgranted).give ..⟩⟩
      exact congrArg (fun index => some index.1) (h.note hgranted).next_eq.2.2

/-- Up to the first allocation that only one of two runs is granted, both choose the same. -/
theorem steps (h : k₁.Alike k₂) (hlog₁ : Steps every i k₁ log₁ k₁') (hlog₂ : Steps every i k₂ log₂ k₂')
    (hlength : log₁.length = log₂.length) {n : Nat}
    (hgranted : (log₁.take n).map (·.granted) = (log₂.take n).map (·.granted)) :
    (log₁.take n).map (·.given) = (log₂.take n).map (·.given) ∧
      (log₁.take (n + 1)).map (·.asked) = (log₂.take (n + 1)).map (·.asked) := by
  induction hlog₁ generalizing k₂ log₂ n with
  | nil i k₁ =>
    obtain rfl := List.eq_nil_of_length_eq_zero hlength.symm
    simp only [List.take_nil, and_self]
  | cons hr₁ hlog₁ ih =>
    cases hlog₂ with
    | nil => exact nomatch hlength
    | cons hr₂ hlog₂ =>
      obtain ⟨hasked, hstep⟩ := h.step hr₁ hr₂
      cases n with
      | zero => simp only [List.take_zero, List.take_succ_cons, List.map_nil, List.map_cons, hasked, and_self]
      | succ n =>
        simp only [List.take_succ_cons, List.map_cons, List.cons.injEq] at hgranted ⊢
        obtain ⟨hgiven, halike⟩ := hstep hgranted.1
        obtain ⟨hgivens, haskeds⟩ := ih halike hlog₂ (Nat.succ.inj hlength) hgranted.2
        exact ⟨⟨hgiven, hgivens⟩, hasked, haskeds⟩

end Alike

end Stock

namespace Worker

variable {τ : Type}

/-- The checked work of a worker with the record of its rounds. -/
def checkedWork (sv : Server τ) (seed : UInt64) (allocs every : Nat) (s : τ) : Except Fault (List Round × Stock × τ) :=
  Stock.checkedRounds sv every 0 allocs (.initial seed) s

theorem checkedWork_spec (sv : Server τ) (seed : UInt64) {allocs : Nat} (every : Nat) (h : allocs < wordCount) (s : τ) :
    ∃ log k s', checkedWork sv seed allocs every s = .ok (log, k, s') ∧
      (start seed allocs every).work sv s = (k.worker allocs every 0, s') ∧
      Stock.Steps every 0 (.initial seed) log k ∧ Stock.Accounted allocs every log k := by
  obtain ⟨log, k, s', hrounds, hsteps, hlength, hwork⟩ :=
    Stock.checkedRounds_spec sv every allocs (Stock.within_initial seed) (by omega) s
  have hstart : (start seed allocs every).work sv s = (k.worker allocs every 0, s') := hwork (Nat.zero_add allocs)
  have hbalanced := (balanced_work sv (balanced_start seed allocs every).1 s).1
  rw [hstart] at hbalanced
  exact ⟨log, k, s', hrounds, hstart, hsteps, hsteps.accounted hlength hbalanced⟩

/-- Whatever serves it, a worker comes to the end of its allocations and accounts for them.  Another run from the same
seed, on a server of any kind, asks for the same and gives back at the same indices as long as the same allocations are
refused. -/
theorem work_accounted (sv : Server τ) (seed : UInt64) {allocs : Nat} (every : Nat) (h : allocs < wordCount) (s : τ) :
    (∃ log k s', checkedWork sv seed allocs every s = .ok (log, k, s') ∧
      (start seed allocs every).work sv s = (k.worker allocs every 0, s') ∧ Stock.Accounted allocs every log k ∧
      ∀ {υ : Type} (sv₂ : Server υ) (u : υ) {log₂ k₂ u'}, checkedWork sv₂ seed allocs every u = .ok (log₂, k₂, u') →
        ∀ n, (log.take n).map (·.granted) = (log₂.take n).map (·.granted) →
          (log.take n).map (·.given) = (log₂.take n).map (·.given) ∧
          (log.take (n + 1)).map (·.asked) = (log₂.take (n + 1)).map (·.asked)) ∧
    ∀ {B σ : Type} (bs : Backends B σ) (t : Tracker B) (u : σ),
      Workload.drive bs (start seed allocs every) t u = (start seed allocs every).work (.ofTracker bs) (t, u) := by
  obtain ⟨log, k, s', hchecked, hwork, hsteps, haccounted⟩ := checkedWork_spec sv seed every h s
  refine ⟨⟨log, k, s', hchecked, hwork, haccounted, ?_⟩, fun bs t u => Workload.drive_eq_work bs _ t u⟩
  intro _ sv₂ u _ _ _ hchecked₂ n hgranted
  obtain ⟨_, _, _, hchecked₂', -, hsteps₂, haccounted₂⟩ := checkedWork_spec sv₂ seed every h u
  cases hchecked₂.symm.trans hchecked₂'
  exact Stock.Alike.steps ⟨rfl, rfl⟩ hsteps hsteps₂ (haccounted.length_eq.trans haccounted₂.length_eq.symm) hgranted

/-- A server that refuses every third block.  The others come from a table, and all releases end alike. -/
def sparing (block : Nat → Handle) (outcome : ReleaseOutcome) : Server Nat where
  allocate bytes n := (if n % 3 = 2 then .error (.outOfMemory bytes) else .ok (block n), n + 1)
  zeroAllocate bytes n := (if n % 3 = 2 then .error (.outOfMemory bytes) else .ok (block n), n + 1)
  release _ n := (outcome, n)

/-- One block over and over that is never taken back, and blocks one behind the other that are. -/
theorem work_accounted_sparing :
    7 < wordCount ∧ ∃ log k log₂ k₂,
      checkedWork (sparing (fun _ => Endless.block 0) .untracked) 42 7 2 0 = .ok (log, k, 7) ∧
      checkedWork (sparing Endless.block .released) 42 7 2 0 = .ok (log₂, k₂, 7) ∧
      Stock.Accounted 7 2 log k ∧ k.tally = ⟨5, 2, 0, 3⟩ ∧ k₂.tally = ⟨5, 2, 3, 0⟩ ∧
      log.map (·.granted) = [true, true, false, true, true, false, true] ∧
      log.map (·.given) = log₂.map (·.given) ∧ log.map (·.asked) = log₂.map (·.asked) := by
  have hcount : 7 < wordCount := by decide
  have heval : (checkedWork (sparing (fun _ => Endless.block 0) .untracked) 42 7 2 0).map
      (fun o => (o.1.map (·.granted), o.2.1.tally, o.2.2)) =
        .ok ([true, true, false, true, true, false, true], ⟨5, 2, 0, 3⟩, 7) := by decide +kernel
  have heval₂ : (checkedWork (sparing Endless.block .released) 42 7 2 0).map
      (fun o => (o.1.map (·.granted), o.2.1.tally, o.2.2)) =
        .ok ([true, true, false, true, true, false, true], ⟨5, 2, 3, 0⟩, 7) := by decide +kernel
  obtain ⟨⟨log, k, n, hlog, -, haccounted, halike⟩, -⟩ :=
    work_accounted (sparing (fun _ => Endless.block 0) .untracked) 42 2 hcount 0
  obtain ⟨⟨log₂, k₂, n₂, hlog₂, -, haccounted₂, -⟩, -⟩ :=
    work_accounted (sparing Endless.block .released) 42 2 hcount 0
  rw [hlog] at heval
  rw [hlog₂] at heval₂
  simp only [Except.map, Except.ok.injEq, Prod.mk.injEq] at heval heval₂
  obtain ⟨hgranted, htally, rfl⟩ := heval
  obtain ⟨hgranted₂, htally₂, rfl⟩ := heval₂
  have hall {n : Nat} (hn : 7 ≤ n) : log.take n = log ∧ log₂.take n = log₂ :=
    ⟨List.take_of_length_le (haccounted.length_eq ▸ hn), List.take_of_length_le (haccounted₂.length_eq ▸ hn)⟩
  obtain ⟨h₇, h₇'⟩ := hall (Nat.le_refl 7)
  obtain ⟨h₈, h₈'⟩ := hall (Nat.le_succ 7)
  have hchoices := halike _ 0 hlog₂ 7 (by rw [h₇, h₇', hgranted, hgranted₂])
  rw [h₇, h₇', h₈, h₈'] at hchoices
  exact ⟨hcount, log, k, log₂, k₂, hlog, hlog₂, haccounted, htally, htally₂, hgranted, hchoices⟩

end Worker

end BlockTracker
