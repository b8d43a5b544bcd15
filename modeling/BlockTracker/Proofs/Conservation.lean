import BlockTracker.Proofs.Crew
import Mathlib.Algebra.BigOperators.Group.List.Basic

/-!
# What a workload reports

The figures of a workload report add up, whatever the order of the turns (`WorkloadReport.Conserved`): every allocation
was granted or failed, every block that was granted was released, drained or lost, and the blocks lost are those of
the windows that started over.  This takes a backend that is sound for the calls of the workers; it may fail any of
them (`report_conserved`).
-/

namespace BlockTracker

variable {B σ : Type}

/-- The figures of a report add up.  A number of releases of 0 per allocation counts as none, as division by 0 does. -/
structure WorkloadReport.Conserved (spec : WorkloadSpec) (r : WorkloadReport) : Prop where
  allocs_eq : r.allocations + r.failedAllocations = spec.allocs
  blocks_eq : r.allocations = r.releases + r.untrackedReleases + r.outOfWindow + r.drainedBySwap + r.drainedByCollect
  lost_eq : r.outOfWindow + r.untrackedReleases = spec.capacity * r.after.wraps
  live_eq : r.after.backendLive = spec.capacity * r.after.wraps
  tracked_eq : r.after.tracked = 0
  drained_eq : r.after.drainedTotal = r.drainedBySwap + r.drainedByCollect
  untracked_eq : r.after.untrackedReleases = r.untrackedReleases
  collect_eq : spec.swapTo ≠ none → r.drainedByCollect = 0
  releases_eq : r.failedAllocations = 0 →
    r.releases + r.untrackedReleases = total ((List.range spec.threads).map fun i => spec.share i / spec.releaseEvery)
  wrapped_eq : spec.allocs ≤ spec.capacity → r.wrapped = false ∧ r.untrackedReleases = 0 ∧ r.outOfWindow = 0

namespace Workload

/-! ### Shares -/

/-- The shares of the workers add up to all allocations. -/
theorem total_share {spec : WorkloadSpec} (h : 0 < spec.threads) :
    total ((List.range spec.threads).map spec.share) = spec.allocs := by
  have aux : ∀ n, total ((List.range n).map spec.share) =
      n * (spec.allocs / spec.threads) + min n (spec.allocs % spec.threads) := by
    intro n
    induction n with
    | zero => simp [total]
    | succ n ih =>
      have hsum : total ((List.range (n + 1)).map spec.share) = total ((List.range n).map spec.share) + spec.share n :=
        List.sum_range_succ spec.share n
      rw [hsum, ih, WorkloadSpec.share, Nat.succ_mul]
      split <;> omega
  rw [aux, Nat.min_eq_right (Nat.le_of_lt (Nat.mod_lt _ h))]
  exact Nat.div_add_mod ..

/-! ### From the start to the end -/

/-- The tasks of the workers. -/
def tasks (spec : WorkloadSpec) : List (Nat × Nat) :=
  (List.range spec.threads).map fun i => (spec.share i, spec.releaseEvery)

/-- The workers at their start on a fresh tracker. -/
theorem crew_start (bs : Backends B σ) (spec : WorkloadSpec) {st : Settings} (hcap : st.capacity = spec.capacity)
    (hkind : st.kind = spec.backend) (live : Set Handle) :
    Crew (tasks spec) spec.capacity (bs.builtin spec.backend) live (workers spec) (Ledger.fresh bs st).ready := by
  have hstart : ∀ w ∈ workers spec, w.Balanced ∧ w.owned = [] ∧ w.tally = ⟨0, 0, 0, 0⟩ := by
    intro w hw
    obtain ⟨i, -, rfl⟩ := List.mem_map.1 hw
    obtain ⟨hbal, howned, htally, -⟩ := Worker.balanced_start (WorkloadSpec.workerSeed spec.seed i) (spec.share i)
      spec.releaseEvery
    exact ⟨hbal, howned, htally⟩
  have howned : (workers spec).flatMap Worker.owned = [] := List.flatMap_eq_nil_iff.2 fun w hw => (hstart w hw).2.1
  refine ⟨?_, fun w hw => (hstart w hw).1, hcap, hkind ▸ rfl, ⟨st.capacity_pos, Nat.zero_le _, rfl⟩, rfl, ?_, ?_, ?_,
    .inl rfl⟩
  · rw [workers, List.map_map]
    exact List.map_congr_left fun i _ =>
      (Worker.balanced_start (WorkloadSpec.workerSeed spec.seed i) (spec.share i) spec.releaseEvery).2.2.2
  · rw [howned]
    exact .nil live
  · rw [howned]
    exact ⟨[], .refl [], rfl⟩
  · refine List.sum_eq_zero_iff_forall_eq_nat.2 fun n hn => ?_
    obtain ⟨w, hw, rfl⟩ := List.mem_map.1 hn
    rw [(hstart w hw).2.2]

variable {t : Tracker B}

/-- The end of a workload drains the window, by the exchange if there is one. -/
private theorem finish_spec (bs : Backends B σ) (hw : t.window.WellFormed) (spec : WorkloadSpec) (before : Stats)
    (ws : List Worker) (s : σ) :
    let l := t.ledger bs
    let r := finish bs spec before ws t s
    r.drainedBySwap + r.drainedByCollect = l.entries.length ∧ (spec.swapTo ≠ none → r.drainedByCollect = 0) ∧
      r.after.tracked = 0 ∧ r.after.backendLive = l.live - l.entries.length ∧ r.after.wraps = l.wraps ∧
      r.after.untrackedReleases = l.untrackedReleases ∧
      r.after.drainedTotal = l.drainedTotal + l.entries.length := by
  rcases hswap : spec.swapTo with _ | kind
  · obtain ⟨hvalue, hledger, hw'⟩ := Tracker.collect_spec bs hw s
    have hstats := Tracker.stats_spec bs hw' (t.collect bs s).state
    simp only [finish, hswap, hvalue, hstats, hledger]
    exact ⟨Nat.zero_add _, fun h => absurd rfl h, rfl, rfl, rfl, rfl, rfl⟩
  · obtain ⟨hswapped, hledger₁, hw₁⟩ := Tracker.exchange_spec bs hw (.all (bs.builtin kind)) s
    obtain ⟨hvalue, hledger₂, hw₂⟩ := Tracker.collect_spec bs hw₁ (t.exchange bs (.all (bs.builtin kind)) s).state
    have hstats := Tracker.stats_spec bs hw₂ ((t.exchange bs (.all (bs.builtin kind)) s).tracker.collect bs
      (t.exchange bs (.all (bs.builtin kind)) s).state).state
    simp only [finish, hswap, hvalue, hstats, hledger₂, hledger₁, hswapped]
    exact ⟨rfl, fun _ => rfl, rfl, rfl, rfl, rfl, rfl⟩

/-! ### Totals -/

section Totals

variable {ts : List (Nat × Nat)} {capacity : Nat} {b : B} {live : Set Handle} {ws : List Worker} {l : Ledger B}

/-- Every allocation of workers that are done was granted or failed. -/
private theorem total_allocations (hc : Crew ts capacity b live ws l) (hd : ∀ w ∈ ws, w.request = none) :
    total (ws.map (·.tally.allocations)) + total (ws.map (·.tally.failed)) = total (ts.map (·.1)) := by
  rw [← hc.tasks_eq, List.map_map]
  refine List.sum_map_add.symm.trans (congrArg total (List.map_congr_left fun w hw => ?_))
  have hallocs := (hc.workers w hw).allocs_eq
  have hleft := (hc.workers w hw).left_eq (hd w hw)
  have hawaited : w.awaited = 0 := by rw [Worker.awaited, hd w hw]
  change w.tally.allocations + w.tally.failed = w.allocs
  omega

/-- Every block that was granted has an owner or was given back. -/
private theorem total_blocks (hc : Crew ts capacity b live ws l) :
    total (ws.map (·.tally.allocations)) =
      total (ws.map (·.tally.releases)) + total (ws.map (·.tally.untracked)) + (ws.flatMap Worker.owned).length := by
  simp only [total, List.length_flatMap, ← List.sum_map_add]
  exact congrArg List.sum (List.map_congr_left fun w hw => (hc.workers w hw).owned_eq)

/-- Workers that are done and were never refused have given back as many blocks as their tasks say. -/
private theorem total_releases (hc : Crew ts capacity b live ws l) (hd : ∀ w ∈ ws, w.request = none)
    (hf : total (ws.map (·.tally.failed)) = 0) :
    total (ws.map (·.tally.releases)) + total (ws.map (·.tally.untracked)) = total (ts.map fun p => p.1 / p.2) := by
  rw [← hc.tasks_eq, List.map_map]
  refine List.sum_map_add.symm.trans (congrArg total (List.map_congr_left fun w hw => ?_))
  have hzero : w.tally.failed = 0 := List.sum_eq_zero_iff_forall_eq_nat.1 hf _ (List.mem_map_of_mem hw)
  have hdue := (hc.workers w hw).due_eq hzero
  have hleft := (hc.workers w hw).left_eq (hd w hw)
  have hawaited : w.awaited = 0 := by rw [Worker.awaited, hd w hw]
  have hreturning : w.returning = 0 := by rw [Worker.returning, hd w hw]
  rw [hreturning, hleft, hawaited] at hdue
  exact hdue

/-- The blocks that the window does not know are those adrift. -/
private theorem total_lost {bs : Backends B σ} {t : Tracker B} (hw : t.window.WellFormed)
    (hc : Crew ts capacity b live ws (t.ledger bs)) (hd : ∀ w ∈ ws, w.request = none) :
    total (ws.map (outOfWindow t)) + t.untrackedReleases = capacity * t.window.wraps ∧
      (ws.flatMap Worker.owned).length = (t.ledger bs).entries.length + total (ws.map (outOfWindow t)) := by
  obtain ⟨adrift, hperm, hcount⟩ := hc.shared
  have htracked : ∀ h, (!t.isTracked h) = true ↔ h ∉ (t.ledger bs).handles := by
    intro h
    rw [Tracker.isTracked, hw.contains_eq, Bool.not_eq_true', decide_eq_false_iff_not]
    rfl
  have hsum : total (ws.map (outOfWindow t)) = ((ws.flatMap Worker.owned).filter fun h => !t.isTracked h).length := by
    rw [List.filter_flatMap, List.length_flatMap]
    refine congrArg total (List.map_congr_left fun w hw => ?_)
    rw [outOfWindow, Worker.owned, hd w hw]
  -- of the owned blocks, those of the window are sorted out, and those adrift are not
  have hnone : ((t.ledger bs).handles.filter fun h => !t.isTracked h) = [] :=
    List.filter_eq_nil_iff.2 fun h hm hn => (htracked h).1 hn hm
  have hall : (adrift.filter fun h => !t.isTracked h) = adrift := by
    have hdisjoint := (List.nodup_append.1 (hc.owns.perm hperm).nodup).2.2
    exact List.filter_eq_self.2 fun h hm => (htracked h).2 fun hin => hdisjoint h hin h hm rfl
  have hlost : total (ws.map (outOfWindow t)) = adrift.length := by
    rw [hsum, (hperm.filter _).length_eq, List.filter_append, hnone, hall, List.nil_append]
  constructor
  · rw [hlost, ← hc.capacity_eq]
    exact hcount
  · rw [hlost, hperm.length_eq, List.length_append, Ledger.length_handles]

end Totals

/-! ### The report -/

/-- A window with room for all allocations never starts over: it would have taken one block more than a full window. -/
private theorem wraps_eq_zero {ts : List (Nat × Nat)} {capacity : Nat} {b : B} {live : Set Handle} {ws : List Worker}
    {l : Ledger B} {lost : Nat} (hc : Crew ts capacity b live ws l)
    (hlost : lost + l.untrackedReleases = capacity * l.wraps)
    (howned : (ws.flatMap Worker.owned).length = l.entries.length + lost)
    (hroom : total (ws.map (·.tally.allocations)) ≤ capacity) : l.wraps = 0 := by
  -- a window that has started over has lost a full window and holds or has released one block more
  by_contra hne
  have hblocks := total_blocks hc
  have huntracked := hc.untracked_eq
  have hused := hc.used.resolve_left hne
  have hfull : capacity * 1 ≤ capacity * l.wraps := Nat.mul_le_mul_left _ (Nat.pos_of_ne_zero hne)
  omega

/-- What a workload reports whose workers are done. -/
private theorem conserved_finish {bs : Backends B σ} {spec : WorkloadSpec} {b : B} {live : Set Handle}
    {ws : List Worker} {t : Tracker B} (hthreads : 0 < spec.threads) (hw : t.window.WellFormed)
    (hc : Crew (tasks spec) spec.capacity b live ws (t.ledger bs)) (hd : ∀ w ∈ ws, w.request = none) (before : Stats)
    (s : σ) : (finish bs spec before ws t s).Conserved spec := by
  have hallocs := total_allocations hc hd
  have hblocks := total_blocks hc
  have hreleases := total_releases hc hd
  have huntracked := hc.untracked_eq
  have hbalance := hc.balanced.live_eq
  have hzero := hc.drained_eq
  obtain ⟨hlost, howned⟩ := total_lost hw hc hd
  obtain ⟨hdrained, hcollect, htracked, hlive, hwraps, huntracked', htotal⟩ := finish_spec bs hw spec before ws s
  have hshare : total ((tasks spec).map (·.1)) = spec.allocs := by
    rw [tasks, List.map_map]
    exact total_share hthreads
  have hdue : ((tasks spec).map fun p => p.1 / p.2) =
      (List.range spec.threads).map fun i => spec.share i / spec.releaseEvery := by
    rw [tasks, List.map_map]
    rfl
  have hallocations : (finish bs spec before ws t s).allocations = total (ws.map (·.tally.allocations)) :=
    congrArg total List.map_map
  have hfailed : (finish bs spec before ws t s).failedAllocations = total (ws.map (·.tally.failed)) :=
    congrArg total List.map_map
  have hreleased : (finish bs spec before ws t s).releases = total (ws.map (·.tally.releases)) :=
    congrArg total List.map_map
  have hignored : (finish bs spec before ws t s).untrackedReleases = total (ws.map (·.tally.untracked)) :=
    congrArg total List.map_map
  have hout : (finish bs spec before ws t s).outOfWindow = total (ws.map (outOfWindow t)) := rfl
  have hwrapped : (finish bs spec before ws t s).wrapped = decide (0 < (finish bs spec before ws t s).after.wraps) := rfl
  change _ + (t.ledger bs).untrackedReleases = _ * (t.ledger bs).wraps at hlost
  rw [hshare] at hallocs
  rw [hdue] at hreleases
  rw [hc.capacity_eq] at hbalance
  generalize finish bs spec before ws t s = r at *
  constructor
  case allocs_eq => rw [hallocations, hfailed, hallocs]
  case blocks_eq => omega
  case lost_eq => rw [hwraps, hout, hignored, huntracked, hlost]
  case live_eq => rw [hwraps, hlive, hbalance, Nat.add_sub_cancel_left]
  case tracked_eq => exact htracked
  case drained_eq => rw [htotal, hzero, Nat.zero_add, hdrained]
  case untracked_eq => rw [huntracked', hignored, huntracked]
  case collect_eq => exact hcollect
  case releases_eq =>
    intro hf
    rw [hreleased, hignored]
    exact hreleases (hfailed ▸ hf)
  case wrapped_eq =>
    intro hroom
    have hnever := wraps_eq_zero hc hlost howned (by omega)
    rw [hnever, Nat.mul_zero] at hlost
    refine ⟨?_, by omega, by omega⟩
    rw [hwrapped, hwraps, hnever]
    rfl

private theorem settings_eq {spec : WorkloadSpec} (hthreads : 0 < spec.threads) (hcapacity : 0 < spec.capacity) :
    settings spec =
      if Window.fits spec.capacity && spec.crewFits then .ok ⟨spec.capacity, spec.backend, hcapacity⟩
      else .error .tableTooLarge := by
  have hwith : Settings.default.withCapacity spec.capacity = .ok ⟨spec.capacity, Settings.default.kind, hcapacity⟩ :=
    dif_pos hcapacity
  simp only [settings, Nat.ne_of_gt hthreads, ↓reduceIte, hwith]
  rfl

/-- A workload with workers and slots that can be laid out has a report, and its figures add up, whatever the order of
the turns and whatever requests the backend fails. -/
theorem report_conserved (bs : Backends B σ) (spec : WorkloadSpec) (live : σ → Set Handle)
    (hthreads : 0 < spec.threads) (hcapacity : 0 < spec.capacity)
    (hs : bs.SoundOn (·.primitive ≠ .reallocate) live (bs.builtin spec.backend)) (schedule : List Nat) (s : σ) :
    if Window.fits spec.capacity && spec.crewFits then
      ∃ r, runTurns bs spec schedule s = .ok r ∧ r.Conserved spec
    else runTurns bs spec schedule s = .error .tableTooLarge := by
  have hsettings := settings_eq hthreads hcapacity
  split
  · next hfits =>
    rw [if_pos hfits] at hsettings
    let st : Settings := ⟨spec.capacity, spec.backend, hcapacity⟩
    have hw₀ : (Tracker.create st : Tracker B).window.WellFormed := .create hcapacity
    have hw₁ : ((Tracker.create st).install bs s).tracker.window.WellFormed := hw₀
    have hledger : (((Tracker.create st).install bs s).tracker.stats bs s).tracker.ledger bs =
        (Ledger.fresh bs st).ready := by
      have hinstall := (Tracker.perform_spec bs hw₀ .install s).2.1
      have hstats := (Tracker.perform_spec bs hw₁ .stats s).2.1
      have hready : (Ledger.fresh bs st).ready.ready = (Ledger.fresh bs st).ready := rfl
      rw [Tracker.ledger_create] at hinstall
      rw [← hready]
      exact hstats.trans (congrArg Ledger.ready hinstall)
    have hstart : Crew (tasks spec) spec.capacity (bs.builtin spec.backend) (live s) (workers spec)
        (Ledger.fresh bs st).ready := crew_start bs spec rfl rfl (live s)
    rw [← hledger] at hstart
    -- the crew is kept by the turns of the schedule, and then by the work that they leave
    have hkept : Kept bs fun ws t s => t.window.WellFormed ∧
        Crew (tasks spec) spec.capacity (bs.builtin spec.backend) (live s) ws (t.ledger bs) := Crew.kept live hs
    obtain ⟨⟨hw, hc⟩, hd⟩ := hkept.driveAll [] (hkept.turns schedule ⟨hw₁, hstart⟩)
    refine ⟨_, by rw [runTurns, hsettings]; rfl, ?_⟩
    exact conserved_finish hthreads hw hc hd _ _
  · next hfits =>
    rw [if_neg hfits] at hsettings
    rw [runTurns, hsettings]
    rfl

/-- Two workers on a window of two slots, over a shelf that refuses large blocks. -/
theorem report_conserved_shelves :
    let spec : WorkloadSpec := ⟨2, .platform, 12, 2, some .system, 2, 7⟩
    ∃ r, runTurns Shelves.backends spec [1, 0, 0, 1, 1, 1, 0] .empty = .ok r ∧ r.Conserved spec := by
  intro spec
  have h := report_conserved Shelves.backends spec (Shelves.live .platform) (by decide) (by decide)
    (fun c s _ => Shelves.sound .platform c s trivial) [1, 0, 0, 1, 1, 1, 0] .empty
  have hfits : (Window.fits spec.capacity && spec.crewFits) = true := by decide
  rwa [if_pos hfits] at h

end Workload

end BlockTracker
