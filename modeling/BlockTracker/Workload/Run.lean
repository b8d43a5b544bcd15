import BlockTracker.Files.Fault
import BlockTracker.Simulation.Endless
import BlockTracker.Total
import BlockTracker.Tracker.Basic
import BlockTracker.Workload.Spec
import BlockTracker.Workload.Worker

/-!
# Running a workload

The workers of a workload share one fresh tracker.  When all are done, the blocks that they still hold are looked up
in the window, the backends are exchanged if the workload asks for it, and the window is collected.  The report
holds the figures before and after and what happened in between.
-/

namespace BlockTracker

structure WorkloadReport where
  spec : WorkloadSpec
  before : Stats
  after : Stats
  allocations : Nat
  failedAllocations : Nat
  releases : Nat
  untrackedReleases : Nat
  outOfWindow : Nat
  drainedBySwap : Nat
  drainedByCollect : Nat
  wrapped : Bool

def WorkloadReport.toJson (r : WorkloadReport) : Json :=
  .object
    [("spec", r.spec.toJson), ("before", r.before.toJson), ("after", r.after.toJson),
     ("allocations", .number r.allocations), ("failed_allocations", .number r.failedAllocations),
     ("releases", .number r.releases), ("untracked_releases", .number r.untrackedReleases),
     ("out_of_window", .number r.outOfWindow), ("drained_by_swap", .number r.drainedBySwap),
     ("drained_by_collect", .number r.drainedByCollect), ("wrapped", .bool r.wrapped)]

/-- Why a workload has no report. -/
inductive WorkloadError
  | config (failure : Failure)
  | noThreads
  | file (fault : FileFault)
  | tableTooLarge
deriving DecidableEq

namespace WorkloadError

def message : WorkloadError → String
  | config failure => "config: " ++ failure.message
  | noThreads => "thread count must be at least 1"
  | file fault => "io: " ++ fault.message
  | tableTooLarge => "capacity overflow"

def dump : WorkloadError → String
  | config failure => Dump.applied "Config" failure.dump
  | noThreads => "NoThreads"
  | file fault => Dump.applied "Io" fault.dump
  | tableTooLarge => "capacity overflow"

end WorkloadError

namespace Workload

variable {B σ : Type}

/-- Lets a worker work against a tracker until it is done. -/
def drive (bs : Backends B σ) (w : Worker) (t : Tracker B) (s : σ) : Worker × Tracker B × σ :=
  match _h : w.request with
  | none => (w, t, s)
  | some (.allocate bytes) =>
    let ⟨result, _, t, s⟩ := t.allocate bs bytes s
    drive bs (w.received result) t s
  | some (.zeroAllocate bytes) =>
    let ⟨result, _, t, s⟩ := t.zeroAllocate bs bytes s
    drive bs (w.received result) t s
  | some (.release block) =>
    let ⟨outcome, _, t, s⟩ := t.release bs block s
    drive bs (w.returned outcome) t s
termination_by w.measure
decreasing_by
  · have := w.measure_received result
    simp only [Worker.measure, _h] at this ⊢
    omega
  · have := w.measure_received result
    simp only [Worker.measure, _h] at this ⊢
    omega
  · have := w.measure_returned outcome
    simp only [Worker.measure, _h] at this ⊢
    omega

/-- The workers of a workload at their start. -/
def workers (spec : WorkloadSpec) : List Worker :=
  (List.range spec.threads).map fun i => .start (WorkloadSpec.workerSeed spec.seed i) (spec.share i) spec.releaseEvery

/-- Lets workers work one after the other. -/
def driveAll (bs : Backends B σ) : List Worker → Tracker B → σ → List Worker × Tracker B × σ
  | [], t, s => ([], t, s)
  | w :: ws, t, s =>
    let (w, t, s) := drive bs w t s
    let (ws, t, s) := driveAll bs ws t s
    (w :: ws, t, s)

/-- The number of blocks that a worker holds and the window does not know. -/
def outOfWindow (t : Tracker B) (w : Worker) : Nat := (w.held.toList.filter fun h => !t.isTracked h).length

/-- Closes a workload whose workers are done. -/
def finish (bs : Backends B σ) (spec : WorkloadSpec) (before : Stats) (ws : List Worker) (t : Tracker B) (s : σ) :
    WorkloadReport :=
  let lost := total (ws.map (outOfWindow t))
  let (bySwap, t, s) := match spec.swapTo with
    | none => (0, t, s)
    | some kind =>
      let o := t.exchange bs (.all (bs.builtin kind)) s
      (o.value, o.tracker, o.state)
  let ⟨byCollect, _, t, s⟩ := t.collect bs s
  let after := (t.stats bs s).value
  let tally := ws.map (·.tally)
  { spec, before, after
    allocations := total (tally.map (·.allocations))
    failedAllocations := total (tally.map (·.failed))
    releases := total (tally.map (·.releases))
    untrackedReleases := total (tally.map (·.untracked))
    outOfWindow := lost
    drainedBySwap := bySwap
    drainedByCollect := byCollect
    wrapped := 0 < after.wraps }

/-- The settings of the tracker that a workload runs on.  Both its table and the list of workers have to fit. -/
def settings (spec : WorkloadSpec) : Except WorkloadError Settings :=
  if spec.threads = 0 then .error .noThreads
  else
    match Settings.default.withCapacity spec.capacity with
    | .error failure => .error (.config failure)
    | .ok st =>
      if Window.fits spec.capacity && spec.crewFits then .ok (st.withKind spec.backend) else .error .tableTooLarge

/-- Runs a workload on given backends. -/
def runOn (bs : Backends B σ) (spec : WorkloadSpec) (s : σ) : Except WorkloadError WorkloadReport := do
  let st ← settings spec
  let ⟨_, _, t, s⟩ := (Tracker.create st).install bs s
  let ⟨before, _, t, s⟩ := t.stats bs s
  let (ws, t, s) := driveAll bs (workers spec) t s
  return finish bs spec before ws t s

/-- Runs a workload on backends that never run out of blocks. -/
def run (spec : WorkloadSpec) : Except WorkloadError WorkloadReport := runOn Endless.backends spec .empty

end Workload

end BlockTracker
