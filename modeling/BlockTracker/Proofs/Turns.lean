import BlockTracker.Workload.Run

/-!
# Workers in any order

The operations of a tracker are atomic, so the workers of a workload work in turns: at each turn one of them has its
request served (`Workload.turn`).  A schedule is the list of the workers whose turn it is, and `Workload.runTurns` runs
a workload on a schedule; workers that are not done at its end finish one after the other, so that every order of the
operations is the one of some schedule.  What serving a single worker keeps holds at the end of every schedule
(`Kept.turns`, `Kept.driveAll`).
-/

namespace BlockTracker

namespace Workload

variable {B σ : Type}

/-- Serves the request that a worker waits for. -/
def serve (bs : Backends B σ) (w : Worker) (t : Tracker B) (s : σ) : Worker × Tracker B × σ :=
  match w.request with
  | none => (w, t, s)
  | some (.allocate bytes) =>
    let ⟨result, _, t, s⟩ := t.allocate bs bytes s
    (w.received result, t, s)
  | some (.zeroAllocate bytes) =>
    let ⟨result, _, t, s⟩ := t.zeroAllocate bs bytes s
    (w.received result, t, s)
  | some (.release block) =>
    let ⟨outcome, _, t, s⟩ := t.release bs block s
    (w.returned outcome, t, s)

/-- The turn of a worker; a number that is no worker's changes nothing. -/
def turn (bs : Backends B σ) (i : Nat) (ws : List Worker) (t : Tracker B) (s : σ) : List Worker × Tracker B × σ :=
  match ws[i]? with
  | none => (ws, t, s)
  | some w =>
    let (w, t, s) := serve bs w t s
    (ws.set i w, t, s)

/-- The turns of a schedule. -/
def turns (bs : Backends B σ) : List Nat → List Worker → Tracker B → σ → List Worker × Tracker B × σ
  | [], ws, t, s => (ws, t, s)
  | i :: schedule, ws, t, s =>
    let (ws, t, s) := turn bs i ws t s
    turns bs schedule ws t s

/-- Runs a workload whose workers take turns. -/
def runTurns (bs : Backends B σ) (spec : WorkloadSpec) (schedule : List Nat) (s : σ) :
    Except WorkloadError WorkloadReport := do
  let st ← settings spec
  let ⟨_, _, t, s⟩ := (Tracker.create st).install bs s
  let ⟨before, _, t, s⟩ := t.stats bs s
  let (ws, t, s) := turns bs schedule (workers spec) t s
  let (ws, t, s) := driveAll bs ws t s
  return finish bs spec before ws t s

/-- Without a schedule the workers work one after the other. -/
theorem runTurns_nil (bs : Backends B σ) (spec : WorkloadSpec) (s : σ) : runTurns bs spec [] s = runOn bs spec s := rfl

variable {w : Worker} {bytes : Nat} {block : Handle}

theorem serve_done (bs : Backends B σ) (h : w.request = none) (t : Tracker B) (s : σ) : serve bs w t s = (w, t, s) := by
  rw [serve, h]

theorem serve_allocate (bs : Backends B σ) (h : w.request = some (.allocate bytes)) (t : Tracker B) (s : σ) :
    let o := t.allocate bs bytes s
    serve bs w t s = (w.received o.value, o.tracker, o.state) := by
  rw [serve, h]

theorem serve_zeroAllocate (bs : Backends B σ) (h : w.request = some (.zeroAllocate bytes)) (t : Tracker B) (s : σ) :
    let o := t.zeroAllocate bs bytes s
    serve bs w t s = (w.received o.value, o.tracker, o.state) := by
  rw [serve, h]

theorem serve_release (bs : Backends B σ) (h : w.request = some (.release block)) (t : Tracker B) (s : σ) :
    let o := t.release bs block s
    serve bs w t s = (w.returned o.value, o.tracker, o.state) := by
  rw [serve, h]

theorem drive_of_done (bs : Backends B σ) (h : w.request = none) (t : Tracker B) (s : σ) :
    drive bs w t s = (w, t, s) := by
  rw [drive]
  split
  · rfl
  all_goals next h' => exact absurd (h'.symm.trans h) (by simp)

/-- A worker works by having its requests served. -/
theorem drive_of_request (bs : Backends B σ) (h : w.request ≠ none) (t : Tracker B) (s : σ) :
    drive bs w t s = drive bs (serve bs w t s).1 (serve bs w t s).2.1 (serve bs w t s).2.2 := by
  rw [drive]
  split
  · next h' => exact absurd h' h
  · next h' => rw [serve_allocate bs h']
  · next h' => rw [serve_zeroAllocate bs h']
  · next h' => rw [serve_release bs h']

theorem measure_serve (bs : Backends B σ) (h : w.request ≠ none) (t : Tracker B) (s : σ) :
    (serve bs w t s).1.measure < w.measure := by
  rcases hr : w.request with _ | bytes | bytes | block
  · exact absurd hr h
  · have hlt := w.measure_received (t.allocate bs bytes s).value
    have hw : w.measure = 2 * w.left + 2 := by rw [Worker.measure, hr]
    rw [serve_allocate bs hr, hw]
    exact Nat.lt_succ_of_le hlt
  · have hlt := w.measure_received (t.zeroAllocate bs bytes s).value
    have hw : w.measure = 2 * w.left + 2 := by rw [Worker.measure, hr]
    rw [serve_zeroAllocate bs hr, hw]
    exact Nat.lt_succ_of_le hlt
  · have hlt := w.measure_returned (t.release bs block s).value
    have hw : w.measure = 2 * w.left + 1 := by rw [Worker.measure, hr]
    rw [serve_release bs hr, hw]
    exact Nat.lt_succ_of_le hlt

/-! ### What a turn keeps -/

/-- Serving any one of the workers keeps `I`. -/
def Kept (bs : Backends B σ) (I : List Worker → Tracker B → σ → Prop) : Prop :=
  ∀ ws₁ w ws₂ t s, I (ws₁ ++ w :: ws₂) t s →
    let r := serve bs w t s
    I (ws₁ ++ r.1 :: ws₂) r.2.1 r.2.2

namespace Kept

variable {bs : Backends B σ} {I : List Worker → Tracker B → σ → Prop} {ws : List Worker} {t : Tracker B} {s : σ}

theorem turn (hI : Kept bs I) (i : Nat) (h : I ws t s) :
    let r := Workload.turn bs i ws t s
    I r.1 r.2.1 r.2.2 := by
  unfold Workload.turn
  split
  · exact h
  · next w hw =>
    obtain ⟨hlt, rfl⟩ := List.getElem?_eq_some_iff.1 hw
    have hsplit : ws = ws.take i ++ ws[i] :: ws.drop (i + 1) := by
      rw [List.getElem_cons_drop, List.take_append_drop]
    rw [hsplit] at h
    have := hI _ _ _ t s h
    simp only [List.set_eq_take_append_cons_drop, hlt, ↓reduceIte]
    exact this

theorem turns (hI : Kept bs I) (schedule : List Nat) (h : I ws t s) :
    let r := Workload.turns bs schedule ws t s
    I r.1 r.2.1 r.2.2 := by
  induction schedule generalizing ws t s with
  | nil => exact h
  | cons i schedule ih => exact ih (hI.turn i h)

theorem drive (hI : Kept bs I) {ws₁ ws₂ : List Worker} {w : Worker} (h : I (ws₁ ++ w :: ws₂) t s) :
    let r := Workload.drive bs w t s
    I (ws₁ ++ r.1 :: ws₂) r.2.1 r.2.2 ∧ r.1.request = none := by
  -- by the number of answers that are still to come
  induction hn : w.measure using Nat.strongRecOn generalizing w t s with
  | ind n ih =>
    by_cases hr : w.request = none
    · rw [drive_of_done bs hr]
      exact ⟨h, hr⟩
    · rw [drive_of_request bs hr]
      exact ih _ (hn ▸ measure_serve bs hr t s) (hI ws₁ w ws₂ t s h) rfl

theorem driveAll (hI : Kept bs I) (ws₁ : List Worker) (h : I (ws₁ ++ ws) t s) :
    let r := Workload.driveAll bs ws t s
    I (ws₁ ++ r.1) r.2.1 r.2.2 ∧ ∀ w ∈ r.1, w.request = none := by
  induction ws generalizing ws₁ t s with
  | nil => exact ⟨h, fun w hw => absurd hw List.not_mem_nil⟩
  | cons w ws ih =>
    obtain ⟨hw, hdone⟩ := hI.drive h
    rw [List.append_cons] at hw
    obtain ⟨hws, hrest⟩ := ih _ hw
    rw [List.append_assoc, List.singleton_append] at hws
    refine ⟨hws, ?_⟩
    intro v hv
    rcases List.mem_cons.1 hv with rfl | hv
    · exact hdone
    · exact hrest v hv

end Kept

end Workload

end BlockTracker
