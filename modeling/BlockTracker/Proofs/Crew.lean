import BlockTracker.Proofs.Accounting
import BlockTracker.Proofs.Ownership
import BlockTracker.Proofs.Turns
import BlockTracker.Proofs.Workers

/-!
# Workers and their tracker

While workers work on a tracker over a sound backend, the blocks that they have are live and distinct, and they are
the blocks of the window together with those that the window has lost by starting over (`Ledger.Shared`).  A block
that is adrift in this way stays live, so its handle is not used again and the window never takes it for another.
Serving a worker keeps all this (`Crew.kept`), in whatever order the workers get their turns.
-/

namespace BlockTracker

variable {B σ : Type}

/-! ### Blocks in the window and blocks adrift -/

namespace Ledger

variable {l : Ledger B} {owned owned' : List Handle} {h : Handle}

/-- The blocks with owners are those of the window and some that are adrift.  With the releases that were ignored,
the blocks adrift make up a full window for every time the window started over. -/
def Shared (l : Ledger B) (owned : List Handle) : Prop :=
  ∃ adrift : List Handle, owned.Perm (l.handles ++ adrift) ∧ adrift.length + l.untrackedReleases = l.capacity * l.wraps

theorem Shared.perm (hs : l.Shared owned) (hp : owned'.Perm owned) : l.Shared owned' := by
  obtain ⟨adrift, hperm, hcount⟩ := hs
  exact ⟨adrift, hp.trans hperm, hcount⟩

theorem Shared.grant (hs : l.Shared owned) (hlen : l.entries.length ≤ l.capacity) (bytes : Nat) (h : Handle) :
    (l.grant bytes (some h)).Shared (h :: owned) := by
  obtain ⟨adrift, hperm, hcount⟩ := hs
  have hcons := hperm.cons h
  by_cases hroom : l.entries.length < l.capacity
  · refine ⟨adrift, ?_, ?_⟩
    · rw [handles_grant_of_room hroom]
      exact hcons.trans ((List.perm_append_singleton h l.handles).symm.append_right adrift)
    · rw [grant_of_room hroom]
      exact hcount
  · -- the blocks that were in the window are adrift now
    refine ⟨l.handles ++ adrift, ?_, ?_⟩
    · rw [handles_grant_of_full hroom]
      exact hcons
    · rw [grant_of_full hroom, List.length_append, length_handles]
      change l.entries.length + adrift.length + l.untrackedReleases = l.capacity * (l.wraps + 1)
      rw [Nat.mul_add, Nat.mul_one]
      omega

theorem Shared.strike (hs : l.Shared owned) (hm : h ∈ l.handles) (hp : owned.Perm (h :: owned')) :
    (l.strike h).Shared owned' := by
  obtain ⟨adrift, hperm, hcount⟩ := hs
  refine ⟨adrift, ?_, ?_⟩
  · have hstrike : l.handles.Perm (h :: (l.strike h).handles) :=
      (List.perm_cons_erase hm).trans ((handles_strike_perm hm).symm.cons h)
    exact (hp.symm.trans (hperm.trans (hstrike.append_right adrift))).cons_inv
  · rw [untrackedReleases_strike, capacity_strike, wraps_strike]
    exact hcount

theorem Shared.ignore (hs : l.Shared owned) (hn : h ∉ l.handles) (hp : owned.Perm (h :: owned')) :
    l.ignore.Shared owned' := by
  obtain ⟨adrift, hperm, hcount⟩ := hs
  have hm : h ∈ adrift := by
    have hm : h ∈ l.handles ++ adrift := hperm.mem_iff.1 (hp.mem_iff.2 List.mem_cons_self)
    exact (List.mem_append.1 hm).resolve_left hn
  have hlen := List.length_erase_of_mem hm
  have hpos := List.length_pos_of_mem hm
  refine ⟨adrift.erase h, ?_, ?_⟩
  · have hmiddle : (l.handles ++ adrift).Perm (h :: (l.handles ++ adrift.erase h)) :=
      ((List.perm_cons_erase hm).append_left l.handles).trans List.perm_middle
    exact (hp.symm.trans (hperm.trans hmiddle)).cons_inv
  · change (adrift.erase h).length + (l.untrackedReleases + 1) = l.capacity * l.wraps
    omega

end Ledger

/-! ### The crew of a workload -/

/-- Workers with their tasks on a ledger whose one backend has the blocks of `live`. -/
structure Crew (tasks : List (Nat × Nat)) (capacity : Nat) (b : B) (live : Set Handle) (ws : List Worker)
    (l : Ledger B) : Prop where
  tasks_eq : ws.map Worker.task = tasks
  workers : ∀ w ∈ ws, w.Balanced
  capacity_eq : l.capacity = capacity
  target_eq : l.target = .all b
  balanced : l.Balanced
  drained_eq : l.drainedTotal = 0
  owns : Owns live (ws.flatMap Worker.owned)
  shared : l.Shared (ws.flatMap Worker.owned)
  untracked_eq : total (ws.map (·.tally.untracked)) = l.untrackedReleases
  /-- The block that a window starts over with is in the window or has been released from it. -/
  used : l.wraps = 0 ∨ 0 < l.entries.length + total (ws.map (·.tally.releases))

namespace Crew

variable {tasks : List (Nat × Nat)} {capacity : Nat} {b : B} {live live' : Set Handle} {ws₁ ws₂ : List Worker}
  {w w' : Worker} {l : Ledger B} {h : Handle}

private theorem owned_perm {xs : List Handle} (hp : w'.owned.Perm (xs ++ w.owned)) (ws₁ ws₂ : List Worker) :
    ((ws₁ ++ w' :: ws₂).flatMap Worker.owned).Perm (xs ++ (ws₁ ++ w :: ws₂).flatMap Worker.owned) := by
  simp only [List.flatMap_append, List.flatMap_cons]
  refine ((hp.append_right _).append_left _).trans ?_
  simp only [← List.append_assoc]
  exact (List.perm_append_comm.append_right _).append_right _

private theorem total_replace (f : Worker → Nat) (ws₁ ws₂ : List Worker) {n : Nat} (hf : f w' = f w + n) :
    total ((ws₁ ++ w' :: ws₂).map f) = total ((ws₁ ++ w :: ws₂).map f) + n := by
  simp only [total, List.map_append, List.map_cons, List.sum_append_nat, List.sum_cons, hf]
  omega

private theorem workers_replace (hws : ∀ v ∈ ws₁ ++ w :: ws₂, v.Balanced) (hw' : w'.Balanced) :
    ∀ v ∈ ws₁ ++ w' :: ws₂, v.Balanced := by
  intro v hv
  rcases List.mem_append.1 hv with hv | hv
  · exact hws v (List.mem_append_left _ hv)
  · rcases List.mem_cons.1 hv with rfl | hv
    · exact hw'
    · exact hws v (List.mem_append_right _ (List.mem_cons_of_mem w hv))

private theorem tasks_replace (ht : (ws₁ ++ w :: ws₂).map Worker.task = tasks) (hw' : w'.task = w.task) :
    (ws₁ ++ w' :: ws₂).map Worker.task = tasks := by
  rw [← ht]
  simp only [List.map_append, List.map_cons, hw']

private theorem used_grant (l : Ledger B) (bytes : Nat) (block : Handle) :
    0 < (l.grant bytes (some block)).entries.length := by
  by_cases hroom : l.entries.length < l.capacity
  · rw [Ledger.grant_of_room hroom, List.length_append]
    exact Nat.succ_pos _
  · rw [Ledger.grant_of_full hroom]
    exact Nat.succ_pos _

/-- A worker is answered a request for a block. -/
theorem received (hc : Crew tasks capacity b live (ws₁ ++ w :: ws₂) l) (ha : w.awaited = 1) {answer : Option Handle}
    (hg : Grants live live' answer) (bytes : Nat) :
    Crew tasks capacity b live' (ws₁ ++ w.received (Ledger.resultOf bytes answer) :: ws₂) (l.ready.grant bytes answer) := by
  have hw : w.Balanced := hc.workers w (List.mem_append_right _ List.mem_cons_self)
  obtain ⟨hbal, hperm, hreleases, huntracked, htask⟩ := Worker.balanced_received hw ha (Ledger.resultOf bytes answer)
  have howned := owned_perm hperm ws₁ ws₂
  refine ⟨tasks_replace hc.tasks_eq htask, workers_replace hc.workers hbal, ?_, ?_, hc.balanced.ready.grant bytes answer,
    ?_, ?_, ?_, ?_, ?_⟩
  · rw [Ledger.capacity_grant]
    exact hc.capacity_eq
  · rw [Ledger.target_grant]
    exact hc.target_eq
  · rw [Ledger.drainedTotal_grant]
    exact hc.drained_eq
  · cases answer with
    | none => exact hg ▸ hc.owns.perm howned.symm
    | some block =>
      obtain ⟨hn, rfl⟩ := hg
      exact (hc.owns.cons hn).perm howned.symm
  · cases answer with
    | none => exact hc.shared.perm howned
    | some block =>
      have hshared : l.ready.Shared ((ws₁ ++ w :: ws₂).flatMap Worker.owned) := hc.shared
      exact (hshared.grant hc.balanced.length_le bytes block).perm howned
  · rw [Ledger.untrackedReleases_grant, total_replace (·.tally.untracked) ws₁ ws₂ (n := 0) huntracked]
    exact hc.untracked_eq
  · rw [total_replace (·.tally.releases) ws₁ ws₂ (n := 0) hreleases]
    cases answer with
    | none => exact hc.used
    | some block =>
      have := used_grant l.ready bytes block
      right
      omega

/-- The blocks that are left when a worker has given one back. -/
private theorem owned_returned (hw : w.Balanced) (hr : w.request = some (.release h)) (outcome : ReleaseOutcome)
    (ws₁ ws₂ : List Worker) :
    ((ws₁ ++ w :: ws₂).flatMap Worker.owned).Perm (h :: (ws₁ ++ w.returned outcome :: ws₂).flatMap Worker.owned) := by
  have heq := (Worker.balanced_returned hw hr outcome).2.1
  have hp : w.owned.Perm ([h] ++ (w.returned outcome).owned) := .of_eq heq
  exact owned_perm hp ws₁ ws₂

/-- A worker gives a block back that is in the window. -/
theorem released (hc : Crew tasks capacity b live (ws₁ ++ w :: ws₂) l) (hr : w.request = some (.release h))
    (hm : h ∈ l.handles) :
    Crew tasks capacity b (live \ {h}) (ws₁ ++ w.returned .released :: ws₂) (l.ready.strike h) := by
  have hw : w.Balanced := hc.workers w (List.mem_append_right _ List.mem_cons_self)
  obtain ⟨hbal, -, hreleases, huntracked, htask⟩ := Worker.balanced_returned hw hr .released
  have howned := owned_returned hw hr .released ws₁ ws₂
  refine ⟨tasks_replace hc.tasks_eq htask, workers_replace hc.workers hbal, ?_, ?_, hc.balanced.ready.strike h,
    ?_, ?_, ?_, ?_, ?_⟩
  · rw [Ledger.capacity_strike]
    exact hc.capacity_eq
  · rw [Ledger.target_strike]
    exact hc.target_eq
  · rw [Ledger.drainedTotal_strike]
    exact hc.drained_eq
  · -- the other owned blocks are different from this one
    have herase := (hc.owns.perm howned).erase h
    rwa [List.erase_cons_head] at herase
  · have hshared : l.ready.Shared ((ws₁ ++ w :: ws₂).flatMap Worker.owned) := hc.shared
    exact hshared.strike hm howned
  · rw [Ledger.untrackedReleases_strike, total_replace (·.tally.untracked) ws₁ ws₂ (n := 0) huntracked]
    exact hc.untracked_eq
  · rw [total_replace (·.tally.releases) ws₁ ws₂ (n := 1) hreleases]
    right
    omega

/-- A worker gives a block back that is adrift. -/
theorem ignored (hc : Crew tasks capacity b live (ws₁ ++ w :: ws₂) l) (hr : w.request = some (.release h))
    (hn : h ∉ l.handles) : Crew tasks capacity b live (ws₁ ++ w.returned .untracked :: ws₂) l.ready.ignore := by
  have hw : w.Balanced := hc.workers w (List.mem_append_right _ List.mem_cons_self)
  obtain ⟨hbal, -, hreleases, huntracked, htask⟩ := Worker.balanced_returned hw hr .untracked
  have howned := owned_returned hw hr .untracked ws₁ ws₂
  refine ⟨tasks_replace hc.tasks_eq htask, workers_replace hc.workers hbal, hc.capacity_eq, hc.target_eq,
    hc.balanced.ready.ignore, hc.drained_eq, ?_, ?_, ?_, ?_⟩
  · exact (hc.owns.perm howned).sublist (List.sublist_cons_self ..)
  · have hshared : l.ready.Shared ((ws₁ ++ w :: ws₂).flatMap Worker.owned) := hc.shared
    exact hshared.ignore hn howned
  · rw [total_replace (·.tally.untracked) ws₁ ws₂ (n := 1) huntracked, hc.untracked_eq]
    rfl
  · rw [total_replace (·.tally.releases) ws₁ ws₂ (n := 0) hreleases]
    exact hc.used

/-! ### A turn -/

variable {bs : Backends B σ} {t : Tracker B}

/-- A request for a new block, with one call to the one backend in use. -/
private theorem request_spec (hw : t.window.WellFormed) (htarget : (t.ledger bs).target = .all b) (op : Operation B)
    (s : σ) {c : Call} {bytes : Nat} {value : Except Failure Handle} (hcalls : (t.ledger bs).calls op = [c])
    (hreply : ∀ answer, (t.ledger bs).reply bs op answer = .block (Ledger.resultOf bytes answer))
    (hupdate : ∀ answer, (t.ledger bs).update op answer = (t.ledger bs).ready.grant bytes answer)
    (hvalue : (t.perform bs op s).value = .block value) :
    let r := bs.serve b c s
    value = Ledger.resultOf bytes r.1 ∧
      (t.perform bs op s).tracker.ledger bs = (t.ledger bs).ready.grant bytes r.1 ∧
      (t.perform bs op s).state = r.2 := by
  obtain ⟨hanswer, hledger, hstate⟩ := Tracker.perform_spec bs hw op s
  rw [hcalls, htarget, Backends.serveAll_one] at hanswer hledger hstate
  rw [hvalue, hreply] at hanswer
  rw [hupdate] at hledger
  exact ⟨Answer.block.inj hanswer, hledger, hstate⟩

private theorem release_spec (hw : t.window.WellFormed) (htarget : (t.ledger bs).target = .all b) (h : Handle) (s : σ) :
    let l := t.ledger bs
    let o := t.release bs h s
    (h ∈ l.handles →
      o.value = .released ∧ o.tracker.ledger bs = l.ready.strike h ∧ o.state = (bs.serve b (.release h) s).2) ∧
    (h ∉ l.handles → o.value = .untracked ∧ o.tracker.ledger bs = l.ready.ignore ∧ o.state = s) := by
  obtain ⟨hanswer, hledger, hstate⟩ := Tracker.perform_spec bs hw (.release h) s
  constructor
  · intro hm
    simp only [Ledger.calls, Ledger.reply, Ledger.update, hm, ↓reduceIte, htarget,
      Backends.serveAll_one] at hanswer hledger hstate
    exact ⟨Answer.release.inj hanswer, hledger, hstate⟩
  · intro hn
    simp only [Ledger.calls, Ledger.reply, Ledger.update, hn, ↓reduceIte] at hanswer hledger hstate
    exact ⟨Answer.release.inj hanswer, hledger, hstate⟩

/-- Serving one of the workers of a crew keeps the crew. -/
theorem kept (live : σ → Set Handle) (hs : bs.SoundOn (·.primitive ≠ .reallocate) live b) :
    Workload.Kept bs fun ws t s => t.window.WellFormed ∧ Crew tasks capacity b (live s) ws (t.ledger bs) := by
  intro ws₁ w ws₂ t s h
  obtain ⟨hw, hc⟩ := h
  rcases hr : w.request with _ | bytes | bytes | block
  · rw [Workload.serve_done bs hr]
    exact ⟨hw, hc⟩
  · have ha : w.awaited = 1 := by rw [Worker.awaited, hr]
    have hw' : (t.allocate bs bytes s).tracker.window.WellFormed := Tracker.wellFormed_perform hw (.allocate bytes) s
    obtain ⟨hvalue, hledger, hstate⟩ :=
      request_spec hw hc.target_eq (.allocate bytes) s rfl (fun _ => rfl) (fun _ => rfl) rfl
    have hc' := hc.received ha (hs (.allocate bytes) s (by simp [Call.primitive])) bytes
    rw [← hvalue, ← hledger, ← hstate] at hc'
    rw [Workload.serve_allocate bs hr]
    exact ⟨hw', hc'⟩
  · have ha : w.awaited = 1 := by rw [Worker.awaited, hr]
    have hw' : (t.zeroAllocate bs bytes s).tracker.window.WellFormed :=
      Tracker.wellFormed_perform hw (.zeroAllocate bytes) s
    obtain ⟨hvalue, hledger, hstate⟩ :=
      request_spec hw hc.target_eq (.zeroAllocate bytes) s rfl (fun _ => rfl) (fun _ => rfl) rfl
    have hc' := hc.received ha (hs (.zeroAllocate bytes) s (by simp [Call.primitive])) bytes
    rw [← hvalue, ← hledger, ← hstate] at hc'
    rw [Workload.serve_zeroAllocate bs hr]
    exact ⟨hw', hc'⟩
  · have hw' : (t.release bs block s).tracker.window.WellFormed := Tracker.wellFormed_perform hw (.release block) s
    obtain ⟨hin, hout⟩ := release_spec hw hc.target_eq block s
    rw [Workload.serve_release bs hr]
    refine ⟨hw', ?_⟩
    by_cases hm : block ∈ (t.ledger bs).handles
    · obtain ⟨hvalue, hledger, hstate⟩ := hin hm
      have howned : block ∈ (ws₁ ++ w :: ws₂).flatMap Worker.owned := by
        have hwo : block ∈ w.owned := by
          rw [Worker.owned, hr]
          exact List.mem_cons_self
        exact List.mem_flatMap.2 ⟨w, List.mem_append_right _ List.mem_cons_self, hwo⟩
      have hlive : live (bs.serve b (.release block) s).2 = live s \ {block} :=
        hs (.release block) s (by simp [Call.primitive]) (hc.owns.mem_live block howned)
      have hc' := hc.released hr hm
      rw [← hlive, ← hledger, ← hvalue, ← hstate] at hc'
      exact hc'
    · obtain ⟨hvalue, hledger, hstate⟩ := hout hm
      have hc' := hc.ignored hr hm
      rw [← hledger, ← hvalue] at hc'
      simp only [hstate]
      exact hc'

end Crew

end BlockTracker
