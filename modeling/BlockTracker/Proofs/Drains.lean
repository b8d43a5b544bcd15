import BlockTracker.Proofs.Layout
import BlockTracker.Proofs.Routes
import BlockTracker.Proofs.Soundness

/-!
# Draining and untracking

Draining a window and untracking its blocks one by one come to the same, in whatever order the blocks are untracked.
An untracked block leaves its slot to the last one, so the slots are shuffled on the way; but the slot that the window
leaves is empty, and no slot behind it changes, so that clearing what is left clears what there was (`clear_erase`).
With no block left there is nothing to clear (`clear_eq_self`), which is the end of every order (`untracks_spec`).
-/

namespace BlockTracker

namespace Window

variable {B σ : Type} {w : Window}

/-! ### What is left to clear -/

theorem ext_slot {w w' : Window} (hcap : w.capacity = w'.capacity) (hslot : ∀ i, w.slot i = w'.slot i)
    (hcount : w.count = w'.count) (htotal : w.totalBytes = w'.totalBytes) (hwraps : w.wraps = w'.wraps) : w = w' := by
  obtain ⟨slots, count, totalBytes, wraps⟩ := w
  obtain ⟨slots', count', totalBytes', wraps'⟩ := w'
  obtain rfl : slots = slots' := by
    refine Array.ext hcap fun i hi hi' => ?_
    have h := hslot i
    simp only [slot] at h
    rwa [Array.getElem?_eq_getElem hi, Array.getElem?_eq_getElem hi', Option.join_some, Option.join_some] at h
  cases hcount
  cases htotal
  cases hwraps
  rfl

/-- An empty window has nothing to clear. -/
theorem clear_eq_self (h : w.count = 0) : w.clear = w := by
  obtain ⟨slots, count, totalBytes, wraps⟩ := w
  cases h
  rfl

theorem handles_clear (w : Window) : w.clear.handles = [] := by
  rw [handles, entries_clear, List.map_nil]

/-- Clearing what an erased entry left clears what there was with it. -/
theorem clear_erase (hw : w.WellFormed) (h : Handle) : (w.erase h).2.clear = w.clear := by
  rcases hi : w.idxOf? h with _ | i
  · rw [erase_of_none hi]
  have hlt := hw.lt_of_idxOf? hi
  have hle := hw.count_le
  refine ext_slot ?_ (fun j => ?_) rfl ?_ ?_
  · rw [capacity_clear, capacity_clear, capacity_erase]
  · rw [slot_clear, slot_clear, count_erase_of_some hi, slot_erase_of_some hi (by omega) (by omega)]
    by_cases hj : j < w.count - 1
    · rw [if_pos hj, if_pos (by omega)]
    · rw [if_neg hj]
      by_cases hlast : j = w.count - 1
      · rw [if_pos hlast, if_pos (by omega)]
      · rw [if_neg hlast, if_neg (by omega), if_neg (by omega)]
  · simp only [clear, erase, hi]
  · simp only [clear, erase, hi]

/-! ### One block after the other -/

/-- Untracking a block of the window releases it and leaves the others, and all that there was to clear is still to be
cleared. -/
theorem untrack_of_mem (bs : Backends B σ) (hw : w.WellFormed) {h : Handle} (hm : h ∈ w.handles) (r : Routing B)
    (s : σ) :
    ∃ w', w.untrack bs h r s =
        (.released, w', ⟨r.target, r.live - 1⟩, (bs.serve (r.target.get .release) (.release h) s).2) ∧
      w'.WellFormed ∧ w'.handles.Perm (w.handles.erase h) ∧ w'.clear = w.clear := by
  obtain ⟨e, w', herase, rfl, hentries, -⟩ := hw.erase_of_mem hm
  have hafter : (w.erase e.handle).2 = w' := congrArg Prod.snd herase
  refine ⟨w', ?_, hafter ▸ hw.erase e.handle, ?_, hafter ▸ clear_erase hw e.handle⟩
  · simp only [untrack, herase]
    rfl
  · rw [handles, hentries]
    exact Ledger.handles_swapErase_perm hm

/-- Untracking the blocks of a window in any order releases each of them and leaves the cleared window. -/
theorem untracks_spec (bs : Backends B σ) {t : Table B σ} (hw : t.window.WellFormed) {blocks : List Handle}
    (hp : blocks.Perm t.window.handles) :
    (t.moves bs (blocks.map .untrack)).map (·.reply) = List.replicate blocks.length (.released .released) ∧
    t.after bs (blocks.map .untrack) =
      ⟨t.window.clear, ⟨t.routing.target, t.routing.live - blocks.length⟩,
        (bs.serveAll t.routing.target (blocks.map .release) t.state).2⟩ := by
  induction blocks generalizing t with
  | nil =>
    have hcount : t.window.count = 0 := by
      rw [← hw.length_entries, ← List.length_map (·.handle)]
      exact hp.length_eq.symm
    refine ⟨rfl, ?_⟩
    rw [clear_eq_self hcount]
    rfl
  | cons h blocks ih =>
    obtain ⟨hm, hrest⟩ := List.cons_perm_iff_perm_erase.1 hp
    obtain ⟨w, huntrack, hw', hperm, hclear⟩ := untrack_of_mem bs hw hm t.routing t.state
    have happly : t.apply bs (.untrack h) =
        (.released .released, ⟨w, ⟨t.routing.target, t.routing.live - 1⟩,
          (bs.serve (t.routing.target.get .release) (.release h) t.state).2⟩) := by
      simp only [Table.apply, huntrack]
    obtain ⟨hreplies, hlast⟩ := ih (t := (t.apply bs (.untrack h)).2) (happly ▸ hw') (happly ▸ hrest.trans hperm.symm)
    constructor
    · rw [List.map_cons, Table.moves, List.map_cons, hreplies, List.length_cons, List.replicate_succ]
      exact congrArg (· :: _) (congrArg Prod.fst happly)
    · refine hlast.trans ?_
      rw [happly, List.map_cons, bs.snd_serveAll_cons, List.length_cons, Nat.add_comm, ← Nat.sub_sub]
      exact congrArg (Table.mk · _ _) hclear

/-- Draining a window releases its blocks in slot order and leaves the cleared window. -/
theorem drain_spec (bs : Backends B σ) {t : Table B σ} (hw : t.window.WellFormed) :
    t.apply bs .drain =
      (.drained t.window.count, ⟨t.window.clear, ⟨t.routing.target, t.routing.live - t.window.count⟩,
        (bs.serveAll t.routing.target (t.window.handles.map .release) t.state).2⟩) := by
  simp only [Table.apply, drain_eq, hw.length_entries]

/-- The releases of a list of blocks, as they are logged. -/
private theorem releases_logged (bs : Backends B σ) (target : PerPrimitive B) (blocks : List Handle) (s : σ) :
    (bs.logged.serveAll target (blocks.map .release) (s, [])).2.2.map (fun x => (x.backend, x.call)) =
      blocks.map fun h => (target.release, .release h) := by
  rw [bs.serveAll_logged, List.nil_append, bs.routes_trail, List.map_map]
  rfl

/-- However a window came about and whatever the live count, untracking its blocks in any order comes to the same as
draining it: every one of them is released, the slots, stale ones included, and the counters are the same, and so is the
live count, which stops at 0.  The drain makes its releases in slot order and the others in their own, so that the two
make the same ones, all to the backend in use for releases.  A second drain does nothing. -/
theorem drain_eq_untracks (bs : Backends B σ) (st : Settings) (r₀ : Routing B) (s₀ : σ) (changes : List Change)
    (r : Routing B) (s : σ) (blocks : List Handle) :
    let w := ((Table.mk (create st.capacity) r₀ s₀).after bs changes).window
    blocks.Perm w.handles →
      let t : Table B (σ × List (Served B σ)) := ⟨w, r, s, []⟩
      let drained := t.apply bs.logged .drain
      let untracked := t.after bs.logged (blocks.map .untrack)
      let released (t : Table B (σ × List (Served B σ))) := t.state.2.map fun x => (x.backend, x.call)
      drained.1 = .drained w.count ∧
      (t.moves bs.logged (blocks.map .untrack)).map (·.reply) = List.replicate w.count (.released .released) ∧
      untracked.window = drained.2.window ∧ untracked.window.count = 0 ∧
      untracked.window.totalBytes = w.totalBytes ∧ untracked.window.wraps = w.wraps ∧
      untracked.routing = drained.2.routing ∧ drained.2.routing.live = r.live - w.count ∧
      released drained.2 = w.handles.map (fun h => (r.target.release, .release h)) ∧
      released untracked = blocks.map (fun h => (r.target.release, .release h)) ∧
      (released untracked).Perm (released drained.2) ∧
      drained.2.apply bs.logged .drain = (.drained 0, drained.2) := by
  intro w hp t drained untracked released
  have hw : w.WellFormed := (wellFormed_reached bs st r₀ s₀ changes).1
  have hlen : blocks.length = w.count := by rw [hp.length_eq, handles, List.length_map, hw.length_entries]
  have hdrained : drained = _ := drain_spec bs.logged (t := t) hw
  obtain ⟨hreplies, huntracked⟩ := untracks_spec bs.logged (t := t) hw hp
  have huntracked : untracked = _ := huntracked
  rw [hlen] at huntracked hreplies
  have hreleased : released drained.2 = w.handles.map fun h => (r.target.release, .release h) := by
    rw [hdrained]
    exact releases_logged ..
  have hreleased' : released untracked = blocks.map fun h => (r.target.release, .release h) := by
    rw [huntracked]
    exact releases_logged ..
  have hagain : drained.2.apply bs.logged .drain = (.drained 0, drained.2) := by
    have hempty : drained.2.window.count = 0 ∧ drained.2.window.handles = [] := by
      rw [hdrained]
      exact ⟨rfl, handles_clear w⟩
    rw [drain_spec bs.logged (hdrained ▸ hw.clear), hempty.1, hempty.2, clear_eq_self hempty.1]
    rfl
  refine ⟨congrArg Prod.fst hdrained, hreplies, ?_, ?_, ?_, ?_, ?_, ?_, hreleased, hreleased', ?_, hagain⟩
  · rw [huntracked, hdrained]
  · rw [huntracked]
    rfl
  · rw [huntracked]
    rfl
  · rw [huntracked]
    rfl
  · rw [huntracked, hdrained]
  · rw [hdrained]
  · rw [hreleased, hreleased']
    exact hp.map _

/-- Three entries, two of them for one block, are in a window of four slots that has started over, and only one block
counts as live.  The slot behind the window still holds what the start left in it. -/
theorem drain_eq_untracks_repeated :
    let block (n : Nat) : Handle := ⟨n + 1, Nat.succ_ne_zero n⟩
    let st : Settings := ⟨4, .platform, by decide⟩
    let entry (n : Nat) : Entry := ⟨block n, 8 * n⟩
    let changes : List Change :=
      [.push (entry 0), .push (entry 1), .push (entry 2), .push (entry 3), .push (entry 4), .push (entry 5),
       .push (entry 5)]
    let w := ((Table.mk (create st.capacity) (.uniform .platform) Shelves.empty).after Shelves.backends changes).window
    let blocks := [block 5, block 4, block 5]
    let t : Table Kind (Shelves × List (Served Kind Shelves)) := ⟨w, ⟨.all .system, 1⟩, .empty, []⟩
    let drained := (t.apply Shelves.backends.logged .drain).2
    let untracked := t.after Shelves.backends.logged (blocks.map .untrack)
    blocks.Perm w.handles ∧ untracked.window = drained.window ∧
      drained.window.slots.toList = [none, none, none, some (entry 0)] ∧ drained.routing.live = 0 ∧
      drained.state.2.map (·.call) = [.release (block 4), .release (block 5), .release (block 5)] ∧
      untracked.state.2.map (fun x => (x.backend, x.call)) =
        [(.system, .release (block 5)), (.system, .release (block 4)), (.system, .release (block 5))] := by
  intro block st entry changes w blocks t drained untracked
  subst untracked drained t w
  obtain ⟨-, -, hwindow, -, -, -, -, hlive, -, huntracked, -⟩ :=
    drain_eq_untracks Shelves.backends st (.uniform .platform) .empty changes ⟨.all .system, 1⟩ .empty blocks
      (by decide +kernel)
  refine ⟨?_, hwindow, ?_, ?_, ?_, huntracked⟩
  · decide +kernel
  · decide +kernel
  · rw [hlive]
    decide +kernel
  · decide +kernel

end Window

end BlockTracker
