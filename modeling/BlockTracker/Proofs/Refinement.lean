import BlockTracker.Proofs.Ledger

/-!
# A tracker keeps its ledger

`Tracker.ledger` forgets the slots of a tracker.  As long as the window is well formed, an operation of the tracker
does to the ledger what the ledger does by itself: it makes the same calls, gives the same answer and leads to the
same ledger (`view_perform`).  So the slots, stale ones included, never show, and from a fresh tracker every run is a
run of the ledger (`run_eq_ledger_run`).
-/

namespace BlockTracker

variable {B σ α : Type}

/-- What a tracker stands for. -/
def Tracker.ledger (bs : Backends B σ) (t : Tracker B) : Ledger B where
  capacity := t.window.capacity
  entries := t.window.entries
  totalBytes := t.window.totalBytes
  wraps := t.window.wraps
  untrackedReleases := t.untrackedReleases
  drainedTotal := t.drainedTotal
  swaps := t.swaps
  live := (t.routing bs).live
  target := (t.routing bs).target
  installed := t.selection.isInstalled

/-- What an outcome shows: the answer, the ledger and the state of the backends. -/
def Outcome.view (bs : Backends B σ) (o : Outcome B σ α) : α × Ledger B × σ := (o.value, o.tracker.ledger bs, o.state)

/-! ### The window -/

namespace Window

variable {w : Window}

/-- Looking a handle up in the slots finds it where it stands in the list of handles. -/
theorem WellFormed.idxOf?_eq_idxOf (hw : w.WellFormed) (h : Handle) :
    w.idxOf? h = if h ∈ w.handles then some (w.handles.idxOf h) else none := by
  have e : (fun e : Entry => decide (e.handle = h)) = (fun x => x == h) ∘ (·.handle) := by
    funext x
    rfl
  rw [hw.idxOf?_eq, e, ← List.findIdx?_map]
  change List.findIdx? (· == h) w.handles = _
  split
  · next hm =>
    rw [List.findIdx?_eq_some_iff_findIdx_eq]
    exact ⟨List.idxOf_lt_length_of_mem hm, rfl⟩
  · next hm =>
    rw [List.findIdx?_eq_none_iff]
    intro x hx
    simp only [beq_eq_false_iff_ne, ne_eq]
    exact fun hxh => hm (hxh ▸ hx)

theorem WellFormed.contains_eq (hw : w.WellFormed) (h : Handle) : w.contains h = decide (h ∈ w.handles) := by
  rw [contains, hw.idxOf?_eq_idxOf]
  split <;> simp [*]

/-- What is left of a window when the first entry for `h` is gone. -/
theorem WellFormed.erase_of_mem (hw : w.WellFormed) {h : Handle} (hm : h ∈ w.handles) :
    ∃ e w', w.erase h = (some e, w') ∧ e.handle = h ∧ w'.entries = swapErase (w.handles.idxOf h) w.entries ∧
      w'.capacity = w.capacity ∧ w'.totalBytes = w.totalBytes ∧ w'.wraps = w.wraps := by
  have hi := hw.idxOf?_eq_idxOf h
  rw [if_pos hm] at hi
  have hlt := List.idxOf_lt_length_of_mem hm
  have hget : w.handles[w.handles.idxOf h]? = some h := by
    rw [List.getElem?_eq_getElem hlt, List.getElem_idxOf hlt]
  rw [handles, List.getElem?_map, ← handles, Option.map_eq_some_iff] at hget
  obtain ⟨e, he, heh⟩ := hget
  rw [← fst_erase_of_some hw hi] at he
  refine ⟨e, (w.erase h).2, Prod.ext he rfl, heh, entries_erase_of_some hw hi, capacity_erase w h, ?_, ?_⟩
  · simp only [Window.erase, hi]
  · simp only [Window.erase, hi]

theorem WellFormed.erase_of_notMem (hw : w.WellFormed) {h : Handle} (hm : h ∉ w.handles) : w.erase h = (none, w) := by
  have hi := hw.idxOf?_eq_idxOf h
  rw [if_neg hm] at hi
  exact erase_of_none hi

/-- What becomes of a window when the first entry for `old`, if there is one, is replaced. -/
theorem WellFormed.replace_spec (hw : w.WellFormed) (old : Handle) (e : Entry) :
    ∃ known w', w.replace old e = (known, w') ∧ w'.entries = w.entries.set (w.handles.idxOf old) e ∧
      w'.capacity = w.capacity ∧ w'.totalBytes = w.totalBytes ∧ w'.wraps = w.wraps := by
  have hi := hw.idxOf?_eq_idxOf old
  by_cases hm : old ∈ w.handles
  · rw [if_pos hm] at hi
    refine ⟨_, _, rfl, entries_replace_of_some hw hi e, capacity_replace w old e, ?_, ?_⟩
    · simp only [hi]
    · simp only [hi]
  · rw [if_neg hm] at hi
    have hlen : w.handles.idxOf old = w.entries.length := by rw [List.idxOf_eq_length hm, handles, List.length_map]
    refine ⟨false, w, replace_of_none hi e, ?_, rfl, rfl, rfl⟩
    rw [hlen, List.set_eq_of_length_le (Nat.le_refl _)]

end Window

/-! ### Releases -/

/-- Releasing blocks one after the other only makes the calls and counts them. -/
theorem Routing.releaseAll_eq (bs : Backends B σ) (blocks : List Handle) (r : Routing B) (s : σ) :
    r.releaseAll bs blocks s =
      (⟨r.target, r.live - blocks.length⟩, (bs.serveAll r.target (blocks.map .release) s).2) := by
  induction blocks generalizing r s with
  | nil => rfl
  | cons h hs ih =>
    have hcons : r.releaseAll bs (h :: hs) s =
        releaseAll bs hs ⟨r.target, r.live - 1⟩ (bs.serve (r.target.get .release) (.release h) s).2 := rfl
    rw [hcons, ih, List.map_cons, bs.snd_serveAll_cons, List.length_cons, Nat.sub_sub, Nat.add_comm 1]
    rfl

/-- Draining releases the handles in order. -/
theorem Window.drain_eq (bs : Backends B σ) (w : Window) (r : Routing B) (s : σ) :
    w.drain bs r s =
      (w.entries.length, w.clear, ⟨r.target, r.live - w.entries.length⟩,
        (bs.serveAll r.target (w.handles.map .release) s).2) := by
  simp only [drain, Routing.releaseAll_eq, handles, List.length_map]

/-! ### The operations -/

namespace Tracker

variable {t : Tracker B} {bs : Backends B σ}

/-- A ledger in which some backends have been put in place. -/
private theorem ledger_use (sel : Selection B) (r : Routing B) (w : Window) (untracked drained swaps : Nat) :
    ledger bs ⟨sel.use r, w, untracked, drained, swaps⟩ =
      ⟨w.capacity, w.entries, w.totalBytes, w.wraps, untracked, drained, swaps, r.live, r.target, true⟩ := rfl

/-- A block that was just handed out goes in. -/
private theorem view_takeIn_some {w : Window} (hw : w.WellFormed) (sel : Selection B) (target : PerPrimitive B)
    (live untracked drained swaps : Nat) (op : Primitive) (bytes : Nat) (block : Handle) (s : σ) :
    ((takeIn ⟨sel.use ⟨target, live + 1⟩, w, untracked, drained, swaps⟩ op bytes (some block) s).view bs) =
      (.ok block,
        (Ledger.mk w.capacity w.entries w.totalBytes w.wraps untracked drained swaps live target true).grant bytes
          (some block), s) := by
  have he := Window.entries_push hw ⟨block, bytes⟩
  have hc := Window.capacity_push w ⟨block, bytes⟩
  have hlen := hw.length_entries
  unfold takeIn
  -- the window looks for room at its count, the ledger at the length of its list
  by_cases hlt : w.count < w.capacity
  · simp only [Window.push, hlt, ↓reduceIte] at he hc ⊢
    simp only [Outcome.view, ledger_use, he, hc, Ledger.grant, hlen, hlt, ↓reduceIte]
  · simp only [Window.push, hlt, ↓reduceIte] at he hc ⊢
    simp only [Outcome.view, ledger_use, he, hc, Ledger.grant, hlen, hlt, ↓reduceIte]

/-- A request for a new block makes one call, and the block goes in. -/
private theorem view_request (hw : t.window.WellFormed) {c : Call}
    (hnone : ∀ live, Routing.liveAfter live c none = live)
    (hsome : ∀ live block, Routing.liveAfter live c (some block) = live + 1) (s : σ) :
    (t.request bs c s).view bs =
      let r := bs.serve ((t.ledger bs).target.get c.primitive) c s
      (Ledger.resultOf c.bytes r.1, (t.ledger bs).ready.grant c.bytes r.1, r.2) := by
  rcases hr : bs.serve ((t.ledger bs).target.get c.primitive) c s with ⟨answer, s'⟩
  -- a first request installs the routing that the ledger shows all along
  have hcall : t.selection.call bs c s =
      (answer, t.selection.use ⟨(t.routing bs).target, Routing.liveAfter (t.routing bs).live c answer⟩, s') := by
    unfold ledger routing at hr
    simp only [Selection.call, Routing.call, hr, routing]
  simp only [request, hcall]
  cases answer with
  | none => rw [hnone]; rfl
  | some block => rw [hsome]; exact view_takeIn_some hw ..

/-- A block that a resize to nothing gave back is struck off. -/
private theorem view_vanished {w : Window} (hw : w.WellFormed) (sel : Selection B) (r : Routing B)
    (untracked drained swaps : Nat) (old : Handle) (s : σ) :
    (vanished bs ⟨sel.use r, w, untracked, drained, swaps⟩ old s).view bs =
      (.error (.outOfMemory 0),
        (Ledger.mk w.capacity w.entries w.totalBytes w.wraps untracked drained swaps r.live r.target true).strike old,
        s) := by
  by_cases hm : old ∈ w.handles
  · obtain ⟨e, w', her, -, he, hc, hb, hn⟩ := hw.erase_of_mem hm
    rw [Ledger.strike_of_mem hm]
    simp only [vanished, her, Outcome.view, ledger_use, he, hc, hb, hn]
    rfl
  · rw [Ledger.strike_of_notMem hm]
    simp only [vanished, hw.erase_of_notMem hm, Outcome.view, ledger_use]

/-- Resizing makes one call, and the entry of the block follows its answer. -/
private theorem view_resize (hw : t.window.WellFormed) (old : Handle) (bytes : Nat) (s : σ) :
    (t.resize bs old bytes s).view bs =
      let r := bs.serve ((t.ledger bs).target.get .reallocate) (.reallocate (some old) bytes) s
      (Ledger.resultOf bytes r.1, (t.ledger bs).update (.reallocate (some old) bytes) r.1, r.2) := by
  rcases hr : bs.serve ((t.ledger bs).target.get .reallocate) (.reallocate (some old) bytes) s with ⟨answer, s'⟩
  have hcall : t.selection.call bs (.reallocate (some old) bytes) s = (answer, t.selection.use (t.routing bs), s') := by
    unfold ledger routing at hr
    simp only [Selection.call, Routing.call, Call.primitive, hr, routing]
    cases answer <;> rfl
  simp only [resize, hcall]
  cases answer with
  | some new =>
    obtain ⟨known, w, hrep, he, hc, hb, hn⟩ := hw.replace_spec old ⟨new, bytes⟩
    simp only [moved, hrep, Outcome.view, ledger_use, he, hc, hb, hn]
    rfl
  | none =>
    by_cases hz : bytes = 0
    · subst hz
      exact view_vanished hw ..
    · simp only [hz, ↓reduceIte, Ledger.update]
      rfl

private theorem view_release (hw : t.window.WellFormed) (h : Handle) (s : σ) :
    (t.release bs h s).view bs =
      if h ∈ (t.ledger bs).handles then
        (.released, (t.ledger bs).ready.strike h,
          (bs.serve ((t.ledger bs).target.get .release) (.release h) s).2)
      else (.untracked, (t.ledger bs).ready.ignore, s) := by
  by_cases hm : h ∈ (t.ledger bs).handles
  · obtain ⟨e, w, her, rfl, he, hc, hb, hn⟩ := hw.erase_of_mem hm
    rw [if_pos hm, Ledger.strike_of_mem (l := (t.ledger bs).ready) hm]
    simp only [release, Window.untrack, her, Outcome.view, ledger_use, he, hc, hb, hn]
    rfl
  · rw [if_neg hm]
    simp only [release, Window.untrack, hw.erase_of_notMem hm, Outcome.view, ledger_use]
    rfl

private theorem view_collect (bs : Backends B σ) (t : Tracker B) (s : σ) :
    (t.collect bs s).view bs =
      (t.window.entries.length, (t.ledger bs).ready.drain,
        (bs.serveAll (t.ledger bs).target ((t.ledger bs).handles.map .release) s).2) := by
  simp only [collect, Window.drain_eq, Outcome.view, ledger_use, Window.capacity_clear, Window.entries_clear]
  rfl

private theorem view_exchange (bs : Backends B σ) (t : Tracker B) (o : Override B) (s : σ) :
    (t.exchange bs o s).view bs =
      (t.window.entries.length, (t.ledger bs).ready.drain.override o,
        (bs.serveAll (t.ledger bs).target ((t.ledger bs).handles.map .release) s).2) := by
  simp only [exchange, Window.drain_eq, Outcome.view, ledger_use, Window.capacity_clear, Window.entries_clear]
  rfl

private theorem view_map {β : Type} (bs : Backends B σ) (o : Outcome B σ α) (f : α → β) :
    (o.map f).view bs = (f (o.view bs).1, (o.view bs).2) := rfl

/-- An operation does to a tracker what it does to its ledger. -/
theorem view_perform (bs : Backends B σ) (hw : t.window.WellFormed) (op : Operation B) (s : σ) :
    (t.perform bs op s).view bs = (t.ledger bs).perform bs op s := by
  cases op with
  | install => rfl
  | allocate bytes =>
    rw [perform, view_map, allocate, view_request hw (fun _ => rfl) (fun _ _ => rfl)]
    rfl
  | zeroAllocate bytes =>
    rw [perform, view_map, zeroAllocate, view_request hw (fun _ => rfl) (fun _ _ => rfl)]
    rfl
  | reallocate old bytes =>
    cases old with
    | none =>
      rw [perform, view_map, reallocate, view_request hw (fun _ => rfl) (fun _ _ => rfl)]
      rfl
    | some old =>
      rw [perform, view_map, reallocate, view_resize hw]
      rfl
  | release h =>
    rw [perform, view_map, view_release hw]
    simp only [Ledger.perform, Ledger.calls, Ledger.reply, Ledger.update]
    split <;> rfl
  | collect =>
    rw [perform, view_map, view_collect]
    rfl
  | exchange o =>
    rw [perform, view_map, view_exchange]
    rfl
  | liveCount =>
    simp only [perform, liveCount, Outcome.map, Outcome.view, ← hw.length_entries]
    rfl
  | isTracked h =>
    simp only [perform, isTracked, Outcome.view, hw.contains_eq]
    rfl
  | stats =>
    simp only [perform, stats, figures, Outcome.map, Outcome.view, ← hw.length_entries]
    rfl

/-- What an operation answers, and the ledger and the state that it leads to. -/
theorem perform_spec (bs : Backends B σ) (hw : t.window.WellFormed) (op : Operation B) (s : σ) :
    let l := t.ledger bs
    let o := t.perform bs op s
    let r := bs.serveAll l.target (l.calls op) s
    o.value = l.reply bs op r.1 ∧ o.tracker.ledger bs = l.update op r.1 ∧ o.state = r.2 := by
  have h := view_perform bs hw op s
  exact ⟨congrArg Prod.fst h, congrArg (fun v => v.2.1) h, congrArg (fun v => v.2.2) h⟩

/-! ### The window stays well formed -/

private theorem wellFormed_takeIn (hw : t.window.WellFormed) (op : Primitive) (bytes : Nat) (answer : Option Handle)
    (s : σ) : (t.takeIn op bytes answer s).tracker.window.WellFormed := by
  cases answer with
  | none => exact hw
  | some block =>
    have h := hw.push ⟨block, bytes⟩
    rcases hp : t.window.push ⟨block, bytes⟩ with ⟨placement, w⟩
    rw [hp] at h
    cases placement <;> simpa only [takeIn, hp] using h

private theorem wellFormed_request (hw : t.window.WellFormed) (c : Call) (s : σ) :
    (t.request bs c s).tracker.window.WellFormed :=
  wellFormed_takeIn (t := { t with selection := (t.selection.call bs c s).2.1 }) hw ..

private theorem wellFormed_vanished (hw : t.window.WellFormed) (old : Handle) (s : σ) :
    (t.vanished bs old s).tracker.window.WellFormed := by
  have h := hw.erase old
  rcases he : t.window.erase old with ⟨_ | e, w⟩
  · simpa only [vanished, he] using hw
  · rw [he] at h
    simpa only [vanished, he] using h

private theorem wellFormed_resize (hw : t.window.WellFormed) (old : Handle) (bytes : Nat) (s : σ) :
    (t.resize bs old bytes s).tracker.window.WellFormed := by
  rcases hcall : t.selection.call bs (.reallocate (some old) bytes) s with ⟨_ | new, sel, s'⟩
  · simp only [resize, hcall]
    split
    · exact wellFormed_vanished (t := { t with selection := sel }) hw old s'
    · exact hw
  · simpa only [resize, hcall, moved] using hw.replace old ⟨new, bytes⟩

private theorem wellFormed_release (hw : t.window.WellFormed) (h : Handle) (s : σ) :
    (t.release bs h s).tracker.window.WellFormed := by
  have hw' := hw.erase h
  rcases he : t.window.erase h with ⟨_ | e, w⟩
  · rw [he] at hw'
    simpa only [release, Window.untrack, he] using hw'
  · rw [he] at hw'
    simpa only [release, Window.untrack, he] using hw'

theorem wellFormed_perform (hw : t.window.WellFormed) (op : Operation B) (s : σ) :
    (t.perform bs op s).tracker.window.WellFormed := by
  cases op with
  | install => exact hw
  | allocate bytes => exact wellFormed_request hw _ s
  | zeroAllocate bytes => exact wellFormed_request hw _ s
  | reallocate old bytes =>
    cases old with
    | none => exact wellFormed_request hw _ s
    | some old => exact wellFormed_resize hw ..
  | release h => exact wellFormed_release hw ..
  | collect => exact hw.clear
  | exchange o => exact hw.clear
  | liveCount => exact hw
  | isTracked h => exact hw
  | stats => exact hw

theorem collect_spec (bs : Backends B σ) (hw : t.window.WellFormed) (s : σ) :
    (t.collect bs s).value = (t.ledger bs).entries.length ∧
      (t.collect bs s).tracker.ledger bs = (t.ledger bs).ready.drain ∧
      (t.collect bs s).tracker.window.WellFormed := by
  obtain ⟨hvalue, hledger, -⟩ := perform_spec bs hw .collect s
  exact ⟨Answer.count.inj hvalue, hledger, wellFormed_perform hw .collect s⟩

theorem exchange_spec (bs : Backends B σ) (hw : t.window.WellFormed) (o : Override B) (s : σ) :
    (t.exchange bs o s).value = (t.ledger bs).entries.length ∧
      (t.exchange bs o s).tracker.ledger bs = (t.ledger bs).ready.drain.override o ∧
      (t.exchange bs o s).tracker.window.WellFormed := by
  obtain ⟨hvalue, hledger, -⟩ := perform_spec bs hw (.exchange o) s
  exact ⟨Answer.count.inj hvalue, hledger, wellFormed_perform hw (.exchange o) s⟩

theorem stats_spec (bs : Backends B σ) (hw : t.window.WellFormed) (s : σ) :
    (t.stats bs s).value = (t.ledger bs).figures bs :=
  Answer.stats.inj (perform_spec bs hw .stats s).1

/-! ### Runs -/

/-- A run of a tracker is a run of its ledger. -/
theorem view_run (hw : t.window.WellFormed) (ops : List (Operation B)) (s : σ) :
    (t.run bs ops s).map (·.view bs) = (t.ledger bs).run bs ops s := by
  induction ops generalizing t s with
  | nil => rfl
  | cons op ops ih =>
    have hstep := view_perform bs hw op s
    rw [run, List.map_cons, ih (wellFormed_perform hw op s), Ledger.run, ← hstep]
    rfl

theorem ledger_create (bs : Backends B σ) (st : Settings) : (create st).ledger bs = .fresh bs st := by
  simp only [ledger, create, Window.capacity_create, Window.entries_create]
  rfl

/-- From a fresh tracker on, whatever the backends answer, every run shows what the run of a fresh ledger shows: the
same answers, the same entries in the same order and the same counters, and the backends in the same state. -/
theorem run_eq_ledger_run (bs : Backends B σ) (st : Settings) (ops : List (Operation B)) (s : σ) :
    ((create st).run bs ops s).map (·.view bs) = (Ledger.fresh bs st).run bs ops s := by
  rw [← ledger_create]
  exact view_run (Window.WellFormed.create st.capacity_pos) ops s

end Tracker

end BlockTracker
