import BlockTracker.Proofs.Sessions
import BlockTracker.Proofs.Turns
import BlockTracker.Proofs.Workers

/-!
# Workers and the names of their blocks

A worker never looks at a handle: with stand-ins for its blocks it does the same (`Worker.map_received`,
`Worker.map_returned`).  So what a worker does whose requests are never refused hangs on the names of the blocks alone,
and so does what becomes of the tracker (`Workload.drive_congr`).
-/

namespace BlockTracker

variable {B C σ τ : Type}

/-- Writes `f h` for a block `h`. -/
def WorkerRequest.map (f : Handle → Handle) : WorkerRequest → WorkerRequest
  | .allocate bytes => .allocate bytes
  | .zeroAllocate bytes => .zeroAllocate bytes
  | .release h => .release (f h)

namespace Worker

variable {f f' : Handle → Handle} {w : Worker}

/-- Writes `f h` for a block `h`. -/
def map (f : Handle → Handle) (w : Worker) : Worker :=
  { w with request := w.request.map (WorkerRequest.map f), held := w.held.map f }

theorem map_congr (h : ∀ x ∈ w.owned, f' x = f x) : w.map f' = w.map f := by
  have hheld (hall : ∀ x ∈ w.held.toList, f' x = f x) : w.held.map f' = w.held.map f := by
    refine Array.map_congr_left fun x hx => hall x (Array.mem_toList_iff.2 hx)
  unfold owned at h
  rcases w with ⟨random, allocs, every, left, _ | bytes | bytes | block, tally, held⟩
  · exact congrArg _ (hheld h)
  · exact congrArg _ (hheld h)
  · exact congrArg _ (hheld h)
  · have hblock : f' block = f block := h block List.mem_cons_self
    have hrest := hheld fun x hx => h x (List.mem_cons_of_mem block hx)
    simp only [map, Option.map_some, WorkerRequest.map, hblock, hrest]

private theorem map_ask (f : Handle → Handle) (w : Worker) : w.ask.map f = (w.map f).ask := by
  by_cases h : w.left = 0
  · have hask : w.ask = { w with request := none } := if_pos h
    have hask' : (w.map f).ask = { w.map f with request := none } := if_pos h
    rw [hask, hask']
    rfl
  · unfold ask
    rw [if_neg h, if_neg (show (w.map f).left ≠ 0 from h)]
    -- neither kind of allocation is about a block
    simp only [map, Option.map_some]
    rw [apply_ite (WorkerRequest.map f)]
    rfl

private theorem map_swapRemove (f : Handle → Handle) (xs : Array Handle) (i : Nat) :
    (swapRemove xs i).map f = swapRemove (xs.map f) i := by
  simp only [swapRemove, Array.map_pop, Array.size_map]
  congr 1
  ext1
  · simp
  · simp only [Array.getElem_map, Array.getElem_swapIfInBounds, Array.size_map]
    split
    · rfl
    · split <;> rfl

private theorem map_give (f : Handle → Handle) (w : Worker) (i : Nat) : (w.give i).map f = (w.map f).give i := by
  have hget : (w.map f).held[i]? = w.held[i]?.map f := Array.getElem?_map
  rcases h : w.held[i]? with _ | block
  · rw [h] at hget
    simp only [give, h, hget, Option.map_none]
    exact map_ask f w
  · rw [h] at hget
    simp only [give, h, hget, Option.map_some]
    simp only [map, map_swapRemove, Option.map_some, WorkerRequest.map]

private theorem map_proceed (f : Handle → Handle) (w : Worker) : w.proceed.map f = (w.map f).proceed := by
  have hsize : (w.map f).held.size = w.held.size := Array.size_map ..
  have hdue : (w.map f).releaseDue = w.releaseDue := by
    rw [releaseDue, hsize]
    rfl
  simp only [proceed, hdue]
  split
  · simp only [giveOne, hsize]
    exact map_give f _ _
  · exact map_ask f w

theorem map_received (f : Handle → Handle) (w : Worker) (h : Handle) :
    (w.received (.ok h)).map f = (w.map f).received (.ok (f h)) := by
  have hnote : (w.note (.ok h)).map f = (w.map f).note (.ok (f h)) := by simp only [note, map, Array.map_push]
  rw [received, map_proceed, hnote, received]

theorem map_returned (f : Handle → Handle) (w : Worker) (outcome : ReleaseOutcome) :
    (w.returned outcome).map f = (w.map f).returned outcome := by
  cases outcome <;> exact map_ask f _

theorem tally_ask (w : Worker) : w.ask.tally = w.tally := by
  unfold ask
  split <;> rfl

private theorem tally_give (w : Worker) (i : Nat) : (w.give i).tally = w.tally := by
  unfold give
  split
  · rfl
  · exact tally_ask w

theorem tally_proceed (w : Worker) : w.proceed.tally = w.tally := by
  unfold proceed
  split
  · exact tally_give { w with random := (w.random.range 0 (w.held.size - 1)).2 } (w.random.range 0 (w.held.size - 1)).1
  · exact tally_ask w

theorem failed_received_error (w : Worker) (e : Failure) :
    (w.received (.error e)).tally.failed = w.tally.failed + 1 := by
  rw [received, tally_proceed]
  rfl

theorem failed_returned (w : Worker) (outcome : ReleaseOutcome) :
    (w.returned outcome).tally.failed = w.tally.failed := by
  unfold returned
  simp only [tally_ask]
  cases outcome <;> rfl

end Worker

/-! ### Serving a worker -/

namespace Workload

variable {bs : Backends B σ} {live : B → σ → Set Handle} {w : Worker} {t : Tracker B} {s : σ} {blocks : Blocks}
  {usable : List Nat}

/-- A worker that may still use its blocks. -/
structure Staffed (bs : Backends B σ) (live : B → σ → Set Handle) (w : Worker) (t : Tracker B) (s : σ) (blocks : Blocks)
    (usable : List Nat) : Prop where
  named : Named bs live t s blocks usable
  balanced : w.Balanced
  nodup : w.owned.Nodup
  known : ∀ h ∈ w.owned, ∃ k ∈ usable, blocks.name? h = some k

/-- What the service of a request that is not refused makes of a worker and a ledger, with stand-ins for the blocks. -/
def follow (w : Worker) (l : Ledger Unit) (n : Nat) : Worker × Ledger Unit :=
  let new := Blocks.standIn (some n)
  match w.request with
  | none => (w, l)
  | some (.allocate bytes) => (w.received (.ok new), l.update (.allocate bytes) (some new))
  | some (.zeroAllocate bytes) => (w.received (.ok new), l.update (.zeroAllocate bytes) (some new))
  | some (.release h) =>
    (w.returned (if h ∈ l.handles then .released else .untracked), l.update (.release h) none)

section Follow

variable {l : Ledger Unit} {n : Nat} {bytes : Nat} {h : Handle}

private theorem follow_allocate (hr : w.request = some (.allocate bytes)) :
    follow w l n =
      (w.received (.ok (Blocks.standIn (some n))), l.update (.allocate bytes) (some (Blocks.standIn (some n)))) := by
  rw [follow, hr]

private theorem follow_zeroAllocate (hr : w.request = some (.zeroAllocate bytes)) :
    follow w l n =
      (w.received (.ok (Blocks.standIn (some n))), l.update (.zeroAllocate bytes) (some (Blocks.standIn (some n)))) := by
  rw [follow, hr]

private theorem follow_release (hr : w.request = some (.release h)) :
    follow w l n = (w.returned (if h ∈ l.handles then .released else .untracked), l.update (.release h) none) := by
  rw [follow, hr]

end Follow

/-- An allocation that is not refused. -/
private theorem staffed_received (hs : bs.Separate live) (hw : Staffed bs live w t s blocks usable)
    (ha : w.awaited = 1) (op : Operation B) (hg : (t.ledger bs).Guarded live s op) (hsubject : op.subject = none)
    (hspent : ∀ answer, (t.ledger bs).spent op answer = []) {result : Except Failure Handle}
    (hvalue : (t.perform bs op s).value = .block result) (hok : (w.received result).tally.failed = 0) :
    let o := t.perform bs op s
    ∃ new, result = .ok new ∧
      (∃ usable', Staffed bs live (w.received (.ok new)) o.tracker o.state (some new :: blocks) usable') ∧
      (w.received (.ok new)).map (Blocks.label (some new :: blocks)) =
        (w.map blocks.label).received (.ok (Blocks.standIn (some blocks.length))) ∧
      (o.tracker.ledger bs).relabel (Blocks.label (some new :: blocks)) =
        ((t.ledger bs).relabel blocks.label).update (op.relabel blocks.label)
          (some (Blocks.standIn (some blocks.length))) := by
  intro o
  -- a failure would have counted as a failed allocation
  obtain ⟨new, rfl⟩ : ∃ new, result = .ok new := by
    cases result with
    | ok new => exact ⟨new, rfl⟩
    | error e =>
      rw [Worker.failed_received_error] at hok
      cases hok
  have hgiven : (t.perform bs op s).value.given = some new := by
    rw [hvalue]
    rfl
  obtain ⟨hn, hreading, -⟩ := hw.named.perform hs op hg fun h hh => by rw [hsubject] at hh; cases hh
  obtain ⟨hbal, hperm, -⟩ := Worker.balanced_received hw.balanced ha (.ok new)
  rw [hgiven] at hn hreading
  -- the worker has no live block that is answered again
  have hother : ∀ h ∈ w.owned, new ≠ h := by
    rintro h hh rfl
    obtain ⟨k, hk, hname⟩ := hw.known new hh
    obtain ⟨h', b, hname', hlive⟩ := hw.named.live k hk
    rw [Blocks.name?_inj hname' hname] at hlive
    have hin := hw.named.mem_spent_of_live hs hg hlive hgiven
    rw [hspent] at hin
    cases hin
  have hname {h : Handle} (hh : h ∈ w.owned) : Blocks.name? (some new :: blocks) h = blocks.name? h :=
    Blocks.name?_cons_of_ne (fun he => hother h hh (Option.some.inj he)) blocks
  refine ⟨new, rfl, ⟨_, hn, hbal, ?_, ?_⟩, ?_, hreading⟩
  · exact hperm.nodup_iff.2 (List.nodup_cons.2 ⟨fun hm => hother new hm rfl, hw.nodup⟩)
  · intro h hh
    rcases List.mem_cons.1 (hperm.mem_iff.1 hh) with rfl | hh
    · exact ⟨blocks.length, Blocks.mem_usable.2 (.inr ⟨rfl, rfl⟩), Blocks.name?_cons_self h blocks⟩
    · obtain ⟨k, hk, hknown⟩ := hw.known h hh
      refine ⟨k, Blocks.mem_usable.2 (.inl ⟨hk, fun x hx => ?_⟩), (hname hh).trans hknown⟩
      rw [hspent] at hx
      cases hx
  · have hmap : w.map (Blocks.label (some new :: blocks)) = w.map blocks.label :=
      Worker.map_congr fun h hh => by rw [Blocks.label, hname hh, Blocks.label]
    have hnew : Blocks.label (some new :: blocks) new = Blocks.standIn (some blocks.length) := by
      rw [Blocks.label, Blocks.name?_cons_self]
    rw [Worker.map_received, hmap, hnew]

/-- A release, of a block of the window or of one that it has lost. -/
private theorem staffed_returned (hs : bs.Separate live) (hw : Staffed bs live w t s blocks usable) {block : Handle}
    (hr : w.request = some (.release block)) :
    let o := t.release bs block s
    let l := (t.ledger bs).relabel blocks.label
    let outcome : ReleaseOutcome := if blocks.label block ∈ l.handles then .released else .untracked
    (∃ usable', Staffed bs live (w.returned o.value) o.tracker o.state (none :: blocks) usable') ∧
      (w.returned o.value).map (Blocks.label (none :: blocks)) = (w.map blocks.label).returned outcome ∧
      (o.tracker.ledger bs).relabel (Blocks.label (none :: blocks)) =
        l.update (.release (blocks.label block)) none := by
  intro o l outcome
  have hmem : block ∈ w.owned := by
    rw [Worker.owned, hr]
    exact List.mem_cons_self
  obtain ⟨hn, hreading, hanswer⟩ := hw.named.perform hs (.release block) trivial fun h hh => by
    cases hh
    exact hw.known block hmem
  obtain ⟨hbal, howned, -⟩ := Worker.balanced_returned hw.balanced hr o.value
  have hnodup := hw.nodup
  rw [howned, List.nodup_cons] at hnodup
  have hlabel : Blocks.label (none :: blocks) = blocks.label := rfl
  have houtcome : o.value = outcome := Reading.release.inj hanswer
  refine ⟨⟨_, hn, hbal, hnodup.2, ?_⟩, ?_, hreading⟩
  · intro h hh
    obtain ⟨k, hk, hknown⟩ := hw.known h (howned ▸ List.mem_cons_of_mem block hh)
    refine ⟨k, Blocks.mem_usable.2 (.inl ⟨hk, fun x hx hname => ?_⟩), hknown⟩
    obtain ⟨rfl, -⟩ := Ledger.mem_spent_release.1 hx
    exact hnodup.1 (Blocks.name?_inj hname hknown ▸ hh)
  · rw [hlabel, Worker.map_returned, houtcome]

/-- Serving a request that is not refused, in terms of the names alone. -/
theorem Staffed.serve (hs : bs.Separate live) (hw : Staffed bs live w t s blocks usable)
    (hok : (serve bs w t s).1.tally.failed = 0) (hr : w.request ≠ none) :
    let r := Workload.serve bs w t s
    ∃ given usable', Staffed bs live r.1 r.2.1 r.2.2 (given :: blocks) usable' ∧
      (r.1.map (Blocks.label (given :: blocks)), (r.2.1.ledger bs).relabel (Blocks.label (given :: blocks))) =
        follow (w.map blocks.label) ((t.ledger bs).relabel blocks.label) blocks.length := by
  have hrequest {request : WorkerRequest} (h : w.request = some request) :
      (w.map blocks.label).request = some (request.map blocks.label) := by rw [Worker.map, h, Option.map_some]
  rcases hreq : w.request with _ | bytes | bytes | block
  · exact absurd hreq hr
  · rw [serve_allocate bs hreq] at hok ⊢
    rw [follow_allocate (hrequest hreq)]
    have ha : w.awaited = 1 := by rw [Worker.awaited, hreq]
    obtain ⟨new, hnew, ⟨usable', hw'⟩, hmap, hreading⟩ :=
      staffed_received hs hw ha (.allocate bytes) trivial rfl (fun _ => rfl) rfl hok
    refine ⟨some new, usable', ?_⟩
    rw [hnew]
    exact ⟨hw', Prod.ext hmap hreading⟩
  · rw [serve_zeroAllocate bs hreq] at hok ⊢
    rw [follow_zeroAllocate (hrequest hreq)]
    have ha : w.awaited = 1 := by rw [Worker.awaited, hreq]
    obtain ⟨new, hnew, ⟨usable', hw'⟩, hmap, hreading⟩ :=
      staffed_received hs hw ha (.zeroAllocate bytes) trivial rfl (fun _ => rfl) rfl hok
    refine ⟨some new, usable', ?_⟩
    rw [hnew]
    exact ⟨hw', Prod.ext hmap hreading⟩
  · rw [serve_release bs hreq, follow_release (hrequest hreq)]
    obtain ⟨⟨usable', hw'⟩, hmap, hreading⟩ := staffed_returned hs hw hreq
    exact ⟨none, usable', hw', Prod.ext hmap hreading⟩

/-- A failed allocation stays in the books. -/
theorem failed_le_serve (bs : Backends B σ) (w : Worker) (t : Tracker B) (s : σ) :
    w.tally.failed ≤ (serve bs w t s).1.tally.failed := by
  have hreceived (result : Except Failure Handle) : w.tally.failed ≤ (w.received result).tally.failed := by
    rw [Worker.received, Worker.tally_proceed]
    cases result with
    | ok new => exact Nat.le_refl _
    | error e => exact Nat.le_succ _
  rcases hreq : w.request with _ | bytes | bytes | block
  · rw [serve_done bs hreq]
  · rw [serve_allocate bs hreq]
    exact hreceived _
  · rw [serve_zeroAllocate bs hreq]
    exact hreceived _
  · rw [serve_release bs hreq, Worker.failed_returned]

theorem failed_le_drive (bs : Backends B σ) (w : Worker) (t : Tracker B) (s : σ) :
    w.tally.failed ≤ (drive bs w t s).1.tally.failed := by
  -- by the number of answers that are still to come
  induction hn : w.measure using Nat.strongRecOn generalizing w t s with
  | ind n ih =>
    by_cases hr : w.request = none
    · rw [drive_of_done bs hr]
    · rw [drive_of_request bs hr]
      exact (failed_le_serve bs w t s).trans (ih _ (hn ▸ measure_serve bs hr t s) _ _ _ rfl)

section Pairs

variable {bs' : Backends C τ} {live' : C → τ → Set Handle} {w' : Worker} {t' : Tracker C} {s' : τ} {blocks' : Blocks}
  {usable' : List Nat}

/-- Two workers that differ in the addresses of their blocks only, and whose requests are never refused, end up so. -/
theorem drive_congr (hs : bs.Separate live) (hs' : bs'.Separate live') (hw : Staffed bs live w t s blocks usable)
    (hw' : Staffed bs' live' w' t' s' blocks' usable') (hlen : blocks.length = blocks'.length)
    (hworker : w.map blocks.label = w'.map blocks'.label)
    (hledger : (t.ledger bs).relabel blocks.label = (t'.ledger bs').relabel blocks'.label)
    (hok : (drive bs w t s).1.tally.failed = 0) (hok' : (drive bs' w' t' s').1.tally.failed = 0) :
    let r := drive bs w t s
    let r' := drive bs' w' t' s'
    ∃ blocks usable blocks' usable', Staffed bs live r.1 r.2.1 r.2.2 blocks usable ∧
      Staffed bs' live' r'.1 r'.2.1 r'.2.2 blocks' usable' ∧ blocks.length = blocks'.length ∧
      r.1.request = none ∧ r'.1.request = none ∧ r.1.map blocks.label = r'.1.map blocks'.label ∧
      (r.2.1.ledger bs).relabel blocks.label = (r'.2.1.ledger bs').relabel blocks'.label := by
  -- by the number of answers that are still to come to either worker
  induction hn : w.measure using Nat.strongRecOn generalizing w t s blocks usable w' t' s' blocks' usable' with
  | ind n ih =>
    have hrequest : w.request.map (WorkerRequest.map blocks.label) = w'.request.map (WorkerRequest.map blocks'.label) :=
      congrArg Worker.request hworker
    by_cases hr : w.request = none
    · have hr' : w'.request = none := by
        rw [hr] at hrequest
        exact Option.map_eq_none_iff.1 hrequest.symm
      rw [drive_of_done bs hr, drive_of_done bs' hr']
      exact ⟨_, _, _, _, hw, hw', hlen, hr, hr', hworker, hledger⟩
    · have hr' : w'.request ≠ none := by
        intro h
        rw [h] at hrequest
        exact hr (Option.map_eq_none_iff.1 hrequest)
      rw [drive_of_request bs hr] at hok ⊢
      rw [drive_of_request bs' hr'] at hok' ⊢
      have hfirst : (serve bs w t s).1.tally.failed = 0 := Nat.le_zero.1 (hok ▸ failed_le_drive ..)
      have hfirst' : (serve bs' w' t' s').1.tally.failed = 0 := Nat.le_zero.1 (hok' ▸ failed_le_drive ..)
      obtain ⟨given, usable, hnext, hfollow⟩ := hw.serve hs hfirst hr
      obtain ⟨given', usable', hnext', hfollow'⟩ := hw'.serve hs' hfirst' hr'
      have hsame := (hfollow.trans (by rw [hworker, hledger, hlen])).trans hfollow'.symm
      exact ih _ (hn ▸ measure_serve bs hr t s) hnext hnext'
        (by rw [List.length_cons, List.length_cons, hlen]) (congrArg Prod.fst hsame) (congrArg Prod.snd hsame) hok
        hok' rfl

end Pairs

end Workload

end BlockTracker
