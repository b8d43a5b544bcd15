import BlockTracker.Proofs.WorkerNames
import BlockTracker.Workload.Run

/-!
# Addresses do not show

The addresses that backends choose, and whether they use them again or move blocks, show in nothing but the addresses:
a client that names blocks by the steps that answered them sees the same over any two families of separate backends
that grant the same requests, and the report of a workload of one thread that is refused nothing depends on the
workload alone, but for the names of the backends (`addresses_hidden`).
-/

namespace BlockTracker

variable {B C σ τ : Type}

/-- The specification with no choice of backends. -/
def WorkloadSpec.anonymous (spec : WorkloadSpec) : WorkloadSpec :=
  { spec with backend := .platform, swapTo := spec.swapTo.map fun _ => .platform }

/-- The report without the names of the backends. -/
def WorkloadReport.anonymous (r : WorkloadReport) : WorkloadReport :=
  { r with spec := r.spec.anonymous, before := r.before.anonymous, after := r.after.anonymous }

theorem Stats.wraps_eq_of_anonymous {st st' : Stats} (h : st.anonymous = st'.anonymous) : st.wraps = st'.wraps := by
  have hwraps := congrArg Stats.wraps h
  exact hwraps

theorem Worker.tally_eq_of_map_eq {f f' : Handle → Handle} {w w' : Worker} (h : w.map f = w'.map f') :
    w.tally = w'.tally := by
  have htally := congrArg Worker.tally h
  exact htally

namespace Workload

variable {bs : Backends B σ} {live : B → σ → Set Handle} {w : Worker} {t : Tracker B} {s : σ} {blocks : Blocks}
  {usable : List Nat}

/-! ### The blocks that are lost -/

/-- The blocks of a worker that is done are out of the window if their names are. -/
private theorem outOfWindow_eq (hw : Staffed bs live w t s blocks usable) (hr : w.request = none) :
    outOfWindow t w =
      ((w.map blocks.label).held.toList.filter
        fun h => h ∉ ((t.ledger bs).relabel blocks.label).handles).length := by
  have hheld : (w.map blocks.label).held.toList = w.held.toList.map blocks.label := Array.toList_map
  have howned : w.owned = w.held.toList := by rw [Worker.owned, hr]
  rw [hheld, List.filter_map, List.length_map, outOfWindow]
  refine congrArg List.length (List.filter_congr fun h hh => ?_)
  obtain ⟨k, -, hname⟩ := hw.known h (howned ▸ hh)
  have hiff := Ledger.mem_handles_relabel (l := t.ledger bs) (f := blocks.label) fun x _ => Blocks.eq_of_label hname
  rw [Tracker.isTracked, hw.named.wellFormed.contains_eq, Function.comp_apply, ← decide_not]
  exact decide_eq_decide.2 (not_congr hiff.symm)

/-! ### Settings -/

private theorem settings_congr {spec spec' : WorkloadSpec} (hcapacity : spec.capacity = spec'.capacity)
    (hthreads : spec.threads = spec'.threads) :
    settings spec' = (settings spec).map fun st => st.withKind spec'.backend := by
  have hfits : spec'.crewFits = spec.crewFits := by rw [WorkloadSpec.crewFits, WorkloadSpec.crewFits, hthreads]
  simp only [settings, ← hcapacity, ← hthreads, hfits]
  split
  · rfl
  split
  · rfl
  split <;> rfl

/-- A workload of one thread. -/
private theorem runOn_eq (bs : Backends B σ) {spec : WorkloadSpec} (h : spec.threads = 1) (s : σ) :
    runOn bs spec s = (settings spec).map fun st =>
      let i := (Tracker.create st).install bs s
      let q := i.tracker.stats bs i.state
      let w := .start (WorkloadSpec.workerSeed spec.seed 0) (spec.share 0) spec.releaseEvery
      let d := drive bs w q.tracker q.state
      finish bs spec q.value [d.1] d.2.1 d.2.2 := by
  have hworkers : workers spec =
      [.start (WorkloadSpec.workerSeed spec.seed 0) (spec.share 0) spec.releaseEvery] := by
    rw [workers, h]
    rfl
  rw [runOn, hworkers]
  cases settings spec <;> rfl

section Pairs

variable {bs' : Backends C τ} {live' : C → τ → Set Handle} {w' : Worker} {t' : Tracker C} {s' : τ} {blocks' : Blocks}
  {usable' : List Nat}

/-- The window is collected, and the figures are looked at. -/
private theorem collect_congr (hs : bs.Separate live) (hs' : bs'.Separate live')
    (ht : Session.Twins bs live ⟨t, s, blocks⟩ usable bs' live' ⟨t', s', blocks'⟩ usable') :
    let o := t.collect bs s
    let o' := t'.collect bs' s'
    o.value = o'.value ∧
      (o.tracker.stats bs o.state).value.anonymous = (o'.tracker.stats bs' o'.state).value.anonymous := by
  obtain ⟨hcollect, ht₁⟩ := ht.step hs hs' .collect .collect rfl
    ⟨nofun, nofun⟩ ⟨nofun, nofun⟩ rfl
  obtain ⟨hstats, -⟩ := ht₁.step hs hs' .stats .stats rfl
    ⟨nofun, nofun⟩ ⟨nofun, nofun⟩ rfl
  exact ⟨Reading.count.inj (Option.some.inj (congrArg Scene.answer hcollect)),
    Reading.stats.inj (Option.some.inj (congrArg Scene.answer hstats))⟩

private theorem finish_congr (hs : bs.Separate live) (hs' : bs'.Separate live')
    (hw : Staffed bs live w t s blocks usable) (hw' : Staffed bs' live' w' t' s' blocks' usable')
    (hlen : blocks.length = blocks'.length) (hr : w.request = none) (hr' : w'.request = none)
    (hworker : w.map blocks.label = w'.map blocks'.label)
    (hledger : (t.ledger bs).relabel blocks.label = (t'.ledger bs').relabel blocks'.label) {spec spec' : WorkloadSpec}
    (hspec : spec.anonymous = spec'.anonymous) {before before' : Stats}
    (hbefore : before.anonymous = before'.anonymous) :
    (finish bs spec before [w] t s).anonymous = (finish bs' spec' before' [w'] t' s').anonymous := by
  have ht : Session.Twins bs live ⟨t, s, blocks⟩ usable bs' live' ⟨t', s', blocks'⟩ usable' :=
    ⟨hw.named, hw'.named, hlen, hledger⟩
  have htally : w.tally = w'.tally := Worker.tally_eq_of_map_eq hworker
  have hlost : outOfWindow t w = outOfWindow t' w' := by
    rw [outOfWindow_eq hw hr, outOfWindow_eq hw' hr', hworker, hledger]
  have hswap : (spec.swapTo.map fun _ => Kind.platform) = spec'.swapTo.map fun _ => Kind.platform :=
    congrArg WorkloadSpec.swapTo hspec
  rcases hkind : spec.swapTo with _ | kind
  · have hkind' : spec'.swapTo = none := by
      rw [hkind] at hswap
      exact Option.map_eq_none_iff.1 hswap.symm
    obtain ⟨hdrained, hafter⟩ := collect_congr hs hs' ht
    simp only [finish, hkind, hkind', WorkloadReport.anonymous, WorkloadReport.mk.injEq, List.map_cons, List.map_nil,
      htally, hlost, hdrained, Stats.wraps_eq_of_anonymous hafter, and_true]
    exact ⟨hspec, hbefore, hafter⟩
  · obtain ⟨kind', hkind'⟩ : ∃ kind', spec'.swapTo = some kind' := by
      rw [hkind] at hswap
      obtain ⟨kind', hkind', -⟩ := Option.map_eq_some_iff.1 hswap.symm
      exact ⟨kind', hkind'⟩
    obtain ⟨hexchange, ht₁⟩ := ht.step hs hs' (.exchange (bs.builtin kind)) (.exchange (bs'.builtin kind'))
      rfl ⟨nofun, nofun⟩ ⟨nofun, nofun⟩ rfl
    have hswapped : (t.exchange bs (.all (bs.builtin kind)) s).value =
        (t'.exchange bs' (.all (bs'.builtin kind')) s').value :=
      Reading.count.inj (Option.some.inj (congrArg Scene.answer hexchange))
    obtain ⟨hdrained, hafter⟩ := collect_congr hs hs' ht₁
    simp only [finish, hkind, hkind', WorkloadReport.anonymous, WorkloadReport.mk.injEq, List.map_cons, List.map_nil,
      htally, hlost, true_and]
    have hwraps := Stats.wraps_eq_of_anonymous hafter
    exact ⟨hspec, hbefore, hafter, hswapped, hdrained, congrArg (fun n => decide (0 < n)) hwraps⟩

/-- The reports of two workloads of one thread that are refused nothing and differ in their backends only. -/
theorem runOn_congr (hs : bs.Separate live) (hs' : bs'.Separate live') {spec spec' : WorkloadSpec}
    (hthreads : spec.threads = 1) (hspec : spec.anonymous = spec'.anonymous) (s : σ) (s' : τ) :
    (∀ e, runOn bs spec s = .error e ↔ runOn bs' spec' s' = .error e) ∧
    ∀ r r', runOn bs spec s = .ok r → runOn bs' spec' s' = .ok r' →
      r.failedAllocations = 0 → r'.failedAllocations = 0 → r.anonymous = r'.anonymous := by
  have hfields := hspec
  simp only [WorkloadSpec.anonymous, WorkloadSpec.mk.injEq, true_and] at hfields
  obtain ⟨hcapacity, hallocs, hevery, -, hsame, hseed⟩ := hfields
  have hshare : spec.share 0 = spec'.share 0 := by rw [WorkloadSpec.share, WorkloadSpec.share, hallocs, hsame]
  rw [runOn_eq bs hthreads, runOn_eq bs' (hsame.symm.trans hthreads), settings_congr hcapacity hsame, hseed, hevery,
    hshare]
  rcases settings spec with e | st
  · exact ⟨fun _ => Iff.rfl, fun r r' h => by cases h⟩
  refine ⟨fun e => iff_of_false nofun nofun, ?_⟩
  rintro r r' ⟨⟩ ⟨⟩ hok hok'
  have hstart := Session.Twins.start bs live bs' live' st (st.withKind spec'.backend) rfl s s'
  obtain ⟨-, ht₁⟩ := hstart.step hs hs' .install .install rfl
    ⟨nofun, nofun⟩ ⟨nofun, nofun⟩ rfl
  obtain ⟨hbefore, ht₂⟩ := ht₁.step hs hs' .stats .stats rfl
    ⟨nofun, nofun⟩ ⟨nofun, nofun⟩ rfl
  -- the worker has no blocks yet
  obtain ⟨hbal, howned, -⟩ := Worker.balanced_start (WorkloadSpec.workerSeed spec'.seed 0) (spec'.share 0)
    spec'.releaseEvery
  have hnone (h : Handle) :
      h ∉ (Worker.start (WorkloadSpec.workerSeed spec'.seed 0) (spec'.share 0) spec'.releaseEvery).owned := by
    intro hh
    rw [howned] at hh
    cases hh
  have hnodup := howned ▸ List.nodup_nil
  have hstaffed := Staffed.mk ht₂.named₁ hbal hnodup fun h hh => absurd hh (hnone h)
  have hstaffed' := Staffed.mk ht₂.named₂ hbal hnodup fun h hh => absurd hh (hnone h)
  obtain ⟨blocks, usable, blocks', usable', hw, hw', hlen, hr, hr', hworker, hledger⟩ :=
    drive_congr hs hs' hstaffed hstaffed' ht₂.length_eq (Worker.map_congr fun h hh => absurd hh (hnone h))
      ht₂.reading_eq (List.sum_eq_zero_iff_forall_eq_nat.1 hok _ List.mem_cons_self)
      (List.sum_eq_zero_iff_forall_eq_nat.1 hok' _ List.mem_cons_self)
  exact finish_congr hs hs' hw hw' hlen hr hr' hworker hledger hspec
    (Reading.stats.inj (Option.some.inj (congrArg Scene.answer hbefore)))

end Pairs

end Workload

/-! ### Clients and workloads -/

/-- Over two families of separate backends that grant the same requests, a client of windows of the same capacity sees
the same at every step, and sees a name for every block of the window.  Two workloads of one thread that differ in
their backends only have the same report, if they are refused nothing, but for the names of the backends. -/
theorem addresses_hidden {bs₁ : Backends B σ} {bs₂ : Backends C τ} {live₁ : B → σ → Set Handle}
    {live₂ : C → τ → Set Handle} (hs₁ : bs₁.Separate live₁) (hs₂ : bs₂.Separate live₂) :
    (∀ (st₁ st₂ : Settings) (s₁ : σ) (s₂ : τ) (os : List (Order (B × C))), st₁.capacity = st₂.capacity →
      let ses₁ := Session.start st₁ s₁
      let ses₂ := Session.start st₂ s₂
      let os₁ := os.map (.map Prod.fst)
      let os₂ := os.map (.map Prod.snd)
      ses₁.Disciplined bs₁ live₁ [] os₁ → ses₂.Disciplined bs₂ live₂ [] os₂ →
      (ses₁.play bs₁ os₁).map Scene.granted = (ses₂.play bs₂ os₂).map Scene.granted →
        ses₁.play bs₁ os₁ = ses₂.play bs₂ os₂ ∧ ∀ sc ∈ ses₁.play bs₁ os₁, ∀ x ∈ sc.window, x.1.isSome) ∧
    (∀ (spec₁ spec₂ : WorkloadSpec) (s₁ : σ) (s₂ : τ), spec₁.threads = 1 → spec₁.anonymous = spec₂.anonymous →
      (∀ e, Workload.runOn bs₁ spec₁ s₁ = .error e ↔ Workload.runOn bs₂ spec₂ s₂ = .error e) ∧
      ∀ r₁ r₂, Workload.runOn bs₁ spec₁ s₁ = .ok r₁ → Workload.runOn bs₂ spec₂ s₂ = .ok r₂ →
        r₁.failedAllocations = 0 → r₂.failedAllocations = 0 → r₁.anonymous = r₂.anonymous) := by
  constructor
  · intro st₁ st₂ s₁ s₂ os hcapacity ses₁ ses₂ os₁ os₂ hd₁ hd₂ hgranted
    have ht := Session.Twins.start bs₁ live₁ bs₂ live₂ st₁ st₂ hcapacity s₁ s₂
    exact ⟨ht.play hs₁ hs₂ hd₁ hd₂ hgranted, Session.isSome_of_mem_window hs₁ ht.named₁ hd₁⟩
  · intro spec₁ spec₂ s₁ s₂ hthreads hspec
    exact Workload.runOn_congr hs₁ hs₂ hthreads hspec s₁ s₂

/-- Thrifty heaps, which use the address of a released block again, resize blocks where they are and free blocks that
are resized to nothing, and heaps that do none of this.  A block that the window has lost is resized and released, a
request is refused, and each family is exchanged from its first kind to the other. -/
theorem addresses_hidden_heaps :
    let os : List (Order (Kind × Kind)) :=
      [.allocate 8, .allocate 16, .release 1, .zeroAllocate 24, .allocate 8, .isTracked 0, .reallocate (some 0) 48,
       .reallocate (some 4) 100, .release 6, .allocate 5000, .reallocate (some 7) 0, .reallocate none 8,
       .exchange (.system, .platform), .allocate 5, .isTracked 3, .release 3, .allocate 6, .collect, .stats]
    let st₁ : Settings := ⟨2, .platform, by decide⟩
    let st₂ : Settings := ⟨2, .system, by decide⟩
    let ses₁ : Session Kind Heaps := .start st₁ .empty
    let ses₂ : Session Kind Heaps := .start st₂ .empty
    let os₁ := os.map (.map Prod.fst)
    let os₂ := os.map (.map Prod.snd)
    let spec₁ : WorkloadSpec := ⟨3, .platform, 12, 2, some .system, 1, 7⟩
    let spec₂ : WorkloadSpec := ⟨3, .system, 12, 2, some .platform, 1, 7⟩
    ses₁.play (Heaps.backends true) os₁ = ses₂.play (Heaps.backends false) os₂ ∧
    ∃ r₁ r₂, Workload.runOn (Heaps.backends true) spec₁ .empty = .ok r₁ ∧
      Workload.runOn (Heaps.backends false) spec₂ .empty = .ok r₂ ∧ r₁.anonymous = r₂.anonymous := by
  intro os st₁ st₂ ses₁ ses₂ os₁ os₂ spec₁ spec₂
  obtain ⟨hplay, hrun⟩ := addresses_hidden (Heaps.separate true) (Heaps.separate false)
  constructor
  · have hd₁ : ses₁.Disciplined (Heaps.backends true) Heaps.live [] os₁ := by decide +kernel
    have hd₂ : ses₂.Disciplined (Heaps.backends false) Heaps.live [] os₂ := by decide +kernel
    have hgranted : (ses₁.play (Heaps.backends true) os₁).map Scene.granted =
        (ses₂.play (Heaps.backends false) os₂).map Scene.granted := by
      decide +kernel
    exact (hplay st₁ st₂ .empty .empty os rfl hd₁ hd₂ hgranted).1
  · have hrefused (thrifty : Bool) (spec : WorkloadSpec)
        (h : ((Workload.runOn (Heaps.backends thrifty) spec .empty).toOption.map (·.failedAllocations)) = some 0) :
        ∃ r, Workload.runOn (Heaps.backends thrifty) spec .empty = .ok r ∧ r.failedAllocations = 0 := by
      rcases hr : Workload.runOn (Heaps.backends thrifty) spec .empty with e | r
      · rw [hr] at h
        cases h
      · rw [hr] at h
        exact ⟨r, rfl, Option.some.inj h⟩
    obtain ⟨r₁, hr₁, hok₁⟩ := hrefused true spec₁ (by decide +kernel)
    obtain ⟨r₂, hr₂, hok₂⟩ := hrefused false spec₂ (by decide +kernel)
    exact ⟨r₁, r₂, hr₁, hr₂, (hrun spec₁ spec₂ .empty .empty rfl rfl).2 r₁ r₂ hr₁ hr₂ hok₁ hok₂⟩

end BlockTracker
