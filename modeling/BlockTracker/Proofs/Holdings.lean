import BlockTracker.Proofs.Ownership

/-!
# Blocks that are held

A block is held from the time that a request for it succeeds, for as long as it stays live in its backend
(`Tracker.holdings`); its size is that of the last request for it that succeeded.  As long as a window has not started
over, its entries are the blocks that are held, except for those that a backend kept when it was asked to resize them
to nothing (`holdings_in_window`).  The failure of such a request is taken for a release, so the entry goes even where
the block lives on (`loses_declined_block`).
-/

namespace BlockTracker

variable {B σ : Type}

/-- A block that was handed out and has been live since. -/
structure Holding (B : Type) where
  backend : B
  /-- The handle of the block and the size that it was last given. -/
  entry : Entry
  /-- Whether a resize of the block to nothing has failed. -/
  declined : Bool

namespace Holding

/-- Whether this is the block of `b` with handle `h`. -/
def Is (b : B) (h : Handle) (x : Holding B) : Prop := x.backend = b ∧ x.entry.handle = h

/-- Adds the block of `b` that answers a request, if any. -/
def add (b : B) (bytes : Nat) (answer : Option Handle) (held : Set (Holding B)) : Set (Holding B) :=
  match answer with
  | some block => insert ⟨b, ⟨block, bytes⟩, false⟩ held
  | none => held

/-- Changes the block of `b` with handle `h`. -/
def revise (b : B) (h : Handle) (f : Holding B → Holding B) (held : Set (Holding B)) : Set (Holding B) :=
  {x ∈ held | ¬ x.Is b h} ∪ f '' {x ∈ held | x.Is b h}

end Holding

/-- What is held behind an operation that was answered the block `answer`, if what it made dead is still counted. -/
def Operation.note (target : PerPrimitive B) (op : Operation B) (answer : Option Handle) (held : Set (Holding B)) :
    Set (Holding B) :=
  match op, answer with
  | .allocate bytes, answer => Holding.add target.allocate bytes answer held
  | .zeroAllocate bytes, answer => Holding.add target.zeroAllocate bytes answer held
  | .reallocate none bytes, answer => Holding.add target.reallocate bytes answer held
  | .reallocate (some old) bytes, some new =>
    Holding.revise target.reallocate old (fun x => { x with entry := ⟨new, bytes⟩ }) held
  | .reallocate (some old) bytes, none =>
    if bytes = 0 then Holding.revise target.reallocate old (fun x => { x with declined := true }) held else held
  | _, _ => held

/-- What is held behind a step: what it has made dead is not. -/
def Step.note (bs : Backends B σ) (live : B → σ → Set Handle) (held : Set (Holding B)) (x : Step B σ) :
    Set (Holding B) :=
  {y ∈ x.op.note (x.before.routing bs).target x.outcome.value.given held |
    y.entry.handle ∈ live y.backend x.outcome.state}

/-- The blocks that are held behind a run, if nothing was held before. -/
def Tracker.holdings (bs : Backends B σ) (live : B → σ → Set Handle) (t : Tracker B) (ops : List (Operation B))
    (s : σ) : Set (Holding B) :=
  (t.steps bs ops s).foldl (Step.note bs live) ∅

/-! ### One step -/

namespace Ledger

variable {live : B → σ → Set Handle} {bs : Backends B σ} {l l' : Ledger B} {s s' : σ} {held noted : Set (Holding B)}
  {b : B}

/-- With `b` in use the entries are the blocks that are held, apart from those that a backend declined to release. -/
structure Keeps (live : B → σ → Set Handle) (l : Ledger B) (s : σ) (held : Set (Holding B)) (b : B) : Prop where
  target : l.target = .all b
  owns : Owns (live b s) l.handles
  live : ∀ x ∈ held, x.entry.handle ∈ live x.backend s
  held_of_mem : ∀ e ∈ l.entries, ⟨b, e, false⟩ ∈ held
  mem_of_held : ∀ x ∈ held, x.declined = false → x.backend = b ∧ x.entry ∈ l.entries
  notMem : ∀ x ∈ held, x.backend = b → x.declined = true → x.entry.handle ∉ l.handles

/-- What is to be seen to for a step: that what is noted and still live is kept. -/
private theorem Keeps.of_noted (htarget : l'.target = .all b) (howns : Owns (live b s') l'.handles)
    (hheld : ∀ e ∈ l'.entries, ⟨b, e, false⟩ ∈ noted)
    (hmem : ∀ x ∈ noted, x.entry.handle ∈ live x.backend s' → x.declined = false → x.backend = b ∧ x.entry ∈ l'.entries)
    (hnot : ∀ x ∈ noted, x.entry.handle ∈ live b s' → x.backend = b → x.declined = true → x.entry.handle ∉ l'.handles) :
    l'.Keeps live s' {y ∈ noted | y.entry.handle ∈ live y.backend s'} b where
  target := htarget
  owns := howns
  live _ hx := hx.2
  held_of_mem e he := ⟨hheld e he, howns.mem_live _ (List.mem_map_of_mem he)⟩
  mem_of_held x hx := hmem x hx.1 hx.2
  notMem x hx hb := hnot x hx.1 (hb ▸ hx.2) hb

/-- An operation that notes nothing and leaves the entries of live blocks in place. -/
private theorem Keeps.shrink (hk : l.Keeps live s held b) (htarget : l'.target = .all b)
    (howns : Owns (live b s') l'.handles) (hsub : ∀ e ∈ l'.entries, e ∈ l.entries)
    (hlive : ∀ e ∈ l.entries, e.handle ∈ live b s' → e ∈ l'.entries) :
    l'.Keeps live s' {y ∈ held | y.entry.handle ∈ live y.backend s'} b := by
  refine .of_noted htarget howns ?_ ?_ ?_
  · exact fun e he => hk.held_of_mem e (hsub e he)
  · intro x hx hxlive hdeclined
    obtain ⟨hb, hm⟩ := hk.mem_of_held x hx hdeclined
    exact ⟨hb, hlive _ hm (hb ▸ hxlive)⟩
  · intro x hx _ hb hdeclined hm
    obtain ⟨e, he, hh⟩ := List.mem_map.1 hm
    exact hk.notMem x hx hb hdeclined (hh ▸ List.mem_map_of_mem (hsub e he))

private theorem keeps_grant (hk : l.Keeps live s held b) {answer : Option Handle}
    (hg : Grants (live b s) (live b s') answer) (bytes : Nat) (hwraps : (l.grant bytes answer).wraps = l.wraps) :
    (l.grant bytes answer).Keeps live s'
      {y ∈ Holding.add b bytes answer held | y.entry.handle ∈ live y.backend s'} b := by
  have htarget : (l.grant bytes answer).target = .all b := (target_grant ..).trans hk.target
  have howns := owns_grant_of_grants hk.owns hg bytes
  cases answer with
  | none => exact hk.shrink htarget howns (fun _ => id) (fun _ he _ => he)
  | some block =>
    -- the window does not start over, so there is room
    have hroom : l.entries.length < l.capacity := by
      by_contra hfull
      rw [grant_of_full hfull] at hwraps
      exact Nat.succ_ne_self _ hwraps
    rw [grant_of_room hroom] at htarget howns ⊢
    refine .of_noted htarget howns ?_ ?_ ?_
    · intro e he
      rcases List.mem_append.1 he with he | he
      · exact .inr (hk.held_of_mem e he)
      · rw [List.mem_singleton.1 he]
        exact .inl rfl
    · rintro x (rfl | hx) _ hdeclined
      · exact ⟨rfl, List.mem_append_right _ List.mem_cons_self⟩
      · obtain ⟨hb, hm⟩ := hk.mem_of_held x hx hdeclined
        exact ⟨hb, List.mem_append_left _ hm⟩
    · rintro x (rfl | hx) _ hb hdeclined hm
      · cases hdeclined
      · -- a declined block is live already, so it is not the new one
        have hlive := hk.live x hx
        rw [hb] at hlive
        rw [handles, List.map_append] at hm
        rcases List.mem_append.1 hm with hm | hm
        · exact hk.notMem x hx hb hdeclined hm
        · have heq : x.entry.handle = block := List.mem_singleton.1 hm
          exact hg.1 (heq ▸ hlive)

/-- A block that gets another handle or another size. -/
private theorem keeps_moved (hk : l.Keeps live s held b) {old new : Handle}
    (hnew : new = old ∨ new ∉ live b s) (bytes : Nat)
    (howns : Owns (live b s') (l.replace old ⟨new, bytes⟩).handles) :
    (l.replace old ⟨new, bytes⟩).Keeps live s'
      {y ∈ Holding.revise b old (fun x => { x with entry := ⟨new, bytes⟩ }) held |
        y.entry.handle ∈ live y.backend s'} b := by
  have hmem (e : Entry) : e ∈ (l.replace old ⟨new, bytes⟩).entries ↔
      (e = ⟨new, bytes⟩ ∧ old ∈ l.handles) ∨ (e ∈ l.entries ∧ e.handle ≠ old) := by
    by_cases hm : old ∈ l.handles
    · rw [mem_entries_replace hk.owns.nodup hm, and_iff_left hm]
    · have hne : e ∈ l.entries → e.handle ≠ old := fun he hh => hm (hh ▸ List.mem_map_of_mem he)
      rw [replace_of_notMem hm, and_iff_left_of_imp hne]
      exact ⟨.inr, fun h => h.resolve_left fun hn => hm hn.2⟩
  refine .of_noted hk.target howns ?_ ?_ ?_
  · intro e he
    rcases (hmem e).1 he with ⟨rfl, hm⟩ | ⟨he, hne⟩
    · obtain ⟨e', he', rfl⟩ := List.mem_map.1 hm
      exact .inr ⟨_, ⟨hk.held_of_mem e' he', rfl, rfl⟩, rfl⟩
    · exact .inl ⟨hk.held_of_mem e he, fun his => hne his.2⟩
  · rintro x (⟨hx, hnot⟩ | ⟨x, ⟨hx, hb, hh⟩, rfl⟩) _ hdeclined
    · obtain ⟨hb, hm⟩ := hk.mem_of_held x hx hdeclined
      exact ⟨hb, (hmem _).2 (.inr ⟨hm, fun hh => hnot ⟨hb, hh⟩⟩)⟩
    · obtain ⟨-, hm⟩ := hk.mem_of_held x hx hdeclined
      exact ⟨hb, (hmem _).2 (.inl ⟨rfl, hh ▸ List.mem_map_of_mem hm⟩)⟩
  · rintro x (⟨hx, hnot⟩ | ⟨x, ⟨hx, hb, hh⟩, rfl⟩) _ hb' hdeclined hm
    · obtain ⟨e, he, heq⟩ := List.mem_map.1 hm
      rcases (hmem e).1 he with ⟨rfl, -⟩ | ⟨he, -⟩
      · -- another block that is held has neither the old handle nor the new one
        rcases hnew with rfl | hnew
        · exact hnot ⟨hb', heq.symm⟩
        · have hlive := hk.live x hx
          rw [hb', ← heq] at hlive
          exact hnew hlive
      · exact hk.notMem x hx hb' hdeclined (heq ▸ List.mem_map_of_mem he)
    · have hout : old ∉ l.handles := hh ▸ hk.notMem x hx hb hdeclined
      rw [replace_of_notMem hout] at hm
      rcases hnew with rfl | hnew
      · exact hout hm
      · exact hnew (hk.owns.mem_live _ hm)

/-- A block that the backend was asked to resize to nothing. -/
private theorem keeps_declined (hk : l.Keeps live s held b) (old : Handle)
    (howns : Owns (live b s') (l.strike old).handles) :
    (l.strike old).Keeps live s'
      {y ∈ Holding.revise b old (fun x => { x with declined := true }) held |
        y.entry.handle ∈ live y.backend s'} b := by
  have hmem (e : Entry) := mem_entries_strike hk.owns.nodup old e
  refine .of_noted ((target_strike ..).trans hk.target) howns ?_ ?_ ?_
  · intro e he
    obtain ⟨he, hne⟩ := (hmem e).1 he
    exact .inl ⟨hk.held_of_mem e he, fun his => hne his.2⟩
  · rintro x (⟨hx, hnot⟩ | ⟨x, -, rfl⟩) _ hdeclined
    · obtain ⟨hb, hm⟩ := hk.mem_of_held x hx hdeclined
      exact ⟨hb, (hmem _).2 ⟨hm, fun hh => hnot ⟨hb, hh⟩⟩⟩
    · cases hdeclined
  · rintro x (⟨hx, -⟩ | ⟨x, ⟨-, -, hh⟩, rfl⟩) _ hb hdeclined hm
    · obtain ⟨e, he, heq⟩ := List.mem_map.1 hm
      exact hk.notMem x hx hb hdeclined (heq ▸ List.mem_map_of_mem ((hmem e).1 he).1)
    · obtain ⟨e, he, heq⟩ := List.mem_map.1 hm
      exact ((hmem e).1 he).2 (heq.trans hh)

/-- All blocks of the window go, and perhaps another backend comes. -/
private theorem keeps_drain (hs : bs.Sound (live b) b) (hk : l.Keeps live s held b) {b' : B}
    (htarget : l'.target = .all b') (hentries : l'.entries = []) :
    let s' := (bs.serveAll (.all b) (l.handles.map .release) s).2
    l'.Keeps live s' {y ∈ held | y.entry.handle ∈ live y.backend s'} b' := by
  intro s'
  have hlive : live b s' = live b s \ {h | h ∈ l.handles} := live_releases hs hk.owns
  have hhandles : l'.handles = [] := by rw [handles, hentries, List.map_nil]
  refine .of_noted htarget (hhandles ▸ .nil _) ?_ ?_ ?_
  · intro e he
    rw [hentries] at he
    cases he
  · intro x hx hxlive hdeclined
    obtain ⟨hb, hm⟩ := hk.mem_of_held x hx hdeclined
    rw [hb, hlive] at hxlive
    exact absurd (List.mem_map_of_mem hm) hxlive.2
  · intro x _ _ _ _
    rw [hhandles]
    exact List.not_mem_nil

private theorem Keeps.ready (hk : l.Keeps live s held b) : l.ready.Keeps live s held b :=
  ⟨hk.target, hk.owns, hk.live, hk.held_of_mem, hk.mem_of_held, hk.notMem⟩

private theorem Keeps.same (hk : l.Keeps live s held b) :
    l.Keeps live s {y ∈ held | y.entry.handle ∈ live y.backend s} b :=
  hk.shrink hk.target hk.owns (fun _ => id) (fun _ he _ => he)

/-- A resize of a live block, whatever becomes of it. -/
private theorem keeps_resize (hk : l.Keeps live s held b) {old : Handle} {bytes : Nat} (hold : old ∈ live b s)
    {answer : Option Handle} (hs : (Call.reallocate (some old) bytes).Sound (live b s) (live b s') answer)
    (howns : Owns (live b s') (l.update (.reallocate (some old) bytes) answer).handles) :
    (l.update (.reallocate (some old) bytes) answer).Keeps live s'
      {y ∈ Operation.note (.all b) (.reallocate (some old) bytes) answer held | y.entry.handle ∈ live y.backend s'}
      b := by
  cases answer with
  | some new =>
    have hnew : new = old ∨ new ∉ live b s := (hs hold).imp And.left And.left
    exact keeps_moved hk.ready hnew bytes howns
  | none =>
    simp only [update, Operation.note] at howns ⊢
    by_cases hb : bytes = 0
    · rw [if_pos hb] at howns ⊢
      rw [if_pos hb]
      exact keeps_declined hk.ready old howns
    · rw [if_neg hb] at howns ⊢
      rw [if_neg hb]
      exact hk.ready.shrink hk.target howns (fun _ => id) (fun _ he _ => he)

/-- One operation keeps the blocks that are held, unless the window starts over. -/
theorem Keeps.perform (hs : ∀ b, bs.Sound (live b) b) (hk : l.Keeps live s held b) {op : Operation B}
    (hg : l.Guarded live s op) (hwraps : (l.perform bs op s).2.1.wraps = l.wraps) :
    ∃ b', (l.perform bs op s).2.1.Keeps live (l.perform bs op s).2.2
      {y ∈ op.note l.target (l.perform bs op s).1.given held | y.entry.handle ∈ live y.backend (l.perform bs op s).2.2}
      b' := by
  obtain ⟨b', htarget', howns⟩ := (safe_perform hs ⟨b, hk.target, hk.owns⟩ hg).owned
  have hserve {c : Call} (hc : l.calls op = [c]) : bs.serveAll (.all b) (l.calls op) s = bs.serve b c s := by
    rw [hc, Backends.serveAll_one]
  simp only [Ledger.perform] at hwraps htarget' howns ⊢
  rw [hk.target] at hwraps htarget' howns ⊢
  cases op with
  | exchange o => exact ⟨b', keeps_drain (hs b) hk htarget' rfl⟩
  | collect => exact ⟨b', keeps_drain (hs b) hk htarget' rfl⟩
  | install => exact ⟨b, hk.ready.same⟩
  | liveCount => exact ⟨b, hk.ready.same⟩
  | stats => exact ⟨b, hk.ready.same⟩
  | isTracked h => exact ⟨b, hk.same⟩
  | allocate bytes =>
    rw [hserve rfl] at hwraps ⊢
    simp only [reply, given_resultOf]
    exact ⟨b, keeps_grant hk.ready (hs b (.allocate bytes) s trivial) bytes hwraps⟩
  | zeroAllocate bytes =>
    rw [hserve rfl] at hwraps ⊢
    simp only [reply, given_resultOf]
    exact ⟨b, keeps_grant hk.ready (hs b (.zeroAllocate bytes) s trivial) bytes hwraps⟩
  | reallocate old bytes =>
    rw [hserve rfl] at hwraps htarget' howns ⊢
    simp only [reply, given_resultOf]
    cases old with
    | none => exact ⟨b, keeps_grant hk.ready (hs b (.reallocate none bytes) s trivial) bytes hwraps⟩
    | some old =>
      have hold : old ∈ live b s := by
        rw [Guarded, hk.target] at hg
        exact hg
      have hb : b' = b := by
        have hop : ∀ o : Override B, Operation.reallocate (some old) bytes ≠ .exchange o := by rintro _ ⟨⟩
        rw [target_update l hop, hk.target] at htarget'
        exact (congrArg PerPrimitive.allocate htarget').symm
      rw [hb] at howns
      exact ⟨b, keeps_resize hk hold (hs b (.reallocate (some old) bytes) s trivial) howns⟩
  | release h =>
    by_cases hm : h ∈ l.handles
    · rw [hserve (if_pos hm)]
      simp only [update, hm, ↓reduceIte]
      have hlive := hs b (.release h) s trivial (hk.owns.mem_live h hm)
      have hentries (e : Entry) := mem_entries_strike (l := l.ready) hk.owns.nodup h e
      refine ⟨b, hk.shrink ((target_strike ..).trans hk.target) ?_ ?_ ?_⟩
      · rw [hlive]
        exact owns_strike (l := l.ready) hk.owns h
      · exact fun e he => ((hentries e).1 he).1
      · intro e he helive
        rw [hlive] at helive
        exact (hentries e).2 ⟨he, helive.2⟩
    · have hcalls : l.calls (.release h) = [] := if_neg hm
      simp only [hcalls, update, hm, ↓reduceIte]
      exact ⟨b, hk.shrink hk.target hk.owns (fun _ => id) (fun _ he _ => he)⟩

theorem Keeps.fresh (bs : Backends B σ) (live : B → σ → Set Handle) (st : Settings) (s : σ) :
    (Ledger.fresh bs st).Keeps live s ∅ (bs.builtin st.kind) where
  target := rfl
  owns := .nil _
  live _ hx := absurd hx (Set.notMem_empty _)
  held_of_mem _ he := absurd he List.not_mem_nil
  mem_of_held _ hx := absurd hx (Set.notMem_empty _)
  notMem _ hx := absurd hx (Set.notMem_empty _)

end Ledger

/-! ### Runs -/

namespace Tracker

variable {bs : Backends B σ} {live : B → σ → Set Handle} {t : Tracker B} {s : σ} {held : Set (Holding B)} {b : B}

theorem le_wraps_after (hw : t.window.WellFormed) (ops : List (Operation B)) (s : σ) :
    (t.ledger bs).wraps ≤ ((t.after bs ops s).1.ledger bs).wraps := by
  induction ops generalizing t s with
  | nil => exact Nat.le_refl _
  | cons op ops ih =>
    refine Nat.le_trans ?_ (ih (t := (t.perform bs op s).tracker) (wellFormed_perform hw op s) _)
    rw [(perform_spec bs hw op s).2.1]
    exact Ledger.le_wraps_update ..

theorem keeps_perform (hs : ∀ b, bs.Sound (live b) b) (hw : t.window.WellFormed)
    (hk : (t.ledger bs).Keeps live s held b) {op : Operation B} (hg : (t.ledger bs).Guarded live s op)
    (hwraps : ((t.perform bs op s).tracker.ledger bs).wraps = (t.ledger bs).wraps) :
    ∃ b', ((t.perform bs op s).tracker.ledger bs).Keeps live (t.perform bs op s).state
      (Step.note bs live held ⟨t, op, t.perform bs op s⟩) b' := by
  obtain ⟨hvalue, hledger, hstate⟩ := perform_spec bs hw op s
  rw [hledger] at hwraps
  rw [Step.note, hvalue, hledger, hstate]
  exact hk.perform hs hg hwraps

theorem keeps_after (hs : ∀ b, bs.Sound (live b) b) (hw : t.window.WellFormed)
    (hk : (t.ledger bs).Keeps live s held b) {ops : List (Operation B)}
    (hops : t.Allowed bs (fun t op s => (t.ledger bs).Guarded live s op) ops s)
    (hwraps : ((t.after bs ops s).1.ledger bs).wraps = (t.ledger bs).wraps) :
    ∃ b', ((t.after bs ops s).1.ledger bs).Keeps live (t.after bs ops s).2
      ((t.steps bs ops s).foldl (Step.note bs live) held) b' := by
  induction ops generalizing t s held b with
  | nil => exact ⟨b, hk⟩
  | cons op ops ih =>
    obtain ⟨hg, hrest⟩ := hops
    have hw' : (t.perform bs op s).tracker.window.WellFormed := wellFormed_perform hw op s
    -- the wraps never go down, so they are the same at every step in between
    have hfirst : (t.ledger bs).wraps ≤ ((t.perform bs op s).tracker.ledger bs).wraps := le_wraps_after hw [op] s
    have hthen : ((t.perform bs op s).tracker.ledger bs).wraps ≤ ((t.after bs (op :: ops) s).1.ledger bs).wraps :=
      le_wraps_after hw' ops (t.perform bs op s).state
    have heq := Nat.le_antisymm (hwraps ▸ hthen) hfirst
    obtain ⟨b', hk'⟩ := keeps_perform hs hw hk hg heq
    exact ih hw' hk' hrest (hwraps.trans heq.symm)

/-- A failed resize of a live block of the window takes its entry away just if it was one to nothing, and so whenever
the backend has released the block. -/
theorem mem_handles_of_failed (hs : ∀ b, bs.Sound (live b) b) (hw : t.window.WellFormed)
    (hnodup : t.window.handles.Nodup) {old : Handle} (hm : old ∈ t.window.handles)
    (hlive : old ∈ live (t.routing bs).target.reallocate s) {bytes : Nat}
    (hfail : (t.perform bs (.reallocate (some old) bytes) s).value.given = none) :
    let o := t.perform bs (.reallocate (some old) bytes) s
    (old ∈ o.tracker.window.handles ↔ bytes ≠ 0) ∧
      (old ∉ live (t.routing bs).target.reallocate o.state → old ∉ o.tracker.window.handles) := by
  intro o
  let r := bs.serve (t.routing bs).target.reallocate (.reallocate (some old) bytes) s
  obtain ⟨hvalue, hledger, hstate⟩ := perform_spec bs hw (.reallocate (some old) bytes) s
  have hsound : Call.Sound _ _ (.reallocate (some old) bytes) r.1 := hs _ (.reallocate (some old) bytes) s trivial
  have hnone : r.1 = none := by
    rw [hvalue] at hfail
    exact (Ledger.given_resultOf bytes r.1).symm.trans hfail
  have hafter : o.tracker.window.handles = ((t.ledger bs).update (.reallocate (some old) bytes) r.1).handles :=
    congrArg Ledger.handles hledger
  have hiff : old ∈ o.tracker.window.handles ↔ bytes ≠ 0 := by
    rw [hafter, hnone]
    simp only [Ledger.update]
    by_cases hb : bytes = 0
    · rw [if_pos hb]
      have hmem := (Ledger.handles_strike_perm (l := (t.ledger bs).ready) hm).mem_iff (a := old)
      rw [hmem]
      exact iff_of_false hnodup.not_mem_erase (not_not_intro hb)
    · rw [if_neg hb]
      exact iff_of_true hm hb
  refine ⟨hiff, fun hdead hin => ?_⟩
  rw [hnone] at hsound
  rcases hsound hlive with hsame | ⟨hb, -⟩
  · have hstill : old ∈ live (t.routing bs).target.reallocate o.state := by
      rw [hstate]
      exact hsame ▸ hlive
    exact hdead hstill
  · exact hiff.1 hin hb

/-- As long as the window of a tracker has not started over, its entries are the blocks that are held in the one backend
in use, with their sizes, apart from those whose backend declined to resize them to nothing, which are not in the
window.  The entry of a block stays when a resize of it fails, except for one to nothing. -/
theorem holdings_in_window (bs : Backends B σ) (live : B → σ → Set Handle) (hs : ∀ b, bs.Sound (live b) b)
    (st : Settings) (ops : List (Operation B)) (s : σ)
    (hops : (create st).Allowed bs (fun t op s => (t.ledger bs).Guarded live s op) ops s)
    (hwraps : ((create st).after bs ops s).1.window.wraps = 0) :
    let held := (create st).holdings bs live ops s
    let last := (create st).after bs ops s
    (∀ x ∈ held, x.declined = false → (last.1.routing bs).target = .all x.backend ∧ x.entry ∈ last.1.window.entries) ∧
    (∀ x ∈ held, x.declined = true → (last.1.routing bs).target = .all x.backend →
      x.entry.handle ∉ last.1.window.handles) ∧
    (∀ e ∈ last.1.window.entries, ∃ x ∈ held, x.declined = false ∧ x.entry = e) ∧
    ∀ old ∈ last.1.window.handles, ∀ bytes,
      let o := last.1.perform bs (.reallocate (some old) bytes) last.2
      o.value.given = none →
      (old ∈ o.tracker.window.handles ↔ bytes ≠ 0) ∧
      (old ∉ live (last.1.routing bs).target.reallocate o.state → old ∉ o.tracker.window.handles) := by
  intro held last
  have hw : (create (B := B) st).window.WellFormed := .create st.capacity_pos
  have hk : ((create st).ledger bs).Keeps live s ∅ (bs.builtin st.kind) := by
    rw [ledger_create]
    exact .fresh bs live st s
  obtain ⟨b, hlast⟩ := keeps_after hs hw hk hops hwraps
  have htarget : (last.1.routing bs).target = .all b := hlast.target
  refine ⟨?_, ?_, ?_, ?_⟩
  · intro x hx hdeclined
    obtain ⟨hb, hm⟩ := hlast.mem_of_held x hx hdeclined
    exact ⟨hb ▸ htarget, hm⟩
  · intro x hx hdeclined heq
    rw [htarget] at heq
    exact hlast.notMem x hx (congrArg PerPrimitive.allocate heq).symm hdeclined
  · exact fun e he => ⟨_, hlast.held_of_mem e he, rfl, rfl⟩
  · intro old hm bytes o hfail
    have hlive : old ∈ live (last.1.routing bs).target.reallocate last.2 := by
      rw [htarget]
      exact hlast.owns.mem_live old hm
    exact mem_handles_of_failed hs (wellFormed_after hw ops s) hlast.owns.nodup hm hlive hfail

/-- Blocks that are drained, moved, declined, resized in place and refused.  What is left in the window is all that is
held and was not declined. -/
theorem holdings_in_window_shelves :
    let st : Settings := ⟨4, .platform, by decide⟩
    let block (n : Nat) : Handle := ⟨n + 1, Nat.succ_ne_zero n⟩
    let ops : List (Operation Kind) :=
      [.allocate 8, .exchange (.all .system), .allocate 8, .zeroAllocate 16, .reallocate (some (block 0)) 480,
       .reallocate (some (block 1)) 0, .allocate 1000, .reallocate none 24, .reallocate (some (block 2)) 100,
       .release (block 3), .reallocate (some (block 2)) 900]
    ((create st).after Shelves.declining ops .empty).1.window.entries = [⟨block 2, 100⟩] ∧
    ∀ x ∈ (create st).holdings Shelves.declining Shelves.live ops .empty,
      x.declined = false → x.backend = .system ∧ x.entry = ⟨block 2, 100⟩ := by
  intro st block ops
  have hentries : ((create st).after Shelves.declining ops .empty).1.window.entries = [⟨block 2, 100⟩] := by
    decide +kernel
  have hsystem : (((create st).after Shelves.declining ops .empty).1.routing Shelves.declining).target =
      .all .system := by
    decide +kernel
  have resized {l : Ledger Kind} {s : Shelves} {old : Handle} {bytes : Nat} (hm : old ∈ s l.target.reallocate) :
      l.Guarded Shelves.live s (.reallocate (some old) bytes) := hm
  have hallowed : (create st).Allowed Shelves.declining
      (fun t op s => (t.ledger Shelves.declining).Guarded Shelves.live s op) ops .empty := by
    refine ⟨trivial, ⟨.system, rfl⟩, trivial, trivial, resized (by decide +kernel), resized (by decide +kernel), ?_⟩
    exact ⟨trivial, trivial, resized (by decide +kernel), trivial, resized (by decide +kernel), trivial⟩
  have hheld := (holdings_in_window Shelves.declining Shelves.live Shelves.declining_sound st ops .empty hallowed
    (by decide +kernel)).1
  refine ⟨hentries, fun x hx hdeclined => ?_⟩
  obtain ⟨htarget, hm⟩ := hheld x hx hdeclined
  rw [hsystem] at htarget
  rw [hentries] at hm
  exact ⟨(congrArg PerPrimitive.allocate htarget).symm, List.mem_singleton.1 hm⟩

/-- A backend that keeps a block that it is asked to resize to nothing: the block stays live, and its entry goes. -/
theorem loses_declined_block :
    ¬ ∀ (bs : Backends Kind Shelves) (live : Kind → Shelves → Set Handle), (∀ k, bs.Sound (live k) k) →
      ∀ (st : Settings) (ops : List (Operation Kind)) (s : Shelves),
        (create st).Allowed bs (fun t op s => (t.ledger bs).Guarded live s op) ops s →
        ((create st).after bs ops s).1.window.wraps = 0 →
        ∀ x ∈ (create st).holdings bs live ops s, x.entry ∈ ((create st).after bs ops s).1.window.entries := by
  intro hall
  let st : Settings := ⟨4, .platform, by decide⟩
  let block : Handle := ⟨1, by decide⟩
  let ops : List (Operation Kind) := [.allocate 8, .reallocate (some block) 0]
  let first := (create st).perform Shelves.declining (.allocate 8) .empty
  let second := first.tracker.perform Shelves.declining (.reallocate (some block) 0) first.state
  have hlive : block ∈ first.state .platform := by decide +kernel
  have hlive' : block ∈ second.state .platform := by decide +kernel
  have hallowed : (create st).Allowed Shelves.declining
      (fun t op s => (t.ledger Shelves.declining).Guarded Shelves.live s op) ops .empty := ⟨trivial, hlive, trivial⟩
  have hwraps : ((create st).after Shelves.declining ops .empty).1.window.wraps = 0 := by decide +kernel
  have hempty : ((create st).after Shelves.declining ops .empty).1.window.entries = [] := by decide +kernel
  have hheld : ⟨.platform, ⟨block, 8⟩, false⟩ ∈
      Step.note Shelves.declining Shelves.live ∅ ⟨create st, .allocate 8, first⟩ := ⟨.inl rfl, hlive⟩
  have hlost : ⟨.platform, ⟨block, 8⟩, true⟩ ∈
      (create st).holdings Shelves.declining Shelves.live ops .empty := ⟨.inr ⟨_, ⟨hheld, rfl, rfl⟩, rfl⟩, hlive'⟩
  have hm := hall Shelves.declining Shelves.live Shelves.declining_sound st ops .empty hallowed hwraps _ hlost
  rw [hempty] at hm
  exact absurd hm List.not_mem_nil

end Tracker

end BlockTracker
