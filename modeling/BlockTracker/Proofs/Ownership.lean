import BlockTracker.Proofs.Runs
import BlockTracker.Proofs.Soundness

/-!
# Ownership of blocks

Over sound backends the handles in the window of a tracker are pairwise distinct and live in the backend in use
(`Ledger.Owned`), as long as the backends are exchanged for one backend at a time and only live blocks are resized
(`Ledger.Guarded`).  So every block that a run releases is live at that moment in the backend that it is released to:
no block is released twice, and none to a backend that does not have it (`releases_live`).
-/

namespace BlockTracker

variable {B σ : Type}

/-- A release finds its block live in the backend that it reaches. -/
def Served.Owned (live : B → σ → Set Handle) (x : Served B σ) : Prop :=
  ∀ h, x.call = .release h → h ∈ live x.backend x.before

/-! ### Lists of live blocks -/

/-- Distinct handles of live blocks. -/
structure Owns (live : Set Handle) (hs : List Handle) : Prop where
  nodup : hs.Nodup
  mem_live : ∀ h ∈ hs, h ∈ live

namespace Owns

variable {live : Set Handle} {hs hs' : List Handle} {h : Handle}

theorem nil (live : Set Handle) : Owns live [] := ⟨List.nodup_nil, fun _ hm => absurd hm List.not_mem_nil⟩

theorem perm (ho : Owns live hs) (hp : hs.Perm hs') : Owns live hs' :=
  ⟨hp.nodup_iff.1 ho.nodup, fun h hm => ho.mem_live h (hp.mem_iff.2 hm)⟩

theorem cons (ho : Owns live hs) (hn : h ∉ live) : Owns (insert h live) (h :: hs) := by
  refine ⟨List.nodup_cons.2 ⟨fun hm => hn (ho.mem_live h hm), ho.nodup⟩, ?_⟩
  intro x hx
  rcases List.mem_cons.1 hx with rfl | hx
  · exact Set.mem_insert ..
  · exact Set.mem_insert_of_mem _ (ho.mem_live x hx)

theorem sublist (ho : Owns live hs) (hsub : hs'.Sublist hs) : Owns live hs' :=
  ⟨ho.nodup.sublist hsub, fun h hm => ho.mem_live h (hsub.subset hm)⟩

/-- A block that goes leaves the others live. -/
theorem erase (ho : Owns live hs) (h : Handle) : Owns (live \ {h}) (hs.erase h) := by
  refine ⟨ho.nodup.erase h, fun x hx => ?_⟩
  obtain ⟨hne, hm⟩ := ho.nodup.mem_erase_iff.1 hx
  exact ⟨ho.mem_live x hm, hne⟩

theorem diff (ho : Owns live hs) (hn : h ∉ hs) : Owns (live \ {h}) hs := by
  have := ho.erase h
  rwa [List.erase_of_not_mem hn] at this

end Owns

/-! ### Ledgers -/

namespace Ledger

variable {l : Ledger B}

section Changes

variable {live live' : Set Handle}

theorem owns_grant (ho : Owns live l.handles) {block : Handle} (hn : block ∉ live) (bytes : Nat) :
    Owns (insert block live) (l.grant bytes (some block)).handles := by
  have hcons := ho.cons hn
  by_cases hroom : l.entries.length < l.capacity
  · rw [handles_grant_of_room hroom]
    exact hcons.perm (List.perm_append_singleton block _).symm
  · rw [handles_grant_of_full hroom]
    exact hcons.sublist (List.Sublist.cons_cons block (List.nil_sublist _))

theorem owns_strike (ho : Owns live l.handles) (h : Handle) : Owns (live \ {h}) (l.strike h).handles := by
  by_cases hm : h ∈ l.handles
  · exact (ho.erase h).perm (handles_strike_perm hm).symm
  · rw [strike_of_notMem hm]
    exact ho.diff hm

theorem owns_replace_same (ho : Owns live l.handles) (old : Handle) (bytes : Nat) :
    Owns live (l.replace old ⟨old, bytes⟩).handles := by
  by_cases hm : old ∈ l.handles
  · exact ho.perm ((List.perm_cons_erase hm).trans (handles_replace_perm hm ⟨old, bytes⟩).symm)
  · rwa [handles_replace_of_notMem hm]

theorem owns_replace_moved (ho : Owns live l.handles) {new : Handle} (hn : new ∉ live) (old : Handle) (bytes : Nat) :
    Owns (insert new (live \ {old})) (l.replace old ⟨new, bytes⟩).handles := by
  have hn' : new ∉ live \ {old} := fun hm => hn hm.1
  by_cases hm : old ∈ l.handles
  · exact ((ho.erase old).cons hn').perm (handles_replace_perm hm ⟨new, bytes⟩).symm
  · rw [handles_replace_of_notMem hm]
    exact ((ho.diff hm).cons hn').sublist (List.sublist_cons_self new _)

theorem owns_grant_of_grants (ho : Owns live l.handles) {answer : Option Handle} (hg : Grants live live' answer)
    (bytes : Nat) : Owns live' (l.grant bytes answer).handles := by
  cases answer with
  | none => exact hg ▸ ho
  | some block =>
    obtain ⟨hn, rfl⟩ := hg
    exact owns_grant ho hn bytes

private theorem owns_resize (ho : Owns live l.handles) {old : Handle} (hold : old ∈ live) {bytes : Nat}
    {answer : Option Handle} (hs : (Call.reallocate (some old) bytes).Sound live live' answer) :
    Owns live' (l.update (.reallocate (some old) bytes) answer).handles := by
  have hstrike : Owns (live \ {old}) (l.ready.strike old).handles := owns_strike (l := l.ready) ho old
  cases answer with
  | some new =>
    rcases hs hold with ⟨rfl, rfl⟩ | ⟨hn, rfl⟩
    · exact owns_replace_same (l := l.ready) ho _ bytes
    · exact owns_replace_moved (l := l.ready) ho hn old bytes
  | none =>
    simp only [update]
    by_cases hb : bytes = 0
    · rw [if_pos hb]
      -- whether the backend has kept the block or not, it is off the ledger
      rcases hs hold with rfl | ⟨-, rfl⟩
      · exact ⟨hstrike.nodup, fun h hm => (hstrike.mem_live h hm).1⟩
      · exact hstrike
    · rw [if_neg hb]
      rcases hs hold with rfl | ⟨hb', -⟩
      · exact ho
      · exact absurd hb' hb

end Changes

section Steps

variable {bs : Backends B σ} {live : B → σ → Set Handle} {b : B} {op : Operation B} {s : σ}

/-- The one backend in use owns the blocks of the window. -/
def Owned (live : B → σ → Set Handle) (l : Ledger B) (s : σ) : Prop :=
  ∃ b, l.target = .all b ∧ Owns (live b s) l.handles

/-- What an operation may be once ownership is to be kept: backends are exchanged for one backend, and only live
blocks are resized. -/
def Guarded (live : B → σ → Set Handle) (l : Ledger B) (s : σ) : Operation B → Prop
  | .exchange o => ∃ b, o = .all b
  | .reallocate (some old) _ => old ∈ live l.target.reallocate s
  | _ => True

/-- An operation releases live blocks only, and the blocks that are in the window afterwards are owned. -/
structure Safe (bs : Backends B σ) (live : B → σ → Set Handle) (l : Ledger B) (op : Operation B) (s : σ) : Prop where
  releases : ∀ x ∈ bs.trail l.target (l.calls op) s, x.Owned live
  owned : (l.perform bs op s).2.1.Owned live (l.perform bs op s).2.2

/-- Releasing a block leaves the others live. -/
theorem owns_release (hs : bs.Sound (live b) b) {block : Handle} {blocks : List Handle}
    (ho : Owns (live b s) (block :: blocks)) :
    live b (bs.serve b (.release block) s).2 = live b s \ {block} ∧
      Owns (live b (bs.serve b (.release block) s).2) blocks := by
  have hlive := hs (.release block) s trivial (ho.mem_live block List.mem_cons_self)
  have herase := ho.erase block
  rw [List.erase_cons_head] at herase
  exact ⟨hlive, hlive ▸ herase⟩

/-- Releasing the blocks of a list one after the other finds each of them live. -/
private theorem trail_releases (hs : bs.Sound (live b) b) {blocks : List Handle} (ho : Owns (live b s) blocks) :
    ∀ x ∈ bs.trail (.all b) (blocks.map .release) s, x.Owned live := by
  induction blocks generalizing s with
  | nil => exact fun x hx => absurd hx List.not_mem_nil
  | cons block blocks ih =>
    intro x hx
    rcases List.mem_cons.1 hx with rfl | hx
    · intro h hcall
      cases hcall
      exact ho.mem_live block List.mem_cons_self
    · exact ih (owns_release hs ho).2 x hx

/-- Releasing the blocks of a list leaves none of them live. -/
theorem live_releases (hs : bs.Sound (live b) b) {blocks : List Handle} (ho : Owns (live b s) blocks) :
    live b (bs.serveAll (.all b) (blocks.map .release) s).2 = live b s \ {h | h ∈ blocks} := by
  induction blocks generalizing s with
  | nil =>
    ext h
    simp [Backends.serveAll]
  | cons block blocks ih =>
    obtain ⟨hlive, hrest⟩ := owns_release hs ho
    rw [List.map_cons, Backends.snd_serveAll_cons, PerPrimitive.get_all, ih hrest, hlive]
    ext h
    simp [and_assoc]

/-- An operation that makes one call. -/
private theorem safe_call {c : Call} (htarget : l.target = .all b) (hop : ∀ o, op ≠ .exchange o) (hc : l.calls op = [c])
    (hrelease : ∀ h, c = .release h → h ∈ live b s)
    (ho : Owns (live b (bs.serve b c s).2) (l.update op (bs.serve b c s).1).handles) : l.Safe bs live op s := by
  have hget : l.target.get c.primitive = b := by rw [htarget, PerPrimitive.get_all]
  have hserve : bs.serveAll l.target (l.calls op) s = bs.serve b c s := by rw [hc, htarget, Backends.serveAll_one]
  constructor
  · intro x hx
    rw [hc, Backends.trail, Backends.trail, List.mem_singleton, hget] at hx
    subst hx
    exact hrelease
  · refine ⟨b, ?_, ?_⟩
    · rw [perform, hserve, target_update l hop, htarget]
    · rw [perform, hserve]
      exact ho

/-- An operation that makes no call. -/
private theorem safe_idle (htarget : l.target = .all b) (hop : ∀ o, op ≠ .exchange o) (hc : l.calls op = [])
    (ho : Owns (live b s) (l.update op none).handles) : l.Safe bs live op s := by
  have hserve : bs.serveAll l.target (l.calls op) s = (none, s) := by
    rw [hc]
    rfl
  constructor
  · rw [hc]
    exact fun x hx => absurd hx List.not_mem_nil
  · refine ⟨b, ?_, ?_⟩
    · rw [perform, hserve, target_update l hop, htarget]
    · rw [perform, hserve]
      exact ho

theorem safe_perform (hs : ∀ b, bs.Sound (live b) b) (ho : l.Owned live s) (hg : l.Guarded live s op) :
    l.Safe bs live op s := by
  obtain ⟨b, htarget, ho⟩ := ho
  cases op with
  | install => exact safe_idle htarget nofun rfl ho
  | liveCount => exact safe_idle htarget nofun rfl ho
  | isTracked h => exact safe_idle htarget nofun rfl ho
  | stats => exact safe_idle htarget nofun rfl ho
  | allocate bytes =>
    refine safe_call htarget nofun rfl nofun ?_
    exact owns_grant_of_grants (l := l.ready) ho (hs b (.allocate bytes) s trivial) bytes
  | zeroAllocate bytes =>
    refine safe_call htarget nofun rfl nofun ?_
    exact owns_grant_of_grants (l := l.ready) ho (hs b (.zeroAllocate bytes) s trivial) bytes
  | reallocate old bytes =>
    refine safe_call htarget nofun rfl nofun ?_
    cases old with
    | none => exact owns_grant_of_grants (l := l.ready) ho (hs b (.reallocate none bytes) s trivial) bytes
    | some old =>
      have hold : old ∈ live b s := by
        rw [Guarded, htarget] at hg
        exact hg
      exact owns_resize ho hold (hs b (.reallocate (some old) bytes) s trivial)
  | release h =>
    by_cases hm : h ∈ l.handles
    · have hlive := ho.mem_live h hm
      refine safe_call htarget nofun (if_pos hm) ?_ ?_
      · intro h' e
        cases e
        exact hlive
      · rw [hs b (.release h) s trivial hlive]
        simp only [update, hm, ↓reduceIte]
        exact owns_strike (l := l.ready) ho h
    · refine safe_idle htarget nofun (if_neg hm) ?_
      simp only [update, hm, ↓reduceIte]
      exact ho
  | collect =>
    refine ⟨?_, b, htarget, .nil _⟩
    rw [htarget]
    exact trail_releases (hs b) ho
  | exchange o =>
    -- the window is drained through the outgoing backend, and the incoming one has nothing to own yet
    obtain ⟨b', rfl⟩ := hg
    refine ⟨?_, b', rfl, .nil _⟩
    rw [htarget]
    exact trail_releases (hs b) ho

end Steps

end Ledger

/-! ### Runs -/

namespace Tracker

theorem owned_run {bs : Backends B σ} {live : B → σ → Set Handle} (hs : ∀ b, bs.Sound (live b) b) {t : Tracker B}
    (hw : t.window.WellFormed) {s : σ} (ho : (t.ledger bs).Owned live s) {ops : List (Operation B)}
    (hops : t.Allowed bs (fun t op s => (t.ledger bs).Guarded live s op) ops s) :
    ((t.after bs ops s).1.ledger bs).Owned live (t.after bs ops s).2 ∧ ∀ x ∈ t.callLog bs ops s, x.Owned live := by
  induction ops generalizing t s with
  | nil => exact ⟨ho, fun x hx => absurd hx List.not_mem_nil⟩
  | cons op ops ih =>
    obtain ⟨hg, hrest⟩ := hops
    have hstep := Ledger.safe_perform hs ho hg
    have howned := hstep.owned
    rw [← view_perform bs hw op s] at howned
    obtain ⟨hlast, hlog⟩ := ih (wellFormed_perform hw op s) howned hrest
    refine ⟨hlast, ?_⟩
    intro x hx
    rw [callLog_cons bs hw] at hx
    rcases List.mem_append.1 hx with hx | hx
    · exact hstep.releases x hx
    · exact hlog x hx

/-- A run from a fresh tracker that exchanges all backends at once and resizes live blocks only leaves distinct blocks
in the window, all of them live in the one backend in use, and each of its releases finds the block live in the backend
that it reaches. -/
theorem releases_live (bs : Backends B σ) (live : B → σ → Set Handle) (hs : ∀ b, bs.Sound (live b) b) (st : Settings)
    (ops : List (Operation B)) (s : σ)
    (hops : (create st).Allowed bs (fun t op s => (t.ledger bs).Guarded live s op) ops s) :
    let t := create st
    let last := t.after bs ops s
    (∃ b, (last.1.routing bs).target = .all b ∧ last.1.window.handles.Nodup ∧
      ∀ h ∈ last.1.window.handles, h ∈ live b last.2) ∧
    ∀ x ∈ t.callLog bs ops s, ∀ h, x.call = .release h → h ∈ live x.backend x.before := by
  intro t last
  have ho : (t.ledger bs).Owned live s := ⟨_, rfl, by rw [ledger_create]; exact .nil _⟩
  obtain ⟨⟨b, htarget, howns⟩, hlog⟩ := owned_run hs (.create st.capacity_pos) ho hops
  exact ⟨⟨b, htarget, howns.nodup, howns.mem_live⟩, hlog⟩

/-- A window of two slots that starts over, a block outside the window that moves, a block that a resize to nothing
takes away, and two exchanges.  Both backends hand block 1 out, and each gets its own back. -/
theorem releases_live_shelves :
    let st : Settings := ⟨2, .platform, by decide⟩
    let block (n : Nat) : Handle := ⟨n + 1, Nat.succ_ne_zero n⟩
    let ops : List (Operation Kind) :=
      [.allocate 8, .release (block 0), .allocate 8, .zeroAllocate 8, .reallocate none 8,
       .reallocate (some (block 0)) 480, .release (block 1), .exchange (.all .system), .allocate 8, .allocate 1000,
       .allocate 8, .reallocate (some (block 1)) 0, .exchange (.all .platform), .release (block 0), .allocate 8,
       .collect]
    let log := (create st).callLog Shelves.backends ops .empty
    (log.filter (·.call.primitive = .release)).map (fun x => (x.backend, x.call)) =
      [(.platform, .release (block 0)), (.platform, .release (block 2)), (.system, .release (block 0)),
       (.platform, .release (block 4))] ∧
    ∀ x ∈ log, ∀ h, x.call = .release h → h ∈ Shelves.live x.backend x.before := by
  intro st block ops log
  refine ⟨by decide +kernel, ?_⟩
  refine (releases_live Shelves.backends Shelves.live Shelves.sound st ops .empty ?_).2
  have resized {l : Ledger Kind} {s : Shelves} {old : Handle} {bytes : Nat} (hm : old ∈ s l.target.reallocate) :
      l.Guarded Shelves.live s (.reallocate (some old) bytes) := hm
  -- the two blocks that are resized lie on the shelf at that moment
  iterate 5 refine And.intro trivial ?_
  refine And.intro (resized (by decide +kernel)) ?_
  refine And.intro trivial (And.intro ⟨.system, rfl⟩ ?_)
  iterate 3 refine And.intro trivial ?_
  refine And.intro (resized (by decide +kernel)) ?_
  refine And.intro ⟨.platform, rfl⟩ ?_
  iterate 3 refine And.intro trivial ?_
  trivial

end Tracker

end BlockTracker
