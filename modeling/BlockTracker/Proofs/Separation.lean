import BlockTracker.Proofs.Ownership
import BlockTracker.Proofs.Relabelling

/-!
# Backends that share an address space

Sound backends are separate if a call of one leaves the blocks of the others alone and none hands out a block that is
live in another (`Backends.Separate`).  With separate backends a block stays live until it is used up, and a new block
is live nowhere before (`live_perform`, `given_perform`).  Models of such backends are heaps, which may be thrifty with
addresses or not (`Heaps.separate`).
-/

namespace BlockTracker

variable {B σ : Type}

/-- The block that a call is about, if any, is live. -/
def Call.Valid (live : Set Handle) : Call → Prop
  | .reallocate (some old) _ => old ∈ live
  | .release block => block ∈ live
  | _ => True

/-- Sound backends whose live blocks never coincide.  Nothing is said of calls for blocks that are not live. -/
structure Backends.Separate (bs : Backends B σ) (live : B → σ → Set Handle) : Prop where
  sound : ∀ b, bs.Sound (live b) b
  /-- A call of one backend leaves the blocks of the others live. -/
  apart : ∀ {b b' : B} {c : Call} {s : σ}, b' ≠ b → c.Valid (live b s) → live b' s ⊆ live b' (bs.serve b c s).2
  /-- A block that is handed out is live nowhere, unless a resize leaves it where it is. -/
  fresh : ∀ {b : B} {c : Call} {s : σ} {new : Handle}, c.Valid (live b s) → c.primitive ≠ .release →
    (bs.serve b c s).1 = some new → (∃ bytes, c = .reallocate (some new) bytes) ∨ ∀ b', new ∉ live b' s

namespace Ledger

variable {bs : Backends B σ} {live : B → σ → Set Handle} {l : Ledger B} {b : B} {op : Operation B} {s : σ} {h : Handle}

private theorem Grants.mono {live live' : Set Handle} {answer : Option Handle} (hg : Grants live live' answer) :
    live ⊆ live' := by
  cases answer with
  | none => exact hg.ge
  | some new =>
    obtain ⟨-, rfl⟩ := hg
    exact Set.subset_insert ..

/-- Only a call that uses a block up ends its life. -/
private theorem mem_live_serve {live live' : Set Handle} {c : Call} {answer : Option Handle} (hv : c.Valid live)
    (hs : c.Sound live live' answer) (hh : h ∈ live) (hn : h ∉ c.spent answer) : h ∈ live' := by
  cases c with
  | allocate bytes => exact Grants.mono hs hh
  | zeroAllocate bytes => exact Grants.mono hs hh
  | reallocate old bytes =>
    rcases old with _ | old
    · exact Grants.mono hs hh
    · rcases answer with _ | new
      · rcases hs hv with rfl | ⟨rfl, rfl⟩
        · exact hh
        · exact ⟨hh, mt List.mem_singleton.2 hn⟩
      · rcases hs hv with ⟨-, rfl⟩ | ⟨-, rfl⟩
        · exact hh
        · exact Set.mem_insert_of_mem _ ⟨hh, mt List.mem_singleton.2 hn⟩
  | release block =>
    have hlive' := hs hv
    rw [hlive']
    exact ⟨hh, mt List.mem_singleton.2 hn⟩

/-- The block that a request is answered is live from then on. -/
private theorem mem_live_of_answer {live live' : Set Handle} {c : Call} {new : Handle} (hv : c.Valid live)
    (hs : c.Sound live live' (some new)) (hp : c.primitive ≠ .release) : new ∈ live' := by
  have hgrant (hg : Grants live live' (some new)) : new ∈ live' := by
    rw [hg.2]
    exact Set.mem_insert ..
  cases c with
  | allocate bytes => exact hgrant hs
  | zeroAllocate bytes => exact hgrant hs
  | reallocate old bytes =>
    rcases old with _ | old
    · exact hgrant hs
    · rcases hs hv with ⟨rfl, rfl⟩ | ⟨-, rfl⟩
      · exact hv
      · exact Set.mem_insert ..
  | release block => exact absurd rfl hp

/-- Releasing blocks of one backend leaves the other blocks live. -/
private theorem mem_live_releases (hs : bs.Separate live) {blocks : List Handle} (ho : Owns (live b s) blocks) {b' : B}
    (hh : h ∈ live b' s) (hne : h ∉ blocks) : h ∈ live b' (bs.serveAll (.all b) (blocks.map .release) s).2 := by
  by_cases hb : b' = b
  · subst hb
    rw [live_releases (hs.sound b') ho]
    exact ⟨hh, hne⟩
  · induction blocks generalizing s with
    | nil => exact hh
    | cons block blocks ih =>
      have hvalid : (Call.release block).Valid (live b s) := ho.mem_live block List.mem_cons_self
      rw [List.map_cons, Backends.snd_serveAll_cons, PerPrimitive.get_all]
      exact ih (owns_release (hs.sound b) ho).2 (hs.apart hb hvalid hh) (List.not_mem_of_not_mem_cons hne)

/-- A block stays live, in whichever backend it is, unless the operation uses it up. -/
theorem live_perform (hs : bs.Separate live) (htarget : l.target = .all b) (ho : Owns (live b s) l.handles)
    (hg : l.Guarded live s op) {b' : B} (hh : h ∈ live b' s)
    (hn : h ∉ l.spent op (bs.serveAll l.target (l.calls op) s).1) :
    h ∈ live b' (bs.serveAll l.target (l.calls op) s).2 := by
  rw [htarget] at hn ⊢
  have hcall {c : Call} (hc : l.calls op = [c]) (hv : c.Valid (live b s)) :
      h ∈ live b' (bs.serveAll (.all b) (l.calls op) s).2 := by
    rw [spent_of_calls hc, hc, Backends.serveAll_one] at hn
    rw [hc, Backends.serveAll_one]
    by_cases hb : b' = b
    · subst hb
      exact mem_live_serve hv (hs.sound b' c s trivial) hh hn
    · exact hs.apart hb hv hh
  cases op with
  | allocate bytes => exact hcall rfl trivial
  | zeroAllocate bytes => exact hcall rfl trivial
  | reallocate old bytes =>
    rcases old with _ | old
    · exact hcall rfl trivial
    · rw [Guarded, htarget] at hg
      exact hcall rfl hg
  | release block =>
    by_cases hm : block ∈ l.handles
    · exact hcall (if_pos hm) (ho.mem_live block hm)
    · have hcalls : l.calls (.release block) = [] := if_neg hm
      rw [hcalls]
      exact hh
  | collect =>
    rw [spent_of_drains rfl] at hn
    exact mem_live_releases hs ho hh hn
  | exchange o =>
    rw [spent_of_drains rfl] at hn
    exact mem_live_releases hs ho hh hn
  | install => exact hh
  | liveCount => exact hh
  | isTracked block => exact hh
  | stats => exact hh

/-- A block that an operation answers is live from then on, and was live nowhere before, unless it is the block that was
to be resized. -/
theorem given_perform (hs : bs.Separate live) (htarget : l.target = .all b) (hg : l.Guarded live s op) {new : Handle}
    (hgiven : (l.reply bs op (bs.serveAll l.target (l.calls op) s).1).given = some new) :
    new ∈ live b (bs.serveAll l.target (l.calls op) s).2 ∧
      (op.subject = some new ∨ ∀ b', new ∉ live b' s) := by
  rw [htarget] at hgiven ⊢
  have hcall {c : Call} (hc : l.calls op = [c]) (hv : c.Valid (live b s)) (hp : c.primitive ≠ .release)
      (hsubject : ∀ bytes, c = .reallocate (some new) bytes → op.subject = some new)
      (hanswer : (bs.serveAll (.all b) (l.calls op) s).1 = some new) :
      new ∈ live b (bs.serveAll (.all b) (l.calls op) s).2 ∧ (op.subject = some new ∨ ∀ b', new ∉ live b' s) := by
    rw [hc, Backends.serveAll_one] at hanswer ⊢
    have hsound := hs.sound b c s trivial
    rw [hanswer] at hsound
    refine ⟨mem_live_of_answer hv hsound hp, (hs.fresh hv hp hanswer).imp_left ?_⟩
    rintro ⟨bytes, hbytes⟩
    exact hsubject bytes hbytes
  cases op with
  | allocate bytes =>
    rw [reply, given_resultOf] at hgiven
    exact hcall rfl trivial (by rintro ⟨⟩) (by rintro _ ⟨⟩) hgiven
  | zeroAllocate bytes =>
    rw [reply, given_resultOf] at hgiven
    exact hcall rfl trivial (by rintro ⟨⟩) (by rintro _ ⟨⟩) hgiven
  | reallocate old bytes =>
    rw [reply, given_resultOf] at hgiven
    rcases old with _ | old
    · exact hcall rfl trivial (by rintro ⟨⟩) (by rintro _ ⟨⟩) hgiven
    · rw [Guarded, htarget] at hg
      exact hcall rfl hg (by rintro ⟨⟩) (by rintro _ ⟨⟩; rfl) hgiven
  | _ => cases hgiven

end Ledger

/-! ### Heaps -/

/-- The heaps of both kinds of backends in one address space: their shelves, and an address that new blocks lie
above. -/
structure Heaps where
  shelves : Shelves
  floor : Nat

namespace Heaps

def empty : Heaps := ⟨.empty, 0⟩

/-- The largest size of a block that fits in. -/
def room : Nat := 1024

/-- A block above the floor and above all blocks on the shelves. -/
def next (a : Heaps) : Handle :=
  ⟨max a.floor (max (Shelves.top (a.shelves .platform)) (Shelves.top (a.shelves .system))) + 1, Nat.succ_ne_zero _⟩

/-- Puts the blocks of a list on a shelf. -/
def shelve (a : Heaps) (k : Kind) (hs : List Handle) : Heaps := { a with shelves := Function.update a.shelves k hs }

/-- Puts a new block on the shelf of a kind, with other blocks.  Heaps that are not thrifty never use its address
again. -/
def take (thrifty : Bool) (k : Kind) (hs : List Handle) (a : Heaps) : Option Handle × Heaps :=
  let a' := a.shelve k (a.next :: hs)
  (some a.next, if thrifty then a' else { a' with floor := a.next.addr })

/-- What a kind answers to a call.  Thrifty heaps resize blocks where they are and free those that are resized to
nothing; others move them and keep those. -/
def serve (thrifty : Bool) (k : Kind) (c : Call) (a : Heaps) : Option Handle × Heaps :=
  match c with
  | .allocate bytes | .zeroAllocate bytes | .reallocate none bytes =>
    if bytes ≤ room then a.take thrifty k (a.shelves k) else (none, a)
  | .reallocate (some old) bytes =>
    let rest := (a.shelves k).filter (· ≠ old)
    if bytes = 0 then (none, if thrifty then a.shelve k rest else a)
    else if room < bytes then (none, a)
    else if thrifty then (some old, a)
    else a.take thrifty k rest
  | .release block => (none, a.shelve k ((a.shelves k).filter (· ≠ block)))

def backends (thrifty : Bool) : Backends Kind Heaps where
  name := Kind.name
  builtin kind := kind
  serve := serve thrifty

/-- The blocks on the shelf of a kind. -/
def live (k : Kind) (a : Heaps) : Set Handle := Shelves.live k a.shelves

instance (k : Kind) (a : Heaps) (h : Handle) : Decidable (h ∈ live k a) :=
  inferInstanceAs (Decidable (h ∈ a.shelves k))

theorem next_notMem (a : Heaps) (k : Kind) : a.next ∉ live k a := by
  intro hm
  have htop : a.next.addr ≤ Shelves.top (a.shelves k) := Shelves.le_top hm
  have hnext : a.next.addr =
      max a.floor (max (Shelves.top (a.shelves .platform)) (Shelves.top (a.shelves .system))) + 1 := rfl
  cases k <;> omega

variable {thrifty : Bool} {k k' : Kind} {a : Heaps} {hs : List Handle}

theorem live_shelve (k : Kind) (a : Heaps) (hs : List Handle) : live k (a.shelve k hs) = {h | h ∈ hs} := by
  simp only [live, Shelves.live, shelve, Function.update_self]

theorem live_shelve_of_ne (hk : k' ≠ k) : live k' (a.shelve k hs) = live k' a := by
  simp only [live, Shelves.live, shelve, Function.update_of_ne hk]

theorem live_take : live k (a.take thrifty k hs).2 = insert a.next {h | h ∈ hs} := by
  have hshelves : (a.take thrifty k hs).2.shelves = (a.shelve k (a.next :: hs)).shelves := by
    cases thrifty <;> rfl
  rw [live, hshelves]
  refine (live_shelve k a (a.next :: hs)).trans ?_
  ext h
  simp

theorem live_take_of_ne (hk : k' ≠ k) : live k' (a.take thrifty k hs).2 = live k' a := by
  have hshelves : (a.take thrifty k hs).2.shelves = (a.shelve k (a.next :: hs)).shelves := by
    cases thrifty <;> rfl
  rw [live, hshelves]
  exact live_shelve_of_ne hk

private theorem grants_take (bytes : Nat) :
    let r := if bytes ≤ room then a.take thrifty k (a.shelves k) else (none, a)
    Grants (live k a) (live k r.2) r.1 := by
  intro r
  by_cases hb : bytes ≤ room
  · have hr : r = a.take thrifty k (a.shelves k) := if_pos hb
    rw [hr]
    exact ⟨next_notMem a k, live_take⟩
  · have hr : r = (none, a) := if_neg hb
    rw [hr]
    rfl

private theorem sound (thrifty : Bool) (k : Kind) : (backends thrifty).Sound (live k) k := by
  intro c a _
  cases c with
  | allocate bytes => exact grants_take bytes
  | zeroAllocate bytes => exact grants_take bytes
  | reallocate old bytes =>
    rcases old with _ | old
    · exact grants_take bytes
    · simp only [backends, serve]
      split
      · cases thrifty
        · exact fun _ => .inl rfl
        · exact fun _ => .inr ⟨‹_›, (live_shelve ..).trans (Shelves.mem_filter_ne ..)⟩
      split
      · exact fun _ => .inl rfl
      cases thrifty
      · refine fun _ => .inr ⟨next_notMem a k, live_take.trans ?_⟩
        rw [Shelves.mem_filter_ne]
        rfl
      · exact fun _ => .inl ⟨rfl, rfl⟩
  | release block => exact fun _ => (live_shelve ..).trans (Shelves.mem_filter_ne ..)

private theorem apart (hk : k' ≠ k) (c : Call) : live k' (serve thrifty k c a).2 = live k' a := by
  have hnew (bytes : Nat) :
      live k' (if bytes ≤ room then a.take thrifty k (a.shelves k) else (none, a)).2 = live k' a := by
    split
    · exact live_take_of_ne hk
    · rfl
  cases c with
  | allocate bytes => exact hnew bytes
  | zeroAllocate bytes => exact hnew bytes
  | reallocate old bytes =>
    rcases old with _ | old
    · exact hnew bytes
    · simp only [serve]
      split
      · cases thrifty
        · rfl
        · exact live_shelve_of_ne hk
      split
      · rfl
      cases thrifty
      · exact live_take_of_ne hk
      · rfl
  | release block => exact live_shelve_of_ne hk

/-- A new block is the next one, unless a resize leaves a block where it is. -/
private theorem eq_next (c : Call) {new : Handle} (hanswer : (serve thrifty k c a).1 = some new) :
    (∃ bytes, c = .reallocate (some new) bytes) ∨ new = a.next := by
  have hnew (bytes : Nat)
      (h : (if bytes ≤ room then a.take thrifty k (a.shelves k) else (none, a)).1 = some new) : new = a.next := by
    split at h
    · exact (Option.some.inj h).symm
    · cases h
  cases c with
  | allocate bytes => exact .inr (hnew bytes hanswer)
  | zeroAllocate bytes => exact .inr (hnew bytes hanswer)
  | reallocate old bytes =>
    rcases old with _ | old
    · exact .inr (hnew bytes hanswer)
    · simp only [serve] at hanswer
      split at hanswer
      · cases hanswer
      split at hanswer
      · cases hanswer
      cases thrifty
      · exact .inr (Option.some.inj hanswer).symm
      · cases hanswer
        exact .inl ⟨bytes, rfl⟩
  | release block => cases hanswer

theorem separate (thrifty : Bool) : (backends thrifty).Separate live where
  sound := sound thrifty
  apart hk _ := (apart hk _).ge
  fresh {_ c s new} _ _ hanswer := by
    rcases eq_next c hanswer with hsame | rfl
    · exact .inl hsame
    · exact .inr fun b' => next_notMem s b'

end Heaps

end BlockTracker
