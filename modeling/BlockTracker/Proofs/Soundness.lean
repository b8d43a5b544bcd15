import BlockTracker.Backend.Basic
import Mathlib.Data.Set.Insert
import Mathlib.Logic.Function.Basic

/-!
# Sound backends

A backend is sound if it keeps a set of live blocks (`Backends.Sound`): it hands out only blocks that are not live,
and a block is live from then on until it is released or a resize frees or moves it.  Nothing is said of calls for
blocks that are not live.  A model of such backends are shelves (`Shelves.sound`).
-/

namespace BlockTracker

variable {B σ : Type}

/-- The answer to a request for a new block: a block that is not live yet, or none. -/
def Grants (live live' : Set Handle) : Option Handle → Prop
  | some new => new ∉ live ∧ live' = insert new live
  | none => live' = live

/-- What a call of a sound backend answers while the blocks of `live` are live, and the blocks `live'` that are live
afterwards.  A resize leaves the block where it is, or moves it, or fails; only one to zero bytes may free it. -/
def Call.Sound (live live' : Set Handle) : Call → Option Handle → Prop
  | .allocate _, answer | .zeroAllocate _, answer | .reallocate none _, answer => Grants live live' answer
  | .reallocate (some old) _, some new =>
    old ∈ live → (new = old ∧ live' = live) ∨ (new ∉ live ∧ live' = insert new (live \ {old}))
  | .reallocate (some old) bytes, none => old ∈ live → live' = live ∨ (bytes = 0 ∧ live' = live \ {old})
  | .release block, _ => block ∈ live → live' = live \ {block}

/-- Whether `b` soundly serves the calls with property `P`, with `live` the blocks that are live in a state. -/
def Backends.SoundOn (bs : Backends B σ) (P : Call → Prop) (live : σ → Set Handle) (b : B) : Prop :=
  ∀ c s, P c → c.Sound (live s) (live (bs.serve b c s).2) (bs.serve b c s).1

/-- A backend that is sound whatever it is called for. -/
def Backends.Sound (bs : Backends B σ) (live : σ → Set Handle) (b : B) : Prop := bs.SoundOn (fun _ => True) live b

/-! ### Shelves -/

/-- For each kind of backend the blocks on its shelf.  The shelves number their blocks independently, so that a block
of one has the same handle as a block of another. -/
abbrev Shelves : Type := Kind → List Handle

namespace Shelves

def empty : Shelves := fun _ => []

/-- The highest address on a shelf. -/
def top (hs : List Handle) : Nat := hs.foldr (fun h n => max h.addr n) 0

/-- The block after the highest one; a block that was taken away from the top comes back. -/
def next (hs : List Handle) : Handle := ⟨top hs + 1, Nat.succ_ne_zero _⟩

/-- The largest size of a block that fits on a shelf. -/
def room : Nat := 512

/-- What a shelf answers to a call.  A resize to at most half of the room leaves a block where it is, and a resize to
nothing takes it away. -/
def serve (c : Call) (hs : List Handle) : Option Handle × List Handle :=
  match c with
  | .allocate bytes | .zeroAllocate bytes | .reallocate none bytes =>
    if bytes ≤ room then (some (next hs), next hs :: hs) else (none, hs)
  | .reallocate (some old) bytes =>
    if bytes = 0 then (none, hs.filter (· ≠ old))
    else if bytes ≤ room / 2 then (some old, hs)
    else if bytes ≤ room then (some (next hs), next hs :: hs.filter (· ≠ old))
    else (none, hs)
  | .release block => (none, hs.filter (· ≠ block))

def backends : Backends Kind Shelves where
  name := Kind.name
  builtin kind := kind
  serve k c s :=
    let (answer, hs) := serve c (s k)
    (answer, Function.update s k hs)

/-- The blocks on the shelf of a kind. -/
def live (k : Kind) (s : Shelves) : Set Handle := {h | h ∈ s k}

theorem le_top {hs : List Handle} {h : Handle} (hm : h ∈ hs) : h.addr ≤ top hs := by
  induction hs with
  | nil => exact absurd hm List.not_mem_nil
  | cons x hs ih =>
    rw [top, List.foldr_cons]
    rcases List.mem_cons.1 hm with rfl | hm
    · exact Nat.le_max_left ..
    · exact (ih hm).trans (Nat.le_max_right ..)

theorem next_notMem (hs : List Handle) : next hs ∉ hs := by
  intro hm
  have : top hs + 1 ≤ top hs := le_top hm
  omega

theorem mem_filter_ne (hs : List Handle) (block : Handle) :
    {h | h ∈ hs.filter (· ≠ block)} = ({h | h ∈ hs} : Set Handle) \ {block} := by
  ext h
  simp

private theorem grants_next (hs : List Handle) (bytes : Nat) :
    let r := if bytes ≤ room then (some (next hs), next hs :: hs) else (none, hs)
    Grants {h | h ∈ hs} {h | h ∈ r.2} r.1 := by
  intro r
  by_cases hb : bytes ≤ room
  · have hr : r = (some (next hs), next hs :: hs) := if_pos hb
    rw [hr]
    refine ⟨next_notMem hs, ?_⟩
    ext h
    simp
  · have hr : r = (none, hs) := if_neg hb
    rw [hr]
    rfl

private theorem serve_sound (c : Call) (hs : List Handle) :
    c.Sound {h | h ∈ hs} {h | h ∈ (serve c hs).2} (serve c hs).1 := by
  cases c with
  | allocate bytes => exact grants_next hs bytes
  | zeroAllocate bytes => exact grants_next hs bytes
  | reallocate old bytes =>
    cases old with
    | none => exact grants_next hs bytes
    | some old =>
      simp only [serve]
      split
      · exact fun _ => .inr ⟨‹_›, mem_filter_ne hs old⟩
      split
      · exact fun _ => .inl ⟨rfl, rfl⟩
      split
      · refine fun _ => .inr ⟨next_notMem hs, ?_⟩
        rw [← mem_filter_ne]
        ext h
        simp
      · exact fun _ => .inl rfl
  | release block => exact fun _ => mem_filter_ne hs block

theorem sound (k : Kind) : backends.Sound (live k) k := by
  intro c s _
  have hlive : live k (backends.serve k c s).2 = {h | h ∈ (serve c (s k)).2} := by
    simp only [live, backends, Function.update_self]
  rw [hlive]
  exact serve_sound c (s k)

/-- The same shelves, but a block that is resized to nothing stays on its shelf. -/
def declining : Backends Kind Shelves where
  name := backends.name
  builtin := backends.builtin
  serve k c s :=
    match c with
    | .reallocate (some _) 0 => (none, s)
    | c => backends.serve k c s

theorem declining_sound (k : Kind) : declining.Sound (live k) k := by
  intro c s hc
  by_cases h : ∃ old, c = .reallocate (some old) 0
  · obtain ⟨old, rfl⟩ := h
    exact fun _ => .inl rfl
  · have hserve : declining.serve k c s = backends.serve k c s := by
      simp only [declining]
      split
      · exact absurd ⟨_, rfl⟩ h
      · rfl
    rw [hserve]
    exact sound k c s hc

end Shelves

end BlockTracker
