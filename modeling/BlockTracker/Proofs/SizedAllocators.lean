import BlockTracker.Memory.Headed
import BlockTracker.Proofs.Stores
import Mathlib.Logic.Function.Basic

/-!
# Lawful sized allocators

What an allocator keeps to as long as it is told the right sizes (`SizedAllocator.Lawful`): it answers none or a new
block on a 16-byte boundary that is clear of the other blocks, and it leaves the bytes of the other blocks alone.
Nothing is said of calls that name no block or a wrong size.  An allocator that logs its calls (`SizedAllocator.logged`)
is lawful in the same way, and the log shows which block has which size (`recorded`) and that every call so far named
a block with the size it had (`Lawful.logged`).
-/

namespace BlockTracker

open ByteStore LawfulByteStore Headed

/-- The size of the block that starts at a place, if there is one. -/
abbrev BlockMap : Type := Nat → Option Nat

namespace BlockMap

variable {σ : Type} [ByteStore σ]

/-- A range that no block reaches into. -/
def Clear (blocks : BlockMap) (start size : Nat) : Prop := ∀ a n, blocks a = some n → start + size ≤ a ∨ a + n ≤ start

/-- Every block is there with the same size. -/
def Sub (rest blocks : BlockMap) : Prop := ∀ a n, rest a = some n → blocks a = some n

/-- All bytes of the blocks are the same in two states. -/
def Same (blocks : BlockMap) (s s' : σ) : Prop := ∀ a n, blocks a = some n → ∀ k < n, load s' (a + k) = load s (a + k)

def remove (blocks : BlockMap) (start : Nat) : BlockMap := Function.update blocks start none

def insert (blocks : BlockMap) (start size : Nat) : BlockMap := Function.update blocks start (some size)

variable {blocks rest : BlockMap} {start size a n : Nat}

theorem insert_self (blocks : BlockMap) (start size : Nat) : blocks.insert start size start = some size :=
  Function.update_self ..

theorem insert_of_ne (blocks : BlockMap) (size : Nat) (h : a ≠ start) : blocks.insert start size a = blocks a :=
  Function.update_of_ne h ..

theorem remove_self (blocks : BlockMap) (start : Nat) : blocks.remove start start = none := Function.update_self ..

theorem remove_of_ne (blocks : BlockMap) (h : a ≠ start) : blocks.remove start a = blocks a :=
  Function.update_of_ne h ..

theorem remove_eq_some : blocks.remove start a = some n ↔ a ≠ start ∧ blocks a = some n := by
  by_cases h : a = start
  · subst h
    simp [remove_self]
  · simp [remove_of_ne blocks h, h]

theorem insert_eq_some :
    blocks.insert start size a = some n ↔ (a = start ∧ n = size) ∨ (a ≠ start ∧ blocks a = some n) := by
  by_cases h : a = start
  · subst h
    simp [insert_self, eq_comm]
  · simp [insert_of_ne blocks size h, h]

theorem remove_sub (blocks : BlockMap) (start : Nat) : (blocks.remove start).Sub blocks :=
  fun _ _ h => (remove_eq_some.1 h).2

theorem Sub.remove (h : rest.Sub blocks) (start : Nat) : (rest.remove start).Sub (blocks.remove start) := by
  intro a n ha
  obtain ⟨hne, ha⟩ := remove_eq_some.1 ha
  exact remove_eq_some.2 ⟨hne, h a n ha⟩

theorem Sub.insert (h : rest.Sub blocks) (start size : Nat) :
    (rest.insert start size).Sub (blocks.insert start size) := by
  intro a n ha
  rcases insert_eq_some.1 ha with ⟨rfl, rfl⟩ | ⟨hne, ha⟩
  · exact insert_self ..
  · exact insert_eq_some.2 (.inr ⟨hne, h a n ha⟩)

theorem Clear.sub (h : blocks.Clear start size) (hsub : rest.Sub blocks) : rest.Clear start size :=
  fun a n ha => h a n (hsub a n ha)

theorem Same.sub {s s' : σ} (h : blocks.Same s s') (hsub : rest.Sub blocks) : rest.Same s s' :=
  fun a n ha => h a n (hsub a n ha)

end BlockMap

namespace SizedAllocator

variable {σ : Type} [ByteStore σ] {Has : BlockMap → σ → Prop} {raw : SizedAllocator σ}

/-- What an allocator that has the blocks `blocks` may answer when it is asked for `size` bytes and is to keep the
blocks of `rest`: a block that is clear of them, or none, and then it has the same blocks still. -/
def Makes (Has : BlockMap → σ → Prop) (blocks rest : BlockMap) (size : Nat) (s : σ) : Option Nat × σ → Prop
  | (none, s') => Has blocks s' ∧ blocks.Same s s'
  | (some start, s') =>
    start % headerSize = 0 ∧ rest.Clear start size ∧ Has (rest.insert start size) s' ∧ rest.Same s s'

/-- What an allocator keeps to.  `Has blocks s` tells that it has these blocks in state `s`. -/
structure Lawful [LawfulByteStore σ] (raw : SizedAllocator σ) (Has : BlockMap → σ → Prop) : Prop where
  allocate {blocks : BlockMap} {s : σ} {size : Nat} : Has blocks s → 0 < size → size ≤ sizeLimit →
    Makes Has blocks blocks size s (raw.allocate size s)
  allocateZeroed {blocks : BlockMap} {s : σ} {size : Nat} : Has blocks s → 0 < size → size ≤ sizeLimit →
    let r := raw.allocateZeroed size s
    Makes Has blocks blocks size s r ∧ ∀ start, r.1 = some start → ∀ k < size, load r.2 (start + k) = 0
  reallocate {blocks : BlockMap} {s : σ} {start old size : Nat} : Has blocks s → blocks start = some old → 0 < size →
    size ≤ sizeLimit →
    let r := raw.reallocate start old size s
    Makes Has blocks (blocks.remove start) size s r ∧
      ∀ new, r.1 = some new → ∀ k < min old size, load r.2 (new + k) = load s (start + k)
  deallocate {blocks : BlockMap} {s : σ} {start size : Nat} : Has blocks s → blocks start = some size →
    let s' := raw.deallocate start size s
    Has (blocks.remove start) s' ∧ (blocks.remove start).Same s s'
  store {blocks : BlockMap} {s : σ} {start size k : Nat} (b : UInt8) : Has blocks s → blocks start = some size →
    k < size → Has blocks (store s (start + k) b)
  held {blocks : BlockMap} {s : σ} {start size : Nat} :
    Has blocks s → blocks start = some size → HoldsRange s start size

end SizedAllocator

/-! ### Logs -/

/-- A call of a sized allocator. -/
inductive RawCall
  | allocate (size : Nat)
  | allocateZeroed (size : Nat)
  | reallocate (start old size : Nat)
  | deallocate (start size : Nat)
deriving DecidableEq

/-- A call with its answer. -/
structure RawEvent where
  call : RawCall
  answer : Option Nat
deriving DecidableEq

/-- A call names a block with the size that it has. -/
def RawCall.Fits (blocks : BlockMap) : RawCall → Prop
  | .reallocate start old _ => blocks start = some old
  | .deallocate start size => blocks start = some size
  | _ => True

/-- The blocks after a call. -/
def RawEvent.apply (blocks : BlockMap) (e : RawEvent) : BlockMap :=
  match e.call, e.answer with
  | .allocate size, some start | .allocateZeroed size, some start => blocks.insert start size
  | .reallocate old _ size, some start => (blocks.remove old).insert start size
  | .deallocate start _, _ => blocks.remove start
  | _, none => blocks

/-- The blocks that are left of the calls of a log, each with the size that the last call for it has asked for. -/
def recorded (log : List RawEvent) : BlockMap := log.foldl RawEvent.apply fun _ => none

theorem recorded_concat (log : List RawEvent) (e : RawEvent) : recorded (log ++ [e]) = e.apply (recorded log) := by
  rw [recorded, List.foldl_append]
  rfl

/-- Every call of a log names a block that the calls before it have left, with the size that it has. -/
def AllFit (log : List RawEvent) : Prop :=
  ∀ before e after, log = before ++ e :: after → e.call.Fits (recorded before)

theorem AllFit.concat {log : List RawEvent} {e : RawEvent} (h : AllFit log) (he : e.call.Fits (recorded log)) :
    AllFit (log ++ [e]) := by
  intro before e' after hlog
  rcases after.eq_nil_or_concat with rfl | ⟨init, last, rfl⟩
  · obtain ⟨rfl, hlast⟩ := List.append_inj' hlog rfl
    cases hlast
    exact he
  · rw [List.concat_eq_append, ← List.cons_append, ← List.append_assoc] at hlog
    exact h before e' init (List.append_inj' hlog rfl).1

/-- A store with the log of an allocator that works on it. -/
structure Logged (σ : Type) where
  base : σ
  log : List RawEvent

section

variable {σ : Type} [ByteStore σ]

instance : ByteStore (Logged σ) where
  load s a := load s.base a
  store s a b := { s with base := store s.base a b }

instance [LawfulByteStore σ] : LawfulByteStore (Logged σ) where
  Holds s a := Holds s.base a
  holds_store s a b x := holds_store s.base a b x
  load_store_self {s a} b h := load_store_self (m := s.base) (a := a) b h
  load_store_of_ne s {_ _} b h := load_store_of_ne s.base b h

theorem storeBytes_logged (s : Logged σ) (a : Nat) (bs : List UInt8) :
    storeBytes s a bs = ⟨storeBytes s.base a bs, s.log⟩ := by
  induction bs generalizing s a with
  | nil => rfl
  | cons b bs ih => exact ih ..

end

namespace SizedAllocator

variable {σ : Type}

/-- The same way to make a block of a size, with a log of the calls. -/
def logging (make : Nat → σ → Option Nat × σ) (call : Nat → RawCall) (size : Nat) (s : Logged σ) :
    Option Nat × Logged σ :=
  let (start, base) := make size s.base
  (start, ⟨base, s.log ++ [⟨call size, start⟩]⟩)

/-- The same allocator, with a log of its calls. -/
def logged (raw : SizedAllocator σ) : SizedAllocator (Logged σ) where
  allocate := logging raw.allocate .allocate
  allocateZeroed := logging raw.allocateZeroed .allocateZeroed
  reallocate start old := logging (raw.reallocate start old) (.reallocate start old)
  deallocate start size s := ⟨raw.deallocate start size s.base, s.log ++ [⟨.deallocate start size, none⟩]⟩

/-- The blocks are the ones that the log records, the allocator has them, and every call so far has fitted.  The
allocator may have other blocks, too. -/
structure Records (Has : BlockMap → σ → Prop) (blocks : BlockMap) (s : Logged σ) : Prop where
  recorded_eq : recorded s.log = blocks
  fit : AllFit s.log
  has : ∃ all, Has all s.base ∧ blocks.Sub all

variable [ByteStore σ] {Has : BlockMap → σ → Prop} {raw : SizedAllocator σ} {blocks rest all allRest : BlockMap}

/-- A call that asks for a block is answered as it should be, and the log follows. -/
private theorem makes_logged {s : Logged σ} {size : Nat} {c : RawCall} {r : Option Nat × σ} (h : Records Has blocks s)
    (hmakes : Makes Has all allRest size s.base r) (hsub : blocks.Sub all) (hrest : rest.Sub allRest)
    (hfit : c.Fits blocks) (hnone : RawEvent.apply blocks ⟨c, none⟩ = blocks)
    (hsome : ∀ start, RawEvent.apply blocks ⟨c, some start⟩ = rest.insert start size) :
    Makes (Records Has) blocks rest size s (r.1, ⟨r.2, s.log ++ [⟨c, r.1⟩]⟩) := by
  have hlog (answer : Option Nat) : AllFit (s.log ++ [⟨c, answer⟩]) :=
    h.fit.concat (by rw [h.recorded_eq]; exact hfit)
  obtain ⟨_ | start, base⟩ := r
  · obtain ⟨hhas, hsame⟩ := hmakes
    refine ⟨⟨?_, hlog none, all, hhas, hsub⟩, hsame.sub hsub⟩
    rw [recorded_concat, h.recorded_eq, hnone]
  · obtain ⟨haligned, hclear, hhas, hsame⟩ := hmakes
    refine ⟨haligned, hclear.sub hrest, ⟨?_, hlog (some start), _, hhas, hrest.insert start size⟩, hsame.sub hrest⟩
    rw [recorded_concat, h.recorded_eq, hsome]

/-- A log changes nothing of what an allocator keeps to, and every call that is made fits. -/
theorem Lawful.logged [LawfulByteStore σ] (hraw : raw.Lawful Has) : raw.logged.Lawful (Records Has) where
  allocate h hpos hle := by
    obtain ⟨all, hall, hsub⟩ := h.has
    exact makes_logged h (hraw.allocate hall hpos hle) hsub hsub trivial rfl fun _ => rfl
  allocateZeroed h hpos hle := by
    obtain ⟨all, hall, hsub⟩ := h.has
    obtain ⟨hmakes, hzero⟩ := hraw.allocateZeroed hall hpos hle
    exact ⟨makes_logged h hmakes hsub hsub trivial rfl fun _ => rfl, hzero⟩
  reallocate h hold hpos hle := by
    obtain ⟨all, hall, hsub⟩ := h.has
    obtain ⟨hmakes, hkept⟩ := hraw.reallocate hall (hsub _ _ hold) hpos hle
    exact ⟨makes_logged h hmakes hsub (hsub.remove _) hold rfl fun _ => rfl, hkept⟩
  deallocate h hstart := by
    obtain ⟨all, hall, hsub⟩ := h.has
    obtain ⟨hhas, hsame⟩ := hraw.deallocate hall (hsub _ _ hstart)
    refine ⟨⟨(recorded_concat ..).trans ?_, h.fit.concat ?_, _, hhas, hsub.remove _⟩, hsame.sub (hsub.remove _)⟩
    · rw [h.recorded_eq]
      rfl
    · rw [h.recorded_eq]
      exact hstart
  store b h hstart hk := by
    obtain ⟨all, hall, hsub⟩ := h.has
    exact ⟨h.recorded_eq, h.fit, all, hraw.store b hall (hsub _ _ hstart) hk, hsub⟩
  held h hstart := by
    obtain ⟨all, hall, hsub⟩ := h.has
    exact hraw.held hall (hsub _ _ hstart)

end SizedAllocator

end BlockTracker
