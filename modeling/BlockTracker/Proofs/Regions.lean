import BlockTracker.Memory.Builtin
import BlockTracker.Proofs.SizedAllocators
import Mathlib.Data.List.Pairwise

/-!
# Memories as sized allocators

A memory is tidy (`Memory.Tidy`) if its regions do not overlap and lie below a frontier on a 16-byte boundary.  A tidy
memory that takes every region afresh is a lawful sized allocator (`Memory.lawful_sized`): new regions begin at the
frontier, and what is stored in a region changes neither where the regions are nor how large.
-/

namespace BlockTracker

open ByteStore LawfulByteStore Headed

namespace Memory

variable {m : Memory} {r : Region} {a k n : Nat}

/-- Where the regions start, and their sizes. -/
def extents (m : Memory) : List (Nat × Nat) := m.regions.map fun r => (r.start, r.bytes.size)

/-- The regions as blocks. -/
def blocks (m : Memory) : BlockMap := fun a => (m.extents.find? (·.1 = a)).map (·.2)

structure Tidy (m : Memory) : Prop where
  aligned : m.frontier % headerSize = 0
  pos : ∀ e ∈ m.extents, 0 < e.2
  below : ∀ e ∈ m.extents, e.1 + e.2 ≤ m.frontier
  apart : m.extents.Pairwise fun e e' => e.1 + e.2 ≤ e'.1 ∨ e'.1 + e'.2 ≤ e.1

theorem tidy_empty : empty.Tidy := ⟨rfl, nofun, nofun, .nil⟩

/-! ### Extents -/

theorem mem_extents_of_blocks (h : m.blocks a = some n) : (a, n) ∈ m.extents := by
  obtain ⟨e, he, rfl⟩ := Option.map_eq_some_iff.1 h
  have hstart : e.1 = a := by simpa only [decide_eq_true_eq] using List.find?_some he
  rw [← hstart]
  exact List.mem_of_find?_eq_some he

theorem blocks_eq (m : Memory) (a : Nat) : m.blocks a = (m.region? a).map (·.bytes.size) := by
  rw [blocks, extents, List.find?_map, Option.map_map]
  rfl

theorem exists_region (h : m.blocks a = some n) :
    ∃ r, m.region? a = some r ∧ r ∈ m.regions ∧ r.start = a ∧ r.bytes.size = n := by
  rw [blocks_eq] at h
  obtain ⟨r, hr, hsize⟩ := Option.map_eq_some_iff.1 h
  have hstart : r.start = a := by simpa only [decide_eq_true_eq] using List.find?_some hr
  exact ⟨r, hr, List.mem_of_find?_eq_some hr, hstart, hsize⟩

theorem covers_iff : r.covers a = true ↔ r.start ≤ a ∧ a < r.start + r.bytes.size := by
  rw [Region.covers, Bool.and_eq_true, decide_eq_true_eq, decide_eq_true_eq]

theorem extents_add (m : Memory) (r : Region) : (m.add r).extents = (r.start, r.bytes.size) :: m.extents := rfl

theorem extents_remove (m : Memory) (a : Nat) : (m.remove a).extents = m.extents.filter (·.1 ≠ a) := by
  rw [extents, extents, List.filter_map]
  rfl

theorem blocks_add (m : Memory) (r : Region) : (m.add r).blocks = m.blocks.insert r.start r.bytes.size := by
  funext a
  by_cases h : r.start = a
  · subst h
    rw [BlockMap.insert_self, blocks, extents_add, List.find?_cons_of_pos (by exact decide_eq_true rfl),
      Option.map_some]
  · rw [BlockMap.insert_of_ne _ _ (Ne.symm h), blocks, extents_add, List.find?_cons_of_neg (by simpa using h), blocks]

theorem blocks_remove (m : Memory) (a : Nat) : (m.remove a).blocks = m.blocks.remove a := by
  funext x
  rw [blocks, extents_remove, List.find?_filter]
  by_cases h : x = a
  · subst h
    rw [BlockMap.remove_self, Option.map_eq_none_iff, List.find?_eq_none]
    simp
  · rw [BlockMap.remove_of_ne _ h, blocks]
    congr 2
    funext e
    have hother : e.1 = x → e.1 ≠ a := fun he => he ▸ h
    rw [Bool.eq_iff_iff]
    simpa using hother

theorem extents_store (m : Memory) (a : Nat) (b : UInt8) : (m.store a b).extents = m.extents := by
  have aux (rs : List Region) :
      (storeIn a b rs).map (fun r => (r.start, r.bytes.size)) = rs.map fun r => (r.start, r.bytes.size) := by
    induction rs with
    | nil => rfl
    | cons r rs ih =>
      rw [storeIn]
      split
      · simp only [List.map_cons, Array.size_setIfInBounds]
      · rw [List.map_cons, List.map_cons, ih]
  exact aux m.regions

/-! ### What the memory keeps -/

/-- A place lies in one region at most. -/
theorem Tidy.eq_of_covers (h : m.Tidy) {r' : Region} (hr : r ∈ m.regions) (hr' : r' ∈ m.regions)
    (hc : r.covers a = true) (hc' : r'.covers a = true) : r' = r := by
  rw [covers_iff] at hc hc'
  have : Std.Symm fun r r' : Region => r.start + r.bytes.size ≤ r'.start ∨ r'.start + r'.bytes.size ≤ r.start :=
    ⟨fun _ _ => Or.symm⟩
  refine Classical.byContradiction fun hne => ?_
  have := (List.pairwise_map.1 h.apart).forall hr' hr hne
  omega

theorem Tidy.find?_covers (h : m.Tidy) (hr : r ∈ m.regions) (hc : r.covers a = true) :
    m.regions.find? (·.covers a) = some r := by
  have hsome : (m.regions.find? (·.covers a)).isSome = true := List.find?_isSome.2 ⟨r, hr, hc⟩
  obtain ⟨r', hr'⟩ := Option.isSome_iff_exists.1 hsome
  have hc' : r'.covers a = true := List.find?_some (p := fun r : Region => r.covers a) hr'
  rw [hr', h.eq_of_covers hr (List.mem_of_find?_eq_some hr') hc hc']

theorem Tidy.load_region (h : m.Tidy) (hr : r ∈ m.regions) (hk : k < r.bytes.size) :
    ByteStore.load m (r.start + k) = r.bytes.getD k 0 := by
  have hc : r.covers (r.start + k) = true := covers_iff.2 (by omega)
  change Memory.load m _ = _
  simp only [Memory.load, h.find?_covers hr hc, Nat.add_sub_cancel_left]

theorem Tidy.add (h : m.Tidy) (hstart : r.start = m.frontier) (hpos : 0 < r.bytes.size) : (m.add r).Tidy where
  aligned := by
    have := h.aligned
    simp only [Memory.add, roundUp]
    unfold headerSize at this ⊢
    omega
  pos e he := by
    rw [extents_add] at he
    rcases List.mem_cons.1 he with rfl | he
    · exact hpos
    · exact h.pos e he
  below e he := by
    rw [extents_add] at he
    simp only [Memory.add, roundUp]
    rcases List.mem_cons.1 he with rfl | he
    · simp only
      omega
    · have := h.below e he
      omega
  apart := by
    rw [extents_add]
    refine List.pairwise_cons.2 ⟨fun e he => .inr ?_, h.apart⟩
    have := h.below e he
    simp only
    omega

theorem Tidy.remove (h : m.Tidy) (a : Nat) : (m.remove a).Tidy := by
  have hsub : (m.remove a).extents.Sublist m.extents := by
    rw [extents_remove]
    exact List.filter_sublist
  exact ⟨h.aligned, fun e he => h.pos e (hsub.subset he), fun e he => h.below e (hsub.subset he), h.apart.sublist hsub⟩

/-- The frontier is clear of all blocks. -/
theorem Tidy.clear (h : m.Tidy) (size : Nat) : m.blocks.Clear m.frontier size :=
  fun _ _ ha => .inr (h.below _ (mem_extents_of_blocks ha))

/-- A new region at the frontier covers no other block. -/
theorem Tidy.same_add (h : m.Tidy) (hstart : r.start = m.frontier) : m.blocks.Same m (m.add r) := by
  intro a n ha k hk
  have hbelow : a + n ≤ m.frontier := h.below _ (mem_extents_of_blocks ha)
  have hnot : ¬ r.covers (a + k) = true := by
    rw [covers_iff]
    omega
  change Memory.load _ _ = Memory.load _ _
  simp only [Memory.load, Memory.add, List.find?_cons, hnot]

/-- What stands in the other blocks stays when a region goes. -/
theorem Tidy.same_remove (h : m.Tidy) (start : Nat) : (m.blocks.remove start).Same m (m.remove start) := by
  intro a n ha k hk
  obtain ⟨hne, ha⟩ := BlockMap.remove_eq_some.1 ha
  obtain ⟨r, -, hr, rfl, rfl⟩ := exists_region ha
  have hrest : r ∈ (m.remove start).regions := List.mem_filter.2 ⟨hr, by simpa using hne⟩
  rw [(h.remove start).load_region hrest hk, h.load_region hr hk]

/-! ### The allocator -/

/-- A tidy memory has just the blocks that its regions are. -/
def HasBlocks (bs : BlockMap) (m : Memory) : Prop := m.Tidy ∧ m.blocks = bs

theorem size_resizeBytes (bytes : Array UInt8) (size : Nat) : (resizeBytes bytes size).size = size := by
  simp only [resizeBytes, Array.size_append, Array.size_extract, Array.size_replicate]
  omega

theorem getD_resizeBytes {bytes : Array UInt8} {size : Nat} (hk : k < min bytes.size size) :
    (resizeBytes bytes size).getD k 0 = bytes.getD k 0 := by
  have hlt : k < min size bytes.size - 0 := by omega
  have hkept : k < (bytes.take size).size := by rwa [Array.size_extract]
  rw [Array.getD_eq_getD_getElem?, Array.getD_eq_getD_getElem?, resizeBytes, Array.getElem?_append_left hkept,
    Array.getElem?_extract, if_pos hlt, Nat.zero_add]

/-- Puts a region with these bytes in use at the frontier of `rest`, or leaves the memory as it is. -/
def place (m rest : Memory) (bytes : Array UInt8) : Option Nat × Memory :=
  match afresh rest bytes.size with
  | none => (none, m)
  | some start => (some start, rest.add ⟨start, bytes⟩)

theorem allocate_eq (m : Memory) (size : Nat) : m.allocate afresh size = place m m (.replicate size 0) := by
  rw [place, Array.size_replicate]
  rfl

theorem resize_eq {start : Nat} (hr : m.region? start = some r) (size : Nat) :
    m.resize afresh start size = place m (m.remove start) (resizeBytes r.bytes size) := by
  rw [place, size_resizeBytes, resize, hr]
  rfl

section

variable {rest : Memory} {bytes : Array UInt8}

theorem place_of_room (h : rest.frontier + bytes.size ≤ addressLimit) :
    place m rest bytes = (some rest.frontier, rest.add ⟨rest.frontier, bytes⟩) := by
  simp only [place, afresh, h, ↓reduceIte]

theorem place_of_no_room (h : ¬ rest.frontier + bytes.size ≤ addressLimit) : place m rest bytes = (none, m) := by
  simp only [place, afresh, h, ↓reduceIte]

theorem makes_place (h : m.Tidy) (hrest : rest.Tidy) (hsame : rest.blocks.Same m rest) (hpos : 0 < bytes.size) :
    SizedAllocator.Makes HasBlocks m.blocks rest.blocks bytes.size m (place m rest bytes) := by
  by_cases hroom : rest.frontier + bytes.size ≤ addressLimit
  · rw [place_of_room hroom]
    refine ⟨hrest.aligned, hrest.clear _, ⟨hrest.add rfl hpos, blocks_add ..⟩, fun a n ha k hk => ?_⟩
    exact (hrest.same_add rfl a n ha k hk).trans (hsame a n ha k hk)
  · rw [place_of_no_room hroom]
    exact ⟨⟨h, rfl⟩, fun _ _ _ _ _ => rfl⟩

theorem makes_zeros (h : m.Tidy) {size : Nat} (hpos : 0 < size) :
    SizedAllocator.Makes HasBlocks m.blocks m.blocks size m (m.allocate afresh size) := by
  have hsize : (Array.replicate size (0 : UInt8)).size = size := Array.size_replicate
  have hmakes := makes_place h h (fun _ _ _ _ _ => rfl) (hsize.symm ▸ hpos)
  rwa [hsize, ← allocate_eq] at hmakes

theorem load_place (hrest : rest.Tidy) {start : Nat} (hstart : (place m rest bytes).1 = some start)
    (hk : k < bytes.size) : ByteStore.load (place m rest bytes).2 (start + k) = bytes.getD k 0 := by
  by_cases hroom : rest.frontier + bytes.size ≤ addressLimit
  · rw [place_of_room hroom] at hstart ⊢
    cases hstart
    have hnew : (rest.add ⟨rest.frontier, bytes⟩).Tidy := hrest.add rfl (Nat.zero_lt_of_lt hk)
    exact hnew.load_region (r := ⟨rest.frontier, bytes⟩) List.mem_cons_self hk
  · rw [place_of_no_room hroom] at hstart
    cases hstart

end

theorem Tidy.store (h : m.Tidy) (a : Nat) (b : UInt8) : (m.store a b).Tidy ∧ (m.store a b).blocks = m.blocks := by
  have hextents := extents_store m a b
  refine ⟨⟨h.aligned, hextents ▸ h.pos, hextents ▸ h.below, hextents ▸ h.apart⟩, ?_⟩
  unfold blocks
  rw [hextents]

/-- A memory that takes every region afresh is a lawful allocator. -/
theorem lawful_sized : (sized afresh).Lawful HasBlocks where
  allocate {bs m size} hm hpos _ := by
    obtain ⟨h, rfl⟩ := hm
    exact makes_zeros h hpos
  allocateZeroed {bs m size} hm hpos _ := by
    obtain ⟨h, rfl⟩ := hm
    refine ⟨makes_zeros h hpos, fun start hstart k hk => ?_⟩
    have hstart' : (m.allocate afresh size).1 = some start := hstart
    change ByteStore.load (m.allocate afresh size).2 (start + k) = 0
    rw [allocate_eq] at hstart' ⊢
    rw [load_place h hstart' (by rwa [Array.size_replicate]), Array.getD_eq_getD_getElem?, Array.getElem?_replicate,
      if_pos hk, Option.getD_some]
  reallocate {bs m start old size} hm hold hpos _ := by
    obtain ⟨h, rfl⟩ := hm
    obtain ⟨r, hregion, hr, rfl, rfl⟩ := exists_region hold
    have hsize := size_resizeBytes r.bytes size
    have hrest := h.remove r.start
    have hsame : (m.remove r.start).blocks.Same m (m.remove r.start) := by
      rw [blocks_remove]
      exact h.same_remove r.start
    have hmakes := makes_place h hrest hsame (hsize.symm ▸ hpos)
    rw [hsize, ← resize_eq hregion, blocks_remove] at hmakes
    refine ⟨hmakes, fun new hnew k hk => ?_⟩
    have hnew' : (m.resize afresh r.start size).1 = some new := hnew
    have hlt : k < (resizeBytes r.bytes size).size := by omega
    change ByteStore.load (m.resize afresh r.start size).2 (new + k) = _
    rw [resize_eq hregion] at hnew' ⊢
    rw [load_place hrest hnew' hlt, getD_resizeBytes hk, h.load_region hr (by omega)]
  deallocate {bs m start size} hm _ := by
    obtain ⟨h, rfl⟩ := hm
    exact ⟨⟨h.remove start, blocks_remove m start⟩, h.same_remove start⟩
  store b hm _ _ := by
    obtain ⟨h, rfl⟩ := hm
    exact h.store _ b
  held {bs m start size} hm hstart := by
    obtain ⟨h, rfl⟩ := hm
    obtain ⟨r, -, hr, rfl, rfl⟩ := exists_region hstart
    exact fun k hk => List.any_eq_true.2 ⟨r, hr, covers_iff.2 (by omega)⟩

end Memory

end BlockTracker
