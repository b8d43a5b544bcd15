import BlockTracker.Proofs.Copies

/-!
# Copies between two arrays

Chunk by chunk, a copy from one store to another stores what it would store all at once (`copyChunksAcross_eq`), so the
pass over the words and the pass over the rest leave in the destination just a prefix of the source
(`copyAcross_eq`).  A store that keeps a list of the places stored to (`Recorded`) shows that no place is stored to
twice.  A copy inside one store does the same if its ranges have no place in common (`load_copyRaw_eq_copyChunk`).
-/

namespace BlockTracker

open ByteStore LawfulByteStore

/-! ### Chunks from one store to another -/

section Across

variable {D S : Type} [ByteStore D] [ByteStore S]

/-- Copies `w` chunks of `c` bytes from one store to the same places of another, the first of them from `base` on. -/
def copyChunksAcross (c base w : Nat) (dst : D) (src : S) : D :=
  (List.range w).foldl (fun d i => storeBytes d (base + i * c) (loadBytes src (base + i * c) c)) dst

theorem copyChunksAcross_succ (c base w : Nat) (dst : D) (src : S) :
    copyChunksAcross c base (w + 1) dst src =
      storeBytes (copyChunksAcross c base w dst src) (base + w * c) (loadBytes src (base + w * c) c) := by
  rw [copyChunksAcross, List.range_succ, List.foldl_append]
  rfl

theorem copyChunksAcross_eq (c base w : Nat) (dst : D) (src : S) :
    copyChunksAcross c base w dst src = storeBytes dst base (loadBytes src base (w * c)) := by
  induction w with
  | zero =>
    rw [Nat.zero_mul]
    rfl
  | succ w ih => rw [copyChunksAcross_succ, ih, Nat.succ_mul, loadBytes_add, storeBytes_append, length_loadBytes]

/-- A copy is one pass over the words and one over the bytes behind them. -/
theorem copyAcross_eq_passes (dst : D) (src : S) (n : Nat) :
    copyAcross dst src n =
      copyChunksAcross 1 (n / wordSize * wordSize) (n % wordSize)
        (copyChunksAcross wordSize 0 (n / wordSize) dst src) src := by
  simp only [copyAcross, copyChunksAcross, List.range'_eq_map_range, List.foldl_map, Nat.zero_add, Nat.mul_one]
  rfl

theorem copyAcross_eq (dst : D) (src : S) (n : Nat) : copyAcross dst src n = storeBytes dst 0 (loadBytes src 0 n) := by
  have hn : n / wordSize * wordSize + n % wordSize = n := Nat.div_add_mod' ..
  calc copyAcross dst src n
      = storeBytes (storeBytes dst 0 (loadBytes src 0 (n / wordSize * wordSize))) (n / wordSize * wordSize)
          (loadBytes src (n / wordSize * wordSize) (n % wordSize)) := by
        rw [copyAcross_eq_passes, copyChunksAcross_eq, copyChunksAcross_eq, Nat.mul_one]
    _ = storeBytes dst 0 (loadBytes src 0 (n / wordSize * wordSize) ++
          loadBytes src (0 + n / wordSize * wordSize) (n % wordSize)) := by
        rw [storeBytes_append, length_loadBytes, Nat.zero_add]
    _ = storeBytes dst 0 (loadBytes src 0 n) := by rw [← loadBytes_add, hn]

end Across

/-! ### The places stored to -/

/-- A store with the places that have been stored to, first to last. -/
structure Recorded (D : Type) where
  bytes : D
  places : List Nat

namespace Recorded

variable {D S : Type} [ByteStore D] [ByteStore S]

instance : ByteStore (Recorded D) where
  load r a := load r.bytes a
  store r a b := ⟨store r.bytes a b, r.places ++ [a]⟩

theorem bytes_storeBytes (r : Recorded D) (a : Nat) (bs : List UInt8) :
    (storeBytes r a bs).bytes = storeBytes r.bytes a bs := by
  induction bs generalizing r a with
  | nil => rfl
  | cons b bs ih => exact ih (store r a b) (a + 1)

theorem places_storeBytes (r : Recorded D) (a : Nat) (bs : List UInt8) :
    (storeBytes r a bs).places = r.places ++ List.range' a bs.length := by
  induction bs generalizing r a with
  | nil => exact (List.append_nil r.places).symm
  | cons b bs ih =>
    have hfirst : (store r a b).places = r.places ++ [a] := rfl
    rw [storeBytes, ih, hfirst, List.append_assoc, List.length_cons, List.range'_succ]
    rfl

theorem places_copyChunksAcross (r : Recorded D) (src : S) (c base w : Nat) :
    (copyChunksAcross c base w r src).places = r.places ++ List.range' base (w * c) := by
  rw [copyChunksAcross_eq, places_storeBytes, length_loadBytes]

theorem bytes_copyAcross (r : Recorded D) (src : S) (n : Nat) :
    (copyAcross r src n).bytes = copyAcross r.bytes src n := by
  rw [copyAcross_eq, copyAcross_eq, bytes_storeBytes]

theorem places_copyAcross (r : Recorded D) (src : S) (n : Nat) :
    (copyAcross r src n).places = r.places ++ List.range n := by
  rw [copyAcross_eq, places_storeBytes, length_loadBytes, List.range_eq_range']

end Recorded

/-! ### Arrays -/

/-- The bytes that an array holds after a copy from another that has as many. -/
theorem toList_copyAcross {dst src : Array UInt8} {n : Nat} (hdst : n ≤ dst.size) (hsrc : n ≤ src.size) :
    (copyAcross dst src n).toList = src.toList.take n ++ dst.toList.drop n := by
  have hlen : (src.toList.take n).length = n := by simp [hsrc]
  rw [copyAcross_eq, loadBytes_array src hsrc, toList_storeBytes _ _ _ (by omega), hlen, Nat.zero_add, List.take_zero,
    List.nil_append]

theorem size_copyAcross {dst src : Array UInt8} {n : Nat} (hdst : n ≤ dst.size) (hsrc : n ≤ src.size) :
    (copyAcross dst src n).size = dst.size := by
  have hlen := congrArg List.length (toList_copyAcross hdst hsrc)
  simp only [Array.length_toList, List.length_append, List.length_take, List.length_drop] at hlen
  omega

/-! ### Ranges without a common place -/

section Apart

variable {M : Type} [ByteStore M] [LawfulByteStore M] {m : M} {d s n : Nat}

/-- If the destination does not begin inside the source, a copy inside a store may as well go all at once. -/
theorem load_copyRaw_eq_copyChunk (hm : HoldsRange m d n) (hfar : s < d → n ≤ d - s) (x : Nat) :
    load (copyRaw m (some d) (some s) n).2 x = load (copyChunk n d s m) x := by
  have hraw : Copied m (copyRaw m (some d) (some s) n).2 d s n := copied_copyRaw hm fun hlt => by
    have := hfar hlt
    omega
  have hchunk := (Copied.refl m d s).chunk (c := n) (by rwa [Nat.zero_add]) hfar
  rw [Nat.zero_add] at hchunk
  exact hraw.load_eq hchunk x

/-- A copy between two arrays is the copy inside the store that holds them both, one apart from the other. -/
theorem load_copyRaw_eq_copyAcross {dst src : Array UInt8} (hdst : n ≤ dst.size) (hsrc : n ≤ src.size)
    (hm : HoldsRange m d dst.size) (hd : loadBytes m d dst.size = dst.toList)
    (hs : loadBytes m s src.size = src.toList) (hapart : ∀ i < dst.size, ∀ j < src.size, d + i ≠ s + j) (x : Nat) :
    load (copyRaw m (some d) (some s) n).2 x = load (storeBytes m d (copyAcross dst src n).toList) x := by
  have hprefix : src.toList.take n = loadBytes m s n := by rw [← hs, take_loadBytes m s hsrc]
  have hrest : dst.toList.drop n = loadBytes m (d + n) (dst.size - n) := by
    obtain ⟨k, hk⟩ := Nat.exists_eq_add_of_le hdst
    rw [← hd, hk, loadBytes_add, List.drop_left' (length_loadBytes ..), Nat.add_sub_cancel_left]
  have hfar (hlt : s < d) : n ≤ d - s := by
    refine Nat.le_of_not_lt fun hnear => ?_
    exact hapart 0 (by omega) (d - s) (by omega) (by omega)
  have hprefixHeld : HoldsRange m d n := fun k hk => hm k (by omega)
  rw [toList_copyAcross hdst hsrc, hprefix, hrest, storeBytes_append, length_loadBytes, load_copyRaw_eq_copyChunk
    hprefixHeld hfar]
  -- behind the prefix the array holds what the store has there already
  refine (load_storeBytes_of_eq (fun k hk => ?_) ?_ x).symm
  · rw [length_loadBytes] at hk
    rw [holds_copyChunk, Nat.add_assoc]
    exact hm (n + k) (by omega)
  · rw [length_loadBytes]
    exact loadBytes_congr fun k _ => load_copyChunk_of_outside m (.inr (Nat.le_add_right ..))

end Apart

/-- A copy of up to `count` bytes takes as many as both arrays have: they become the front of the destination, and the
rest of it stays.  The words are stored to first and then the places behind them, each place once.  Where one store
holds both arrays with no place in common, `copyRaw` copies the same bytes and tells the same number. -/
theorem copySlices_prefix (dst src : Array UInt8) (count : Nat) :
    ∃ (n : Nat) (out : Array UInt8), n = min count (min dst.size src.size) ∧
      copySlices (some dst) (some src) count = (n, some out) ∧
      out.toList = src.toList.take n ++ dst.toList.drop n ∧ out.size = dst.size ∧
      (let words := copyChunksAcross wordSize 0 (n / wordSize) (Recorded.mk dst []) src
       let whole := copyChunksAcross 1 (n / wordSize * wordSize) (n % wordSize) words src
       whole = copyAcross (Recorded.mk dst []) src n ∧ whole.bytes = out ∧
       words.places = List.range (n / wordSize * wordSize) ∧
       whole.places = words.places ++ List.range' (n / wordSize * wordSize) (n % wordSize) ∧
       ∀ k, whole.places.count k = if k < n then 1 else 0) ∧
      ∀ (M : Type) [ByteStore M] [LawfulByteStore M] (m : M) (d s : Nat),
        HoldsRange m d dst.size → loadBytes m d dst.size = dst.toList → loadBytes m s src.size = src.toList →
        (∀ i < dst.size, ∀ j < src.size, d + i ≠ s + j) →
        let r := copyRaw m (some d) (some s) n
        r.1 = n ∧ ∀ x, load r.2 x = load (storeBytes m d out.toList) x := by
  obtain ⟨n, hn⟩ : ∃ n, n = min count (min dst.size src.size) := ⟨_, rfl⟩
  have hdst : n ≤ dst.size := by omega
  have hsrc : n ≤ src.size := by omega
  have hcopy : copySlices (some dst) (some src) count = (n, some (copyAcross dst src n)) := by rw [hn, copySlices]
  refine ⟨n, copyAcross dst src n, hn, hcopy, toList_copyAcross hdst hsrc, size_copyAcross hdst hsrc, ?_, ?_⟩
  · intro words whole
    have hwhole : whole = copyAcross (Recorded.mk dst []) src n := (copyAcross_eq_passes ..).symm
    refine ⟨hwhole, ?_, ?_, ?_, fun k => ?_⟩
    · rw [hwhole, Recorded.bytes_copyAcross]
    · rw [Recorded.places_copyChunksAcross, List.nil_append, List.range_eq_range']
    · rw [Recorded.places_copyChunksAcross, Nat.mul_one]
    · rw [hwhole, Recorded.places_copyAcross, List.nil_append, List.nodup_range.count]
      simp only [List.mem_range]
  · intro M _ _ m d s hm hd hs hapart
    exact ⟨rfl, load_copyRaw_eq_copyAcross hdst hsrc hm hd hs hapart⟩

/-- A store of forty bytes holds an array of fifteen and, behind it, one of thirteen: asked for a hundred bytes, both
copies take one word and five bytes. -/
theorem copySlices_prefix_array :
    let m : Array UInt8 := Array.ofFn fun i : Fin 40 => UInt8.ofNat i
    let dst : Array UInt8 := Array.ofFn fun i : Fin 15 => UInt8.ofNat (3 + i)
    let src : Array UInt8 := Array.ofFn fun i : Fin 13 => UInt8.ofNat (20 + i)
    HoldsRange m 3 15 ∧ loadBytes m 3 15 = dst.toList ∧ loadBytes m 20 13 = src.toList ∧
    (∀ i < 15, ∀ j < 13, 3 + i ≠ 20 + j) ∧
    ∃ out : Array UInt8, copySlices (some dst) (some src) 100 = (13, some out) ∧
      ∀ x, load (copyRaw m (some 3) (some 20) 13).2 x = load (storeBytes m 3 out.toList) x := by
  intro m dst src
  have hdst : dst.size = 15 := Array.size_ofFn
  have hsrc : src.size = 13 := Array.size_ofFn
  have hm : HoldsRange m 3 15 := by
    intro k hk
    have hsize : m.size = 40 := Array.size_ofFn
    change 3 + k < m.size
    omega
  have hd : loadBytes m 3 15 = dst.toList := by decide
  have hs : loadBytes m 20 13 = src.toList := by decide
  have hapart : ∀ i < 15, ∀ j < 13, 3 + i ≠ 20 + j := fun i hi j _ => by omega
  obtain ⟨n, out, hn, hout, -, -, -, hraw⟩ := copySlices_prefix dst src 100
  have hn : n = 13 := by omega
  rw [hn] at hout hraw
  rw [hdst, hsrc] at hraw
  exact ⟨hm, hd, hs, hapart, out, hout, (hraw (Array UInt8) m 3 20 hm hd hs hapart).2⟩

end BlockTracker
