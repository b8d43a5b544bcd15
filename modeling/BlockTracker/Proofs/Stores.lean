import BlockTracker.Memory.Basic
import Mathlib.Algebra.Group.Nat.Defs

/-!
# Lawful byte stores

A byte store is lawful (`LawfulByteStore`) if a place that it holds keeps what is stored there and everything else
stays as it was.  An array holds the places below its size, so an array as large as an address space holds just the
ranges that do not wrap, and a memory holds the places of its regions.  What words and runs of bytes read back as
follows from these laws alone.
-/

namespace BlockTracker

/-- A store with the places that it holds. -/
class LawfulByteStore (M : Type) [ByteStore M] where
  Holds : M → Nat → Prop
  holds_store (m : M) (a : Nat) (b : UInt8) (x : Nat) : Holds (ByteStore.store m a b) x ↔ Holds m x
  load_store_self {m : M} {a : Nat} (b : UInt8) : Holds m a → ByteStore.load (ByteStore.store m a b) a = b
  load_store_of_ne (m : M) {a x : Nat} (b : UInt8) :
    x ≠ a → ByteStore.load (ByteStore.store m a b) x = ByteStore.load m x

namespace ByteStore

open LawfulByteStore

variable {M : Type} [ByteStore M]

@[simp] theorem length_loadBytes (m : M) (a n : Nat) : (loadBytes m a n).length = n := by
  rw [loadBytes, List.length_map, List.length_range]

theorem getElem_loadBytes (m : M) (a n k : Nat) (hk : k < (loadBytes m a n).length) :
    (loadBytes m a n)[k] = load m (a + k) := by
  simp only [loadBytes, List.getElem_map, List.getElem_range]

theorem loadBytes_congr {m m' : M} {a n : Nat} (h : ∀ k < n, load m' (a + k) = load m (a + k)) :
    loadBytes m' a n = loadBytes m a n :=
  List.map_congr_left fun k hk => h k (List.mem_range.1 hk)

theorem loadBytes_add (m : M) (a n k : Nat) : loadBytes m a (n + k) = loadBytes m a n ++ loadBytes m (a + n) k := by
  simp only [loadBytes, List.range_add, List.map_append, List.map_map, Function.comp_def, Nat.add_assoc]

theorem take_loadBytes (m : M) (a : Nat) {n k : Nat} (hk : k ≤ n) : (loadBytes m a n).take k = loadBytes m a k := by
  obtain ⟨r, rfl⟩ := Nat.exists_eq_add_of_le hk
  rw [loadBytes_add, List.take_left' (length_loadBytes m a k)]

theorem storeBytes_append (m : M) (a : Nat) (bs cs : List UInt8) :
    storeBytes m a (bs ++ cs) = storeBytes (storeBytes m a bs) (a + bs.length) cs := by
  induction bs generalizing m a with
  | nil => rfl
  | cons b bs ih => rw [List.cons_append, storeBytes, storeBytes, ih, List.length_cons, Nat.add_assoc, Nat.add_comm 1]

theorem loadWord_congr {m m' : M} {a : Nat} (h : ∀ k < wordSize, load m' (a + k) = load m (a + k)) :
    loadWord m' a = loadWord m a := congrArg valueOf (loadBytes_congr h)

variable [LawfulByteStore M]

/-- Every place of a range is held. -/
def HoldsRange (m : M) (a n : Nat) : Prop := ∀ k < n, Holds m (a + k)

theorem load_storeBytes_of_outside (m : M) {a x : Nat} (bs : List UInt8) (hx : x < a ∨ a + bs.length ≤ x) :
    load (storeBytes m a bs) x = load m x := by
  induction bs generalizing m a with
  | nil => rfl
  | cons b bs ih =>
    rw [List.length_cons] at hx
    rw [storeBytes, ih (store m a b) (by omega), load_store_of_ne m b (by omega)]

theorem holds_storeBytes (m : M) (a : Nat) (bs : List UInt8) (x : Nat) : Holds (storeBytes m a bs) x ↔ Holds m x := by
  induction bs generalizing m a with
  | nil => rfl
  | cons b bs ih => rw [storeBytes, ih, holds_store]

theorem load_storeBytes {m : M} {a : Nat} {bs : List UInt8} (hm : HoldsRange m a bs.length) {k : Nat}
    (hk : k < bs.length) : load (storeBytes m a bs) (a + k) = bs[k] := by
  induction bs generalizing m a k with
  | nil => exact absurd hk (Nat.not_lt_zero k)
  | cons b bs ih =>
    rw [storeBytes]
    rcases k with _ | k
    · rw [load_storeBytes_of_outside _ _ (by omega)]
      exact load_store_self b (hm 0 hk)
    · have hrest : HoldsRange (store m a b) (a + 1) bs.length := by
        intro j hj
        rw [holds_store, Nat.add_assoc, Nat.add_comm 1 j]
        exact hm (j + 1) (Nat.succ_lt_succ hj)
      have hplace : a + (k + 1) = a + 1 + k := by omega
      rw [hplace]
      exact ih hrest (Nat.lt_of_succ_lt_succ hk)

/-- Storing what is there already changes nothing. -/
theorem load_storeBytes_of_eq {m : M} {a : Nat} {bs : List UInt8} (hm : HoldsRange m a bs.length)
    (h : loadBytes m a bs.length = bs) (x : Nat) : load (storeBytes m a bs) x = load m x := by
  by_cases hx : x < a ∨ a + bs.length ≤ x
  · exact load_storeBytes_of_outside m bs hx
  · obtain ⟨k, rfl⟩ : ∃ k, x = a + k := ⟨x - a, by omega⟩
    have hk : k < bs.length := by omega
    rw [load_storeBytes hm hk, ← getElem_loadBytes m a bs.length k (by rwa [length_loadBytes])]
    exact List.getElem_of_eq h.symm hk

/-! ### Words -/

theorem length_bytesOf (n value : Nat) : (bytesOf n value).length = n := by
  rw [bytesOf, List.length_map, List.length_range]

theorem bytesOf_succ (n value : Nat) : bytesOf (n + 1) value = .ofNat (value % 256) :: bytesOf n (value / 256) := by
  have hzero : UInt8.ofNat (value / Nat.pow 256 0 % 256) = .ofNat (value % 256) :=
    congrArg (fun q => UInt8.ofNat (q % 256)) (Nat.div_one value)
  have hsucc (i : Nat) : value / Nat.pow 256 (i + 1) = value / 256 / Nat.pow 256 i := by
    rw [Nat.div_div_eq_div_mul, Nat.mul_comm]
    rfl
  rw [bytesOf, List.range_succ_eq_map, List.map_cons, List.map_map, hzero]
  simp only [Function.comp_def, Nat.succ_eq_add_one, hsucc]
  rfl

theorem valueOf_bytesOf {n value : Nat} (h : value < 256 ^ n) : valueOf (bytesOf n value) = value := by
  induction n generalizing value with
  | zero =>
    rw [Nat.pow_zero] at h
    exact (Nat.lt_one_iff.1 h).symm
  | succ n ih =>
    have hrest : value / 256 < 256 ^ n := by
      rw [Nat.pow_succ] at h
      exact Nat.div_lt_of_lt_mul (by rwa [Nat.mul_comm] at h)
    have hfirst : (UInt8.ofNat (value % 256)).toNat = value % 256 :=
      UInt8.toNat_ofNat_of_lt' (Nat.mod_lt value (by decide))
    rw [bytesOf_succ, valueOf, List.foldr_cons, ← valueOf, ih hrest, hfirst]
    exact Nat.mod_add_div value 256

theorem loadBytes_storeBytes {m : M} {a : Nat} {bs : List UInt8} (hm : HoldsRange m a bs.length) :
    loadBytes (storeBytes m a bs) a bs.length = bs := by
  refine List.ext_getElem (length_loadBytes ..) fun k hk hk' => ?_
  rw [getElem_loadBytes, load_storeBytes hm hk']

/-- A word of eight bytes reads back as it was stored. -/
theorem loadWord_storeWord {m : M} {a value : Nat} (hm : HoldsRange m a wordSize) (h : value < 256 ^ wordSize) :
    loadWord (storeWord m a value) a = value := by
  have hlen := length_bytesOf wordSize value
  have hbytes : loadBytes (storeBytes m a (bytesOf wordSize value)) a (bytesOf wordSize value).length =
      bytesOf wordSize value :=
    loadBytes_storeBytes (by rwa [hlen])
  rw [hlen] at hbytes
  rw [loadWord, storeWord, hbytes, valueOf_bytesOf h]

theorem load_storeWord_of_outside (m : M) {a x : Nat} (value : Nat) (hx : x < a ∨ a + wordSize ≤ x) :
    load (storeWord m a value) x = load m x :=
  load_storeBytes_of_outside m (bytesOf wordSize value) (by rwa [length_bytesOf])

end ByteStore

instance : LawfulByteStore (Array UInt8) where
  Holds m a := a < m.size
  holds_store m a b x := by rw [ByteStore.store, instByteStoreArrayUInt8, Array.size_setIfInBounds]
  load_store_self {m a} b h := by
    simp only [ByteStore.load, ByteStore.store, Array.getD_eq_getD_getElem?, Array.getElem?_setIfInBounds_self_of_lt h,
      Option.getD_some]
  load_store_of_ne m {a x} b h := by
    simp only [ByteStore.load, ByteStore.store, Array.getD_eq_getD_getElem?,
      Array.getElem?_setIfInBounds_ne (Ne.symm h)]

/-! ### Arrays -/

theorem loadBytes_array (m : Array UInt8) {n : Nat} (hn : n ≤ m.size) :
    ByteStore.loadBytes m 0 n = m.toList.take n := by
  refine List.ext_getElem (by simp [hn]) fun k hk _ => ?_
  rw [ByteStore.length_loadBytes] at hk
  have hk : k < m.size := Nat.lt_of_lt_of_le hk hn
  simp only [ByteStore.getElem_loadBytes, ByteStore.load, Nat.zero_add, List.getElem_take, Array.getElem_toList,
    Array.getD_eq_getD_getElem?, Array.getElem?_eq_getElem hk, Option.getD_some]

/-- Bytes that fit into an array take the places of the bytes there. -/
theorem toList_storeBytes (m : Array UInt8) (a : Nat) (bs : List UInt8) (h : a + bs.length ≤ m.size) :
    (ByteStore.storeBytes m a bs).toList = m.toList.take a ++ bs ++ m.toList.drop (a + bs.length) := by
  induction bs generalizing m a with
  | nil => simp [ByteStore.storeBytes]
  | cons b bs ih =>
    rw [List.length_cons] at h
    have hlen : a < m.toList.length := by
      rw [Array.length_toList]
      omega
    rw [ByteStore.storeBytes, ih _ _ (by simp only [ByteStore.store, Array.size_setIfInBounds]; omega)]
    simp only [ByteStore.store, Array.toList_setIfInBounds]
    rw [List.take_add_one, List.take_set_of_le (Nat.le_refl a), List.getElem?_set_self hlen,
      List.drop_set_of_lt (by omega), List.length_cons, Nat.add_assoc, Nat.add_comm 1]
    simp

/-! ### Memories -/

namespace Memory

variable {a x : Nat} {b : UInt8} {rs : List Region}

/-- The byte at a place, as the first region that covers it has it. -/
private def byteIn (rs : List Region) (x : Nat) : UInt8 :=
  match rs.find? (·.covers x) with
  | some r => r.bytes.getD (x - r.start) 0
  | none => 0

private theorem byteIn_cons_of_covers {r : Region} (h : r.covers x = true) (rs : List Region) :
    byteIn (r :: rs) x = r.bytes.getD (x - r.start) 0 := by
  simp only [byteIn, List.find?_cons, h]

private theorem byteIn_cons_of_not_covers {r : Region} (h : ¬ r.covers x = true) (rs : List Region) :
    byteIn (r :: rs) x = byteIn rs x := by
  simp only [byteIn, List.find?_cons, h]

private theorem covers_setByte (r : Region) (a : Nat) (b : UInt8) (x : Nat) :
    Region.covers ⟨r.start, r.bytes.setIfInBounds (a - r.start) b⟩ x = r.covers x := by
  simp only [Region.covers, Array.size_setIfInBounds]

theorem any_covers_storeIn (a : Nat) (b : UInt8) (rs : List Region) (x : Nat) :
    (storeIn a b rs).any (·.covers x) = rs.any (·.covers x) := by
  induction rs with
  | nil => rfl
  | cons r rs ih =>
    rw [storeIn]
    split
    · simp only [List.any_cons, covers_setByte]
    · rw [List.any_cons, List.any_cons, ih]

private theorem byteIn_storeIn_self (h : rs.any (·.covers a) = true) : byteIn (storeIn a b rs) a = b := by
  induction rs with
  | nil => cases h
  | cons r rs ih =>
    by_cases hr : r.covers a = true
    · have hlt : a - r.start < r.bytes.size := by
        simp only [Region.covers, Bool.and_eq_true, decide_eq_true_eq] at hr
        omega
      rw [storeIn, if_pos hr, byteIn_cons_of_covers ((covers_setByte r a b a).trans hr),
        Array.getD_eq_getD_getElem?, Array.getElem?_setIfInBounds_self_of_lt hlt, Option.getD_some]
    · rw [List.any_cons, Bool.or_eq_true] at h
      rw [storeIn, if_neg hr, byteIn_cons_of_not_covers hr, ih (h.resolve_left hr)]

private theorem byteIn_storeIn_of_ne (h : x ≠ a) : byteIn (storeIn a b rs) x = byteIn rs x := by
  induction rs with
  | nil => rfl
  | cons r rs ih =>
    by_cases hr : r.covers a = true
    · rw [storeIn, if_pos hr]
      by_cases hx : r.covers x = true
      · have hne : a - r.start ≠ x - r.start := by
          simp only [Region.covers, Bool.and_eq_true, decide_eq_true_eq] at hr hx
          omega
        rw [byteIn_cons_of_covers ((covers_setByte r a b x).trans hx), byteIn_cons_of_covers hx,
          Array.getD_eq_getD_getElem?, Array.getElem?_setIfInBounds_ne hne, Array.getD_eq_getD_getElem?]
      · have hx' : ¬ Region.covers ⟨r.start, r.bytes.setIfInBounds (a - r.start) b⟩ x = true := by
          rw [covers_setByte]
          exact hx
        rw [byteIn_cons_of_not_covers hx', byteIn_cons_of_not_covers hx]
    · rw [storeIn, if_neg hr]
      by_cases hx : r.covers x = true
      · rw [byteIn_cons_of_covers hx, byteIn_cons_of_covers hx]
      · rw [byteIn_cons_of_not_covers hx, byteIn_cons_of_not_covers hx, ih]

instance : LawfulByteStore Memory where
  Holds m a := m.regions.any (·.covers a) = true
  holds_store m a b x := by
    rw [← any_covers_storeIn a b m.regions x]
    rfl
  load_store_self _ h := byteIn_storeIn_self h
  load_store_of_ne _ {_ _} _ h := byteIn_storeIn_of_ne h

end Memory

end BlockTracker
