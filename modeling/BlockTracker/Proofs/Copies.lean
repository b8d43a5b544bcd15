import BlockTracker.Memory.Copy
import BlockTracker.Proofs.Stores

/-!
# Copies that overlap

`copyRaw` copies chunks from the front to the back, words and then bytes, and each chunk is loaded whole before it is
stored.  As long as a chunk is no longer than the way from the source up to the destination, what it loads is what a
copy byte by byte would load (`Copied.chunk`): the source itself, or, where the destination has overwritten it, the
bytes in front of the destination over and over (`forwardByte`).  The only copies that come out differently are those
of a word or more whose destination begins one to seven places behind the source (`copyRaw_forward`).
-/

namespace BlockTracker

open ByteStore LawfulByteStore

variable {M : Type} [ByteStore M]

/-- Copies `count` bytes one by one, front to back. -/
def copyBytes (m : M) (dst src count : Nat) : M :=
  (List.range count).foldl (fun m i => copyByte (dst + i) (src + i) m) m

/-- Copies `c` bytes at once. -/
def copyChunk (c dst src : Nat) (m : M) : M := storeBytes m dst (loadBytes m src c)

/-- Copies `w` chunks of `c` bytes, the first of them at offset `base`. -/
def copyChunks (c base dst src w : Nat) (m : M) : M :=
  (List.range w).foldl (fun m i => copyChunk c (dst + (base + i * c)) (src + (base + i * c)) m) m

/-- What a copy from the front to the back leaves at offset `k` of its destination. -/
def forwardByte (m : M) (dst src k : Nat) : UInt8 :=
  if src < dst then load m (src + k % (dst - src)) else load m (src + k)

/-! ### Copies as chunks -/

theorem copyByte_eq (dst src : Nat) (m : M) : copyByte dst src m = copyChunk 1 dst src m := rfl

theorem copyBytes_eq (m : M) (dst src count : Nat) : copyBytes m dst src count = copyChunks 1 0 dst src count m := by
  simp only [copyBytes, copyChunks, copyByte_eq, Nat.zero_add, Nat.mul_one]

theorem copyRaw_eq (m : M) (dst src count : Nat) :
    copyRaw m (some dst) (some src) count =
      (count, copyChunks 1 (count / wordSize * wordSize) dst src (count % wordSize)
        (copyChunks wordSize 0 dst src (count / wordSize) m)) := by
  simp only [copyRaw, copyChunks, List.range'_eq_map_range, List.foldl_map, copyByte_eq, Nat.zero_add, Nat.mul_one]
  rfl

theorem copyChunks_succ (c base dst src w : Nat) (m : M) :
    copyChunks c base dst src (w + 1) m =
      copyChunk c (dst + (base + w * c)) (src + (base + w * c)) (copyChunks c base dst src w m) := by
  rw [copyChunks, List.range_succ, List.foldl_append]
  rfl

variable [LawfulByteStore M]

/-! ### What a chunk leaves alone -/

theorem load_copyChunk_of_outside {c dst src x : Nat} (m : M) (hx : x < dst ∨ dst + c ≤ x) :
    load (copyChunk c dst src m) x = load m x := by
  rw [copyChunk, load_storeBytes_of_outside]
  rwa [length_loadBytes]

theorem holds_copyChunk (c dst src : Nat) (m : M) (x : Nat) : Holds (copyChunk c dst src m) x ↔ Holds m x :=
  holds_storeBytes ..

theorem load_copyChunk {c dst src k : Nat} {m : M} (hm : HoldsRange m dst c) (hk : k < c) :
    load (copyChunk c dst src m) (dst + k) = load m (src + k) := by
  have hlen : k < (loadBytes m src c).length := by rwa [length_loadBytes]
  rw [copyChunk, load_storeBytes (by rwa [length_loadBytes]) hlen, getElem_loadBytes]

theorem load_copyChunks_of_outside {c base dst src w x : Nat} (m : M)
    (hx : x < dst + base ∨ dst + (base + w * c) ≤ x) : load (copyChunks c base dst src w m) x = load m x := by
  induction w with
  | zero => rfl
  | succ w ih =>
    rw [Nat.succ_mul] at hx
    rw [copyChunks_succ, load_copyChunk_of_outside _ (by omega), ih (by omega)]

/-- What the first of the chunks has stored stays. -/
theorem load_copyChunks_first {c dst src w k : Nat} {m : M} (hw : 0 < w) (hm : HoldsRange m dst c) (hk : k < c) :
    load (copyChunks c 0 dst src w m) (dst + k) = load m (src + k) := by
  induction w with
  | zero => exact absurd hw (Nat.lt_irrefl 0)
  | succ w ih =>
    rw [copyChunks_succ]
    rcases Nat.eq_zero_or_pos w with rfl | hpos
    · simp only [Nat.zero_mul, Nat.add_zero]
      exact load_copyChunk hm hk
    · have hc : c ≤ w * c := Nat.le_mul_of_pos_left c hpos
      rw [load_copyChunk_of_outside _ (by omega), ih hpos]

/-! ### What a chunk copies -/

/-- The first `n` bytes have been copied, and nothing else has changed. -/
structure Copied (m₀ m : M) (dst src n : Nat) : Prop where
  copied : ∀ k < n, load m (dst + k) = forwardByte m₀ dst src k
  frame : ∀ x, x < dst ∨ dst + n ≤ x → load m x = load m₀ x
  holds : ∀ x, Holds m x ↔ Holds m₀ x

namespace Copied

variable {m₀ m m' : M} {dst src n c : Nat}

theorem refl (m : M) (dst src : Nat) : Copied m m dst src 0 where
  copied k hk := absurd hk (Nat.not_lt_zero k)
  frame _ _ := rfl
  holds _ := Iff.rfl

/-- What the next bytes of the source are when the bytes before them have been copied. -/
theorem load_source (hc : Copied m₀ m dst src n) {j : Nat} (hj : src < dst → j < dst - src) :
    load m (src + (n + j)) = forwardByte m₀ dst src (n + j) := by
  rw [forwardByte]
  split
  · next hlt =>
    have hj := hj hlt
    by_cases hn : n + j < dst - src
    · rw [hc.frame _ (by omega), Nat.mod_eq_of_lt hn]
    · -- the destination has reached this byte: it was copied from `dst - src` places before
      have hback : src + (n + j) = dst + (n + j - (dst - src)) := by omega
      rw [hback, hc.copied _ (by omega), forwardByte, if_pos hlt, ← Nat.mod_eq_sub_mod (Nat.le_of_not_lt hn)]
  · rw [hc.frame _ (by omega)]

theorem chunk (hc : Copied m₀ m dst src n) (hm : HoldsRange m₀ dst (n + c)) (hfar : src < dst → c ≤ dst - src) :
    Copied m₀ (copyChunk c (dst + n) (src + n) m) dst src (n + c) where
  copied k hk := by
    by_cases hkn : k < n
    · rw [load_copyChunk_of_outside _ (by omega), hc.copied k hkn]
    · obtain ⟨j, rfl⟩ : ∃ j, k = n + j := ⟨k - n, by omega⟩
      have hrange : HoldsRange m (dst + n) c := by
        intro i hi
        rw [hc.holds, Nat.add_assoc]
        exact hm (n + i) (by omega)
      rw [← Nat.add_assoc, load_copyChunk hrange (by omega), Nat.add_assoc]
      exact hc.load_source fun hlt => by
        have := hfar hlt
        omega
  frame x hx := by rw [load_copyChunk_of_outside _ (by omega), hc.frame x (by omega)]
  holds x := by rw [holds_copyChunk, hc.holds]

theorem chunks {w : Nat} (hc : Copied m₀ m dst src n) (hm : HoldsRange m₀ dst (n + w * c))
    (hfar : 0 < w → src < dst → c ≤ dst - src) : Copied m₀ (copyChunks c n dst src w m) dst src (n + w * c) := by
  induction w with
  | zero =>
    rw [Nat.zero_mul]
    exact hc
  | succ w ih =>
    rw [Nat.succ_mul] at hm
    have hfirst := ih (fun k hk => hm k (by omega)) fun _ => hfar (Nat.succ_pos w)
    rw [copyChunks_succ, Nat.succ_mul, ← Nat.add_assoc n]
    exact hfirst.chunk (by rwa [Nat.add_assoc]) (hfar (Nat.succ_pos w))

/-- Two copies from the same store come out the same. -/
theorem load_eq (hc : Copied m₀ m dst src n) (hc' : Copied m₀ m' dst src n) (x : Nat) : load m x = load m' x := by
  by_cases hx : x < dst ∨ dst + n ≤ x
  · rw [hc.frame x hx, hc'.frame x hx]
  · obtain ⟨k, rfl⟩ : ∃ k, x = dst + k := ⟨x - dst, by omega⟩
    rw [hc.copied k (by omega), hc'.copied k (by omega)]

end Copied

/-! ### Whole copies -/

variable {m : M} {dst src count : Nat}

theorem copied_copyBytes (hm : HoldsRange m dst count) : Copied m (copyBytes m dst src count) dst src count := by
  have hchunks := (Copied.refl m dst src).chunks (c := 1) (w := count) (by simpa using hm) fun _ hlt => by omega
  rw [copyBytes_eq]
  rwa [Nat.zero_add, Nat.mul_one] at hchunks

theorem copied_copyRaw (hm : HoldsRange m dst count) (hfar : src < dst → wordSize ≤ dst - src ∨ count < wordSize) :
    Copied m (copyRaw m (some dst) (some src) count).2 dst src count := by
  have hcount : count / wordSize * wordSize + count % wordSize = count := Nat.div_add_mod' ..
  have hwords : Copied m (copyChunks wordSize 0 dst src (count / wordSize) m) dst src
      (0 + count / wordSize * wordSize) := by
    refine (Copied.refl m dst src).chunks (fun k hk => hm k (by omega)) fun hpos hlt => ?_
    exact (hfar hlt).resolve_right fun hsmall => Nat.ne_of_gt hpos (Nat.div_eq_of_lt hsmall)
  rw [Nat.zero_add] at hwords
  have htail := hwords.chunks (c := 1) (w := count % wordSize) (by rwa [Nat.mul_one, hcount]) fun _ hlt => by omega
  rw [Nat.mul_one, hcount] at htail
  rwa [copyRaw_eq]

theorem load_copyRaw_of_outside (m : M) {x : Nat} (hx : x < dst ∨ dst + count ≤ x) :
    load (copyRaw m (some dst) (some src) count).2 x = load m x := by
  have hcount : count / wordSize * wordSize + count % wordSize = count := Nat.div_add_mod' ..
  rw [copyRaw_eq, load_copyChunks_of_outside _ (by omega), load_copyChunks_of_outside _ (by omega)]

/-- A word that is loaded before the destination has overwritten it does not repeat. -/
theorem load_copyRaw_first (hm : HoldsRange m dst count) (hcount : wordSize ≤ count) {k : Nat} (hk : k < wordSize) :
    load (copyRaw m (some dst) (some src) count).2 (dst + k) = load m (src + k) := by
  have hwords : 0 < count / wordSize := Nat.div_pos hcount (by decide)
  have hbase : wordSize ≤ count / wordSize * wordSize := Nat.le_mul_of_pos_left _ hwords
  rw [copyRaw_eq, load_copyChunks_of_outside _ (by omega)]
  exact load_copyChunks_first hwords (fun i hi => hm i (by omega)) hk

/-- Less than a word behind the source, a copy word by word and one byte by byte come out differently if the first bytes
of source and destination differ, as they do in some store. -/
theorem exists_load_ne_of_near (hdst : HoldsRange m dst count) (hsrc : Holds m src) (hcount : wordSize ≤ count)
    (hlt : src < dst) (hnear : dst - src < wordSize) :
    ∃ m' : M, (∀ x, Holds m' x ↔ Holds m x) ∧
      ∃ x, load (copyRaw m' (some dst) (some src) count).2 x ≠ load (copyBytes m' dst src count) x := by
  let m' := store (store m src 0) dst 1
  have hholds (x : Nat) : Holds m' x ↔ Holds m x := by rw [holds_store, holds_store]
  have hrange : HoldsRange m' dst count := fun k hk => (hholds _).2 (hdst k hk)
  have hfirst : load m' src = 0 := by rw [load_store_of_ne _ _ (by omega), load_store_self 0 hsrc]
  have hsecond : load m' dst = 1 := by
    refine load_store_self 1 ?_
    rw [holds_store]
    exact hdst 0 (by omega)
  refine ⟨m', hholds, dst + (dst - src), ?_⟩
  have hplace : src + (dst - src) = dst := by omega
  rw [load_copyRaw_first hrange hcount hnear, (copied_copyBytes hrange).copied _ (by omega), forwardByte, if_pos hlt,
    Nat.mod_self, Nat.add_zero, hplace, hfirst, hsecond]
  decide

/-- A copy of `count` bytes changes its destination only.  It moves the source there as it was if the destination does
not begin inside the source, and it repeats the bytes in front of the destination, as a copy byte by byte does, if the
destination begins a word or more behind the source.  It is no copy byte by byte just if it copies a word or more to
one to seven places behind the source. -/
theorem copyRaw_forward (m : M) (dst src count : Nat) (hdst : HoldsRange m dst count) (hsrc : HoldsRange m src count) :
    let r := copyRaw m (some dst) (some src) count
    r.1 = count ∧
    (∀ x, x < dst ∨ dst + count ≤ x → load r.2 x = load m x) ∧
    (dst ≤ src ∨ src + count ≤ dst → ∀ k < count, load r.2 (dst + k) = load m (src + k)) ∧
    (src < dst → wordSize ≤ dst - src →
      (∀ x, load r.2 x = load (copyBytes m dst src count) x) ∧
      ∀ k < count, load r.2 (dst + k) = load m (src + k % (dst - src))) ∧
    ((∀ m' : M, (∀ x, Holds m' x ↔ Holds m x) →
        ∀ x, load (copyRaw m' (some dst) (some src) count).2 x = load (copyBytes m' dst src count) x) ↔
      ¬ (1 ≤ dst - src ∧ dst - src ≤ 7) ∨ count < 8) := by
  intro r
  refine ⟨rfl, fun x => load_copyRaw_of_outside m, ?_, ?_, ?_, ?_⟩
  · intro hapart k hk
    by_cases hlt : src < dst
    · have hle := hapart.resolve_left (Nat.not_le.2 hlt)
      have hcopied : Copied m r.2 dst src count := copied_copyRaw hdst fun _ => by omega
      rw [hcopied.copied k hk, forwardByte, if_pos hlt, Nat.mod_eq_of_lt (by omega)]
    · have hcopied : Copied m r.2 dst src count := copied_copyRaw hdst fun h => absurd h hlt
      rw [hcopied.copied k hk, forwardByte, if_neg hlt]
  · intro hlt hword
    have hcopied := copied_copyRaw hdst fun _ => .inl hword
    refine ⟨hcopied.load_eq (copied_copyBytes hdst), fun k hk => ?_⟩
    rw [hcopied.copied k hk, forwardByte, if_pos hlt]
  · intro hsame
    refine Decidable.byContradiction fun hcon => ?_
    obtain ⟨hcount, hlt, hnear⟩ : wordSize ≤ count ∧ src < dst ∧ dst - src < wordSize := by
      unfold wordSize
      omega
    obtain ⟨m', hholds, x, hne⟩ := exists_load_ne_of_near hdst (hsrc 0 (by omega)) hcount hlt hnear
    exact hne (hsame m' hholds x)
  · intro hfar m' hholds
    have hrange : HoldsRange m' dst count := fun k hk => (hholds _).2 (hdst k hk)
    refine (copied_copyRaw hrange fun hlt => ?_).load_eq (copied_copyBytes hrange)
    unfold wordSize
    omega

/-- Nine places behind the source, a copy of thirteen bytes ends with its first four once more; three places behind it,
a copy of nine bytes is not the one that goes byte by byte. -/
theorem copyRaw_forward_array :
    let m : Array UInt8 := Array.ofFn fun i : Fin 24 => UInt8.ofNat i
    HoldsRange m 11 13 ∧ HoldsRange m 2 13 ∧ HoldsRange m 5 9 ∧ HoldsRange m 2 9 ∧
    (∀ k < 13, load (copyRaw m (some 11) (some 2) 13).2 (11 + k) = load m (2 + k % 9)) ∧
    ¬ ∀ m' : Array UInt8, (∀ x, Holds m' x ↔ Holds m x) →
      ∀ x, load (copyRaw m' (some 5) (some 2) 9).2 x = load (copyBytes m' 5 2 9) x := by
  intro m
  have hsize : m.size = 24 := Array.size_ofFn
  have hrange {a n : Nat} (h : a + n ≤ 24) : HoldsRange m a n := by
    intro k hk
    change a + k < m.size
    omega
  refine ⟨hrange (by decide), hrange (by decide), hrange (by decide), hrange (by decide), ?_, ?_⟩
  · obtain ⟨-, -, -, hrepeat, -⟩ := copyRaw_forward m 11 2 13 (hrange (by decide)) (hrange (by decide))
    exact (hrepeat (by decide) (by decide)).2
  · obtain ⟨-, -, -, -, hiff⟩ := copyRaw_forward m 5 2 9 (hrange (by decide)) (hrange (by decide))
    rw [hiff]
    decide

end BlockTracker
