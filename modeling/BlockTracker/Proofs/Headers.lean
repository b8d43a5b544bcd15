import BlockTracker.Proofs.Regions

/-!
# Blocks with headers over a lawful allocator

Every block that a caller has begins with a word that holds its whole size, and no two of them overlap (`Marked`).  A
request marks the block that it answers (`Marked.request_some`) and one that fails leaves the blocks as they were
(`Marked.request_none`); what the caller writes into its parts does not reach a header (`Marked.write`).  So whatever
the caller does with the blocks it has (`Caller`), the size that is read back from a header is the one with which the
block was last made or resized, which is what the allocator has to be told (`Caller.headers_faithful`).
-/

namespace BlockTracker

open ByteStore LawfulByteStore SizedAllocator

namespace Headed

variable {σ : Type} [ByteStore σ]

/-- Asks for a block and writes its header. -/
def request (make : Nat → σ → Option Nat × σ) (bytes : Nat) (s : σ) : Option Handle × σ :=
  match totalFor bytes with
  | none => (none, s)
  | some total =>
    let (start, s) := make total s
    finish start total s

theorem allocate_eq (raw : SizedAllocator σ) (bytes : Nat) (s : σ) :
    allocate raw bytes s = request raw.allocate bytes s := rfl

theorem zeroAllocate_eq (raw : SizedAllocator σ) (bytes : Nat) (s : σ) :
    zeroAllocate raw bytes s = request raw.allocateZeroed bytes s := rfl

theorem resize_eq (raw : SizedAllocator σ) (old : Handle) (bytes : Nat) (s : σ) :
    resize raw old bytes s = request (raw.reallocate (header old s).1 (header old s).2) bytes s := rfl

theorem totalFor_eq_some {bytes total : Nat} :
    totalFor bytes = some total ↔ total = bytes + headerSize ∧ total ≤ sizeLimit := by
  unfold totalFor
  split
  · rw [Option.some_inj]
    constructor
    · rintro rfl
      exact ⟨rfl, ‹_›⟩
    · exact fun h => h.1.symm
  · constructor
    · exact nofun
    · rintro ⟨rfl, hle⟩
      exact absurd hle ‹_›

/-- A request that is too large is not passed on. -/
theorem request_of_large (make : Nat → σ → Option Nat × σ) {bytes : Nat} (h : Nat.pow 2 63 - 32 < bytes) (s : σ) :
    request make bytes s = (none, s) := by
  have hnone : totalFor bytes = none := by
    refine if_neg ?_
    simp only [headerSize, sizeLimit]
    omega
  rw [request, hnone]

/-! ### Logs -/

/-- A log changes nothing of what a request does. -/
theorem request_logged (make : Nat → σ → Option Nat × σ) (call : Nat → RawCall) (bytes : Nat) (s : Logged σ) :
    let r := request (logging make call) bytes s
    r.1 = (request make bytes s.base).1 ∧ r.2.base = (request make bytes s.base).2 := by
  intro r
  simp only [r, request, logging]
  cases totalFor bytes with
  | none => exact ⟨rfl, rfl⟩
  | some total =>
    rcases hmake : make total s.base with ⟨_ | start, base⟩
    · simp only [hmake, finish, and_self]
    · simp only [hmake, finish, storeWord, storeBytes_logged, and_self]

/-- A request that is not too large is passed on once, and it is answered with the place behind the header if the
allocator answers it. -/
theorem request_of_small (make : Nat → σ → Option Nat × σ) (call : Nat → RawCall) {bytes : Nat}
    (h : bytes ≤ Nat.pow 2 63 - 32) (s : Logged σ) :
    let r := request (logging make call) bytes s
    ∃ answer, r.2.log = s.log ++ [⟨call (bytes + headerSize), answer⟩] ∧
      r.1.map Handle.addr = answer.map (· + headerSize) := by
  have htotal : totalFor bytes = some (bytes + headerSize) := by
    have hpow : 32 ≤ Nat.pow 2 63 := by decide
    refine if_pos ?_
    simp only [headerSize, sizeLimit]
    omega
  intro r
  refine ⟨(make (bytes + headerSize) s.base).1, ?_⟩
  simp only [r, request, htotal, logging]
  rcases hmake : make (bytes + headerSize) s.base with ⟨_ | start, base⟩
  · simp only [finish, Option.map_none, and_self]
  · simp only [finish, storeWord, storeBytes_logged, true_and, Option.map_some]
    cases hblock : Handle.ofAddr? (start + headerSize) with
    | none => exact absurd (Handle.ofAddr?_eq_none.1 hblock) (Nat.succ_ne_zero _)
    | some block => rw [Option.map_some, Handle.addr_of_ofAddr? hblock]

/-- A call that is no release asks for a block, in the same way with a log. -/
theorem exists_request (raw : SizedAllocator σ) {c : Call} (hc : ∀ block, c ≠ .release block) (s : Logged σ) :
    ∃ make call, serve raw c s.base = request make c.bytes s.base ∧
      serve raw.logged c s = request (logging make call) c.bytes s := by
  cases c with
  | allocate bytes => exact ⟨_, _, allocate_eq raw bytes s.base, allocate_eq raw.logged bytes s⟩
  | zeroAllocate bytes => exact ⟨_, _, zeroAllocate_eq raw bytes s.base, zeroAllocate_eq raw.logged bytes s⟩
  | reallocate old bytes =>
    cases old with
    | none => exact ⟨_, _, allocate_eq raw bytes s.base, allocate_eq raw.logged bytes s⟩
    | some old => exact ⟨_, _, resize_eq raw old bytes s.base, resize_eq raw.logged old bytes s⟩
  | release block => exact absurd rfl (hc block)

/-- A log changes nothing of what a call does. -/
theorem serve_logged (raw : SizedAllocator σ) (c : Call) (s : Logged σ) :
    (serve raw.logged c s).1 = (serve raw c s.base).1 ∧ (serve raw.logged c s).2.base = (serve raw c s.base).2 := by
  by_cases hc : ∃ block, c = .release block
  · obtain ⟨block, rfl⟩ := hc
    exact ⟨rfl, rfl⟩
  · obtain ⟨make, call, hserve, hlogged⟩ := exists_request raw (not_exists.1 hc) s
    rw [hserve, hlogged]
    exact request_logged make call c.bytes s

/-! ### Marked blocks -/

/-- Every block begins with its size, and they do not overlap. -/
structure Marked (Has : BlockMap → σ → Prop) (blocks : BlockMap) (s : σ) : Prop where
  has : Has blocks s
  aligned : ∀ a n, blocks a = some n → a % headerSize = 0
  header : ∀ a n, blocks a = some n → headerSize ≤ n ∧ loadWord s a = n
  apart : ∀ a n, blocks a = some n → (blocks.remove a).Clear a n

variable {Has : BlockMap → σ → Prop} {blocks rest : BlockMap} {s s' : σ} {start size bytes : Nat}

theorem loadWord_same (hsame : blocks.Same s s') (hstart : blocks start = some size) (hsize : headerSize ≤ size) :
    loadWord s' start = loadWord s start := by
  refine loadWord_congr fun k hk => hsame start size hstart k ?_
  unfold wordSize at hk
  unfold headerSize at hsize
  omega

/-- The blocks that stay, with their bytes, stay marked. -/
theorem Marked.shrink (h : Marked Has blocks s) (hsub : rest.Sub blocks) (hhas : Has rest s')
    (hsame : rest.Same s s') : Marked Has rest s' where
  has := hhas
  aligned a n ha := h.aligned a n (hsub a n ha)
  header a n ha := by
    obtain ⟨hsize, hword⟩ := h.header a n (hsub a n ha)
    exact ⟨hsize, (loadWord_same hsame ha hsize).trans hword⟩
  apart a n ha := (h.apart a n (hsub a n ha)).sub (hsub.remove a)

variable {make : Nat → σ → Option Nat × σ}

/-- A request that is not answered leaves the blocks as they were. -/
theorem Marked.request_none (h : Marked Has blocks s)
    (hmakes : ∀ size, 0 < size → size ≤ sizeLimit → Makes Has blocks rest size s (make size s))
    (hr : request make bytes s = (none, s')) : Marked Has blocks s' ∧ blocks.Same s s' := by
  unfold request at hr
  cases htotal : totalFor bytes with
  | none =>
    simp only [htotal, Prod.mk.injEq, true_and] at hr
    subst hr
    exact ⟨h, fun _ _ _ _ _ => rfl⟩
  | some total =>
    obtain ⟨htotal', hle⟩ := totalFor_eq_some.1 htotal
    have hm := hmakes total (by unfold headerSize at htotal'; omega) hle
    simp only [htotal] at hr
    rcases hmake : make total s with ⟨_ | start, s₁⟩
    · rw [hmake] at hr hm
      cases hr
      exact ⟨h.shrink (fun _ _ ha => ha) hm.1 hm.2, hm.2⟩
    · rw [hmake] at hr
      simp [finish, Handle.ofAddr?, headerSize] at hr

/-! ### The parts of a caller -/

/-- The blocks of a caller, given the places and sizes of its parts: each begins with a header. -/
def under (parts : BlockMap) : BlockMap := fun start => (parts (start + headerSize)).map (· + headerSize)

variable {parts : BlockMap} {a n : Nat} {old : Handle}

theorem under_eq_some :
    under parts start = some size ↔ ∃ n, parts (start + headerSize) = some n ∧ n + headerSize = size :=
  Option.map_eq_some_iff

theorem under_insert (parts : BlockMap) (start n : Nat) :
    under (parts.insert (start + headerSize) n) = (under parts).insert start (n + headerSize) := by
  funext a
  by_cases h : a = start
  · subst h
    rw [BlockMap.insert_self, under, BlockMap.insert_self]
    rfl
  · have hne : a + headerSize ≠ start + headerSize := fun he => h (Nat.add_right_cancel he)
    rw [BlockMap.insert_of_ne _ _ h, under, BlockMap.insert_of_ne _ _ hne]
    rfl

theorem under_remove (parts : BlockMap) (start : Nat) :
    under (parts.remove (start + headerSize)) = (under parts).remove start := by
  funext a
  by_cases h : a = start
  · subst h
    rw [BlockMap.remove_self, under, BlockMap.remove_self]
    rfl
  · have hne : a + headerSize ≠ start + headerSize := fun he => h (Nat.add_right_cancel he)
    rw [BlockMap.remove_of_ne _ h, under, BlockMap.remove_of_ne _ hne]
    rfl

theorem under_sub {rest : BlockMap} (h : rest.Sub parts) : (under rest).Sub (under parts) := by
  intro start size hstart
  obtain ⟨n, hn, hsize⟩ := under_eq_some.1 hstart
  exact under_eq_some.2 ⟨n, h _ n hn, hsize⟩

/-- The parts of a caller lie behind the headers of marked blocks. -/
structure Stands (Has : BlockMap → σ → Prop) (parts : BlockMap) (s : σ) : Prop where
  marked : Marked Has (under parts) s
  behind : ∀ a n, parts a = some n → headerSize ≤ a

/-- Before the first call there is no block, whatever others have of the allocator. -/
theorem stands_fresh (hs : Has blocks s) : Stands (Records Has) (fun _ => none) (⟨s, []⟩ : Logged σ) := by
  refine ⟨⟨⟨rfl, ?_, blocks, hs, nofun⟩, nofun, nofun, nofun⟩, nofun⟩
  intro before e after hlog
  simp at hlog

theorem Stands.under_of_part (h : Stands Has parts s) (ha : parts a = some n) :
    ∃ start, a = start + headerSize ∧ under parts start = some (n + headerSize) := by
  have hle := h.behind a n ha
  refine ⟨a - headerSize, (Nat.sub_add_cancel hle).symm, under_eq_some.2 ⟨n, ?_, rfl⟩⟩
  rwa [Nat.sub_add_cancel hle]

/-- The header of a part tells the block behind it. -/
theorem Stands.header_eq (h : Stands Has parts s) (hold : parts old.addr = some n) :
    ∃ start, old.addr = start + headerSize ∧ under parts start = some (n + headerSize) ∧
      header old s = (start, n + headerSize) := by
  obtain ⟨start, haddr, hstart⟩ := h.under_of_part hold
  refine ⟨start, haddr, hstart, ?_⟩
  rw [header, haddr, Nat.add_sub_cancel, (h.marked.header _ _ hstart).2]

/-- The parts of a caller do not overlap, headers included. -/
theorem Stands.apart (h : Stands Has parts s) {a' n' : Nat} (ha : parts a = some n) (ha' : parts a' = some n')
    (hne : a ≠ a') : a + n ≤ a' - headerSize ∨ a' + n' ≤ a - headerSize := by
  obtain ⟨start, rfl, hstart⟩ := h.under_of_part ha
  obtain ⟨start', rfl, hstart'⟩ := h.under_of_part ha'
  have hne' : start' ≠ start := by
    rintro rfl
    exact hne rfl
  have := h.marked.apart _ _ hstart _ _ (BlockMap.remove_eq_some.2 ⟨hne', hstart'⟩)
  omega

/-- The parts of a caller after a call with this answer. -/
def partsAfter (parts : BlockMap) (c : Call) (answer : Option Handle) : BlockMap :=
  match c, answer with
  | .allocate bytes, some new | .zeroAllocate bytes, some new | .reallocate none bytes, some new =>
    parts.insert new.addr bytes
  | .reallocate (some old) bytes, some new => (parts.remove old.addr).insert new.addr bytes
  | .release block, _ => parts.remove block.addr
  | _, none => parts

/-- A call names no part but one that the caller has. -/
def Known (parts : BlockMap) : Call → Prop
  | .reallocate (some old) _ => ∃ n, parts old.addr = some n
  | .release block => ∃ n, parts block.addr = some n
  | _ => True

/-! ### Callers -/

/-- What a caller does: it makes a call, or it writes a byte into one of its parts. -/
inductive Use
  | call (c : Call)
  | write (block : Handle) (offset : Nat) (b : UInt8)

/-- A caller with the memory that it works on and its parts. -/
structure Caller (σ : Type) where
  memory : σ
  parts : BlockMap

/-- A caller calls for parts that it has and writes inside of them. -/
def Use.Allowed (parts : BlockMap) : Use → Prop
  | .call c => Known parts c
  | .write block offset _ => ∃ n, parts block.addr = some n ∧ offset < n

namespace Caller

/-- A caller without parts. -/
def fresh (s : σ) : Caller σ := ⟨s, fun _ => none⟩

/-- The caller on the memory below the log. -/
def unlogged (x : Caller (Logged σ)) : Caller σ := ⟨x.memory.base, x.parts⟩

def step (raw : SizedAllocator σ) (x : Caller σ) : Use → Caller σ
  | .call c =>
    let (answer, memory) := serve raw c x.memory
    ⟨memory, partsAfter x.parts c answer⟩
  | .write block offset b => ⟨store x.memory (block.addr + offset) b, x.parts⟩

def run (raw : SizedAllocator σ) (x : Caller σ) (uses : List Use) : Caller σ := uses.foldl (step raw) x

/-- Everything that a caller does is allowed where it stands. -/
def Allowed (raw : SizedAllocator σ) (x : Caller σ) : List Use → Prop
  | [] => True
  | u :: uses => u.Allowed x.parts ∧ (x.step raw u).Allowed raw uses

/-- A log changes nothing of what a caller does. -/
theorem step_logged (raw : SizedAllocator σ) (x : Caller (Logged σ)) (u : Use) :
    x.unlogged.step raw u = (x.step raw.logged u).unlogged := by
  cases u with
  | call c =>
    obtain ⟨hanswer, hbase⟩ := serve_logged raw c x.memory
    simp only [unlogged, step, hanswer, hbase]
  | write block offset b => rfl

theorem run_logged (raw : SizedAllocator σ) (x : Caller (Logged σ)) (uses : List Use) :
    x.unlogged.run raw uses = (x.run raw.logged uses).unlogged := by
  induction uses generalizing x with
  | nil => rfl
  | cons u uses ih =>
    rw [run, List.foldl_cons, step_logged]
    exact ih (x.step raw.logged u)

theorem allowed_logged {raw : SizedAllocator σ} {x : Caller (Logged σ)} {uses : List Use} :
    x.Allowed raw.logged uses ↔ x.unlogged.Allowed raw uses := by
  induction uses generalizing x with
  | nil => rfl
  | cons u uses ih =>
    rw [Allowed, Allowed, step_logged, ih]
    rfl

end Caller

/-! ### Writing headers -/

variable [LawfulByteStore σ] {raw : SizedAllocator σ}

theorem has_storeBytes (hraw : raw.Lawful Has) (hhas : Has blocks s) (hstart : blocks start = some size) {k : Nat}
    {bs : List UInt8} (hk : k + bs.length ≤ size) : Has blocks (storeBytes s (start + k) bs) := by
  induction bs generalizing s k with
  | nil => exact hhas
  | cons b bs ih =>
    rw [List.length_cons] at hk
    exact ih (k := k + 1) (hraw.store b hhas hstart (by omega)) (by omega)

/-- What the caller writes behind a header leaves every block marked. -/
theorem Marked.write (h : Marked Has blocks s) (hraw : raw.Lawful Has) (hstart : blocks start = some size) {k : Nat}
    (hk : headerSize ≤ k) (hlt : k < size) (b : UInt8) : Marked Has blocks (store s (start + k) b) where
  has := hraw.store b h.has hstart hlt
  aligned := h.aligned
  header a n ha := by
    obtain ⟨hsize, hword⟩ := h.header a n ha
    refine ⟨hsize, (loadWord_congr fun j hj => load_store_of_ne s b ?_).trans hword⟩
    unfold headerSize at hk hsize
    unfold wordSize at hj
    -- the place is behind the header of its own block and outside of any other
    by_cases hne : a = start
    · omega
    · have := h.apart start size hstart a n (BlockMap.remove_eq_some.2 ⟨hne, ha⟩)
      omega
  apart := h.apart

/-- A new block is marked by its header, and the header reaches into no other block. -/
private theorem Marked.mark (h : Marked Has blocks s) (hraw : raw.Lawful Has) (hsub : rest.Sub blocks)
    (hsize : headerSize ≤ size) (hle : size ≤ sizeLimit) (haligned : start % headerSize = 0)
    (hclear : rest.Clear start size) (hhas : Has (rest.insert start size) s') (hsame : rest.Same s s') :
    Marked Has (rest.insert start size) (storeWord s' start size) ∧ rest.Same s (storeWord s' start size) := by
  have hnew : rest.insert start size start = some size := BlockMap.insert_self ..
  have hword : wordSize ≤ headerSize := by decide
  have hsame' : rest.Same s (storeWord s' start size) := by
    intro a n ha k hk
    have := hclear a n ha
    rw [load_storeWord_of_outside _ _ (by omega), hsame a n ha k hk]
  refine ⟨⟨?_, ?_, ?_, ?_⟩, hsame'⟩
  · refine has_storeBytes (k := 0) hraw hhas hnew ?_
    rw [length_bytesOf]
    omega
  · intro a n ha
    rcases BlockMap.insert_eq_some.1 ha with ⟨rfl, rfl⟩ | ⟨-, ha⟩
    · exact haligned
    · exact h.aligned a n (hsub a n ha)
  · intro a n ha
    rcases BlockMap.insert_eq_some.1 ha with ⟨rfl, rfl⟩ | ⟨-, ha⟩
    · refine ⟨hsize, loadWord_storeWord (fun k hk => hraw.held hhas hnew k (by omega)) ?_⟩
      exact Nat.lt_of_le_of_lt hle (by decide)
    · obtain ⟨hn, hloaded⟩ := h.header a n (hsub a n ha)
      exact ⟨hn, (loadWord_same hsame' ha hn).trans hloaded⟩
  · intro a n ha a' n' ha'
    obtain ⟨hne, ha'⟩ := BlockMap.remove_eq_some.1 ha'
    rcases BlockMap.insert_eq_some.1 ha with ⟨rfl, rfl⟩ | ⟨-, hrest⟩
    · rw [BlockMap.insert_of_ne rest n hne] at ha'
      exact hclear a' n' ha'
    · rcases BlockMap.insert_eq_some.1 ha' with ⟨rfl, rfl⟩ | ⟨-, hrest'⟩
      · exact (hclear a n hrest).symm
      · exact h.apart a n (hsub a n hrest) a' n' (BlockMap.remove_eq_some.2 ⟨hne, hsub a' n' hrest'⟩)

/-- A request that is answered marks its block.  What stands behind the header is what the allocator has left there. -/
theorem Marked.request_some {block : Handle} (h : Marked Has blocks s) (hraw : raw.Lawful Has)
    (hsub : rest.Sub blocks)
    (hmakes : ∀ size, 0 < size → size ≤ sizeLimit → Makes Has blocks rest size s (make size s))
    (hr : request make bytes s = (some block, s')) :
    ∃ start, block.addr = start + headerSize ∧ Marked Has (rest.insert start (bytes + headerSize)) s' ∧
      rest.Same s s' ∧ bytes + headerSize ≤ sizeLimit ∧ (make (bytes + headerSize) s).1 = some start ∧
      ∀ k, load s' (block.addr + k) = load (make (bytes + headerSize) s).2 (start + (headerSize + k)) := by
  unfold request at hr
  cases htotal : totalFor bytes with
  | none => simp [htotal] at hr
  | some total =>
    obtain ⟨rfl, hle⟩ := totalFor_eq_some.1 htotal
    have hm := hmakes (bytes + headerSize) (by unfold headerSize; omega) hle
    simp only [htotal] at hr
    rcases hmake : make (bytes + headerSize) s with ⟨_ | start, s₁⟩
    · rw [hmake] at hr
      cases hr
    · rw [hmake] at hr hm
      obtain ⟨haligned, hclear, hhas, hsame⟩ := hm
      simp only [finish, Prod.mk.injEq] at hr
      obtain ⟨hblock, rfl⟩ := hr
      have haddr : block.addr = start + headerSize := Handle.addr_of_ofAddr? hblock
      obtain ⟨hmarked, hsame'⟩ := h.mark hraw hsub (by omega) hle haligned hclear hhas hsame
      refine ⟨start, haddr, hmarked, hsame', hle, rfl, fun k => ?_⟩
      rw [haddr, Nat.add_assoc]
      exact load_storeWord_of_outside _ _ (.inr (by unfold wordSize headerSize; omega))

/-! ### Calls -/

private theorem Stands.request {rest : BlockMap} (h : Stands Has parts s) (hraw : raw.Lawful Has)
    (hsub : rest.Sub parts)
    (hmakes : ∀ size, 0 < size → size ≤ sizeLimit → Makes Has (under parts) (under rest) size s (make size s))
    (after : Option Handle → BlockMap) (hnone : after none = parts)
    (hsome : ∀ block : Handle, after (some block) = rest.insert block.addr bytes) :
    let r := Headed.request make bytes s
    Stands Has (after r.1) r.2 := by
  intro r
  rcases hr : r with ⟨_ | block, s'⟩
  · rw [hnone]
    exact ⟨(h.marked.request_none hmakes hr).1, h.behind⟩
  · obtain ⟨start, haddr, hmarked, -⟩ := h.marked.request_some hraw (under_sub hsub) hmakes hr
    rw [hsome, haddr]
    refine ⟨?_, fun a n ha => ?_⟩
    · rwa [under_insert]
    · rcases BlockMap.insert_eq_some.1 ha with ⟨rfl, -⟩ | ⟨-, ha⟩
      · exact Nat.le_add_left ..
      · exact h.behind a n (hsub a n ha)

/-- What an allocator does to resize a part that the caller has. -/
private theorem Stands.resize_makes (h : Stands Has parts s) (hraw : raw.Lawful Has)
    (hold : parts old.addr = some n) (hpos : 0 < size) (hle : size ≤ sizeLimit) :
    let r := raw.reallocate (header old s).1 (header old s).2 size s
    Makes Has (under parts) (under (parts.remove old.addr)) size s r ∧
      ∀ start, r.1 = some start → ∀ k, headerSize + k < min (n + headerSize) size →
        load r.2 (start + (headerSize + k)) = load s (old.addr + k) := by
  obtain ⟨start, haddr, hstart, hheader⟩ := h.header_eq hold
  obtain ⟨hmakes, hkept⟩ := hraw.reallocate h.marked.has hstart hpos hle
  rw [hheader, haddr, under_remove]
  refine ⟨hmakes, fun new hnew k hk => ?_⟩
  rw [hkept new hnew _ hk, Nat.add_assoc]

/-- Whatever it is answered, a call leaves the parts of the caller as they should be. -/
theorem Stands.serve (h : Stands Has parts s) (hraw : raw.Lawful Has) {c : Call} (hc : Known parts c) :
    let r := serve raw c s
    Stands Has (partsAfter parts c r.1) r.2 := by
  have hall : parts.Sub parts := fun _ _ ha => ha
  have hallocate (size : Nat) (hpos : 0 < size) (hle : size ≤ sizeLimit) := hraw.allocate h.marked.has hpos hle
  cases c with
  | allocate bytes => exact h.request hraw hall hallocate (partsAfter parts (.allocate bytes)) rfl fun _ => rfl
  | zeroAllocate bytes =>
    exact h.request hraw hall (fun size hpos hle => (hraw.allocateZeroed h.marked.has hpos hle).1)
      (partsAfter parts (.zeroAllocate bytes)) rfl fun _ => rfl
  | reallocate old bytes =>
    cases old with
    | none => exact h.request hraw hall hallocate (partsAfter parts (.reallocate none bytes)) rfl fun _ => rfl
    | some old =>
      obtain ⟨n, hold⟩ := hc
      exact h.request hraw (BlockMap.remove_sub parts old.addr)
        (fun size hpos hle => (h.resize_makes hraw hold hpos hle).1)
        (partsAfter parts (.reallocate (some old) bytes)) rfl fun _ => rfl
  | release block =>
    obtain ⟨n, hblock⟩ := hc
    obtain ⟨start, haddr, hstart, hheader⟩ := h.header_eq hblock
    obtain ⟨hhas, hsame⟩ := hraw.deallocate h.marked.has hstart
    have hunder : under (parts.remove block.addr) = (under parts).remove start := by rw [haddr, under_remove]
    intro r
    have hr : r.2 = raw.deallocate start (n + headerSize) s := by
      simp only [r, Headed.serve, release, hheader]
    refine ⟨?_, fun a n ha => h.behind a n (BlockMap.remove_eq_some.1 ha).2⟩
    rw [partsAfter, hunder, hr]
    exact h.marked.shrink (BlockMap.remove_sub _ start) hhas hsame

/-- What the caller writes into a part leaves the parts as they should be. -/
theorem Stands.write (h : Stands Has parts s) (hraw : raw.Lawful Has) (ha : parts a = some n) {offset : Nat}
    (hoffset : offset < n) (b : UInt8) : Stands Has parts (store s (a + offset) b) := by
  obtain ⟨start, rfl, hstart⟩ := h.under_of_part ha
  rw [Nat.add_assoc]
  exact ⟨h.marked.write hraw hstart (Nat.le_add_right ..) (by omega) b, h.behind⟩

/-- A zeroed part is zero. -/
theorem Stands.load_zeroed {block : Handle} (h : Stands Has parts s) (hraw : raw.Lawful Has)
    (hr : Headed.serve raw (.zeroAllocate bytes) s = (some block, s')) {k : Nat} (hk : k < bytes) :
    load s' (block.addr + k) = 0 := by
  obtain ⟨start, -, -, -, hle, hmake, hbehind⟩ :=
    h.marked.request_some hraw (fun _ _ ha => ha)
      (fun size hpos hle => (hraw.allocateZeroed h.marked.has hpos hle).1) hr
  rw [hbehind]
  exact (hraw.allocateZeroed h.marked.has (by unfold headerSize; omega) hle).2 start hmake _ (by omega)

/-- A part that is resized keeps its first bytes. -/
theorem Stands.load_resized {block : Handle} (h : Stands Has parts s) (hraw : raw.Lawful Has)
    (hold : parts old.addr = some n) (hr : Headed.serve raw (.reallocate (some old) bytes) s = (some block, s'))
    {k : Nat} (hk : k < min n bytes) : load s' (block.addr + k) = load s (old.addr + k) := by
  obtain ⟨start, -, -, -, hle, hmake, hbehind⟩ :=
    h.marked.request_some hraw (under_sub (BlockMap.remove_sub parts old.addr))
      (fun size hpos hle => (h.resize_makes hraw hold hpos hle).1) hr
  rw [hbehind]
  exact (h.resize_makes hraw hold (by unfold headerSize; omega) hle).2 start hmake k (by omega)

/-- A part that could not be resized is as it was, with its header. -/
theorem Stands.not_resized (h : Stands Has parts s) (hraw : raw.Lawful Has) (hold : parts old.addr = some n)
    (hr : Headed.serve raw (.reallocate (some old) bytes) s = (none, s')) :
    (∀ k < n, load s' (old.addr + k) = load s (old.addr + k)) ∧
      loadWord s' (old.addr - headerSize) = n + headerSize ∧ Has (under parts) s' := by
  obtain ⟨start, haddr, hstart⟩ := h.under_of_part hold
  obtain ⟨hmarked, hsame⟩ :=
    h.marked.request_none (fun size hpos hle => (h.resize_makes hraw hold hpos hle).1) hr
  rw [haddr, Nat.add_sub_cancel]
  refine ⟨fun k hk => ?_, (hmarked.header _ _ hstart).2, hmarked.has⟩
  rw [Nat.add_assoc]
  exact hsame start _ hstart _ (by omega)

/-! ### Runs -/

namespace Caller

variable {x : Caller σ}

theorem stands_step (hraw : raw.Lawful Has) (h : Stands Has x.parts x.memory) {u : Use} (hu : u.Allowed x.parts) :
    Stands Has (x.step raw u).parts (x.step raw u).memory := by
  cases u with
  | call c => exact h.serve hraw hu
  | write block offset b =>
    obtain ⟨n, hn, hoffset⟩ := hu
    exact h.write hraw hn hoffset b

theorem stands_run (hraw : raw.Lawful Has) (h : Stands Has x.parts x.memory) {uses : List Use}
    (huses : x.Allowed raw uses) : Stands Has (x.run raw uses).parts (x.run raw uses).memory := by
  induction uses generalizing x with
  | nil => exact h
  | cons u uses ih => exact ih (stands_step hraw h huses.1) huses.2

/-- An allocator works with its blocks for a caller that starts without parts, makes calls for parts that it has and
writes inside of them.  As the log of the allocator tells, every resize and every release that reaches it names a block
with the size that the last call for it has asked for, no block is lost, and the headers tell the sizes.  The parts lie
behind their headers, and neither parts nor headers overlap.  A zeroed part is zero; a part that is resized keeps its
first bytes, and one that could not be resized is as it was, in the memory, in its header and for the allocator.  A
request that is too large does not reach the allocator; any other reaches it once, and is answered if it is there. -/
theorem headers_faithful (raw : SizedAllocator σ) (Has : BlockMap → σ → Prop) (hraw : raw.Lawful Has)
    (blocks : BlockMap) (s : σ) (hs : Has blocks s) (uses : List Use) (huses : (fresh s).Allowed raw uses) :
    let x := (fresh ⟨s, []⟩).run raw.logged uses
    let m := x.memory
    (fresh s).run raw uses = x.unlogged ∧
    (∀ before e after, m.log = before ++ e :: after → e.call.Fits (recorded before)) ∧
    recorded m.log = under x.parts ∧
    (∀ a n, x.parts a = some n → headerSize ≤ a ∧ a % 16 = 0 ∧
      recorded m.log (a - headerSize) = some (n + headerSize) ∧ loadWord m (a - headerSize) = n + headerSize) ∧
    (∀ a n a' n', x.parts a = some n → x.parts a' = some n' → a ≠ a' →
      a + n ≤ a' - headerSize ∨ a' + n' ≤ a - headerSize) ∧
    (∀ bytes block m', serve raw.logged (.zeroAllocate bytes) m = (some block, m') →
      ∀ k < bytes, load m' (block.addr + k) = 0) ∧
    (∀ old n bytes block m', x.parts old.addr = some n →
      serve raw.logged (.reallocate (some old) bytes) m = (some block, m') →
      ∀ k < min n bytes, load m' (block.addr + k) = load m (old.addr + k)) ∧
    (∀ old n bytes m', x.parts old.addr = some n → serve raw.logged (.reallocate (some old) bytes) m = (none, m') →
      (∀ k < n, load m' (old.addr + k) = load m (old.addr + k)) ∧
      loadWord m' (old.addr - headerSize) = n + headerSize ∧
      recorded m'.log (old.addr - headerSize) = some (n + headerSize)) ∧
    (∀ c : Call, 2 ^ 63 - 32 < c.bytes → serve raw.logged c m = (none, m)) ∧
    (∀ c : Call, c.bytes ≤ 2 ^ 63 - 32 → (∀ block, c ≠ .release block) → ∃ e,
      (serve raw.logged c m).2.log = m.log ++ [e] ∧
      (serve raw.logged c m).1.map Handle.addr = e.answer.map (· + headerSize)) := by
  intro x m
  have h : Stands (Records Has) x.parts m := stands_run hraw.logged (stands_fresh hs) (allowed_logged.2 huses)
  have hrecorded {s' : Logged σ} (hs' : Records Has (under x.parts) s') {a n : Nat} (ha : x.parts a = some n) :
      recorded s'.log (a - headerSize) = some (n + headerSize) := by
    obtain ⟨start, rfl, hstart⟩ := h.under_of_part ha
    rw [hs'.recorded_eq, Nat.add_sub_cancel, hstart]
  refine ⟨run_logged raw (fresh ⟨s, []⟩) uses, h.marked.has.fit, h.marked.has.recorded_eq, ?_,
    fun a n a' n' => h.apart, ?_, ?_, ?_, ?_, ?_⟩
  · intro a n ha
    refine ⟨h.behind a n ha, ?_, hrecorded h.marked.has ha, ?_⟩
    · obtain ⟨start, rfl, hstart⟩ := h.under_of_part ha
      have haligned := h.marked.aligned _ _ hstart
      unfold headerSize at haligned ⊢
      omega
    · obtain ⟨start, rfl, hstart⟩ := h.under_of_part ha
      rw [Nat.add_sub_cancel, (h.marked.header _ _ hstart).2]
  · exact fun bytes block m' hr k hk => h.load_zeroed hraw.logged hr hk
  · exact fun old n bytes block m' hold hr k hk => h.load_resized hraw.logged hold hr hk
  · intro old n bytes m' hold hr
    obtain ⟨hsame, hword, hhas⟩ := h.not_resized hraw.logged hold hr
    exact ⟨hsame, hword, hrecorded hhas hold⟩
  · intro c hlarge
    have hc : ∀ block, c ≠ .release block := by
      rintro block rfl
      exact Nat.not_lt_zero _ hlarge
    obtain ⟨make, call, -, hserve⟩ := exists_request raw hc m
    rw [hserve]
    exact request_of_large _ hlarge m
  · intro c hsmall hc
    obtain ⟨make, call, -, hserve⟩ := exists_request raw hc m
    rw [hserve]
    obtain ⟨answer, hlog, hanswer⟩ := request_of_small make call hsmall m
    exact ⟨_, hlog, hanswer⟩

/-- Two parts on a memory that takes every region afresh.  One moves when it grows, and keeps its place when there is no
room for it. -/
theorem headers_faithful_memory :
    let raw := Memory.sized Memory.afresh
    let first : Handle := ⟨4112, by decide⟩
    let second : Handle := ⟨4160, by decide⟩
    let moved : Handle := ⟨4192, by decide⟩
    let uses : List Use :=
      [.call (.allocate 24), .call (.zeroAllocate 8), .write first 0 1, .write first 23 2,
       .call (.reallocate (some first) 100), .write moved 99 3, .call (.reallocate (some moved) (2 ^ 50)),
       .call (.release second)]
    let x := (fresh ⟨Memory.empty, []⟩).run raw.logged uses
    raw.Lawful Memory.HasBlocks ∧ Memory.HasBlocks Memory.empty.blocks Memory.empty ∧
    (fresh Memory.empty).Allowed raw uses ∧
    x.memory.log =
      [⟨.allocate 40, some 4096⟩, ⟨.allocateZeroed 24, some 4144⟩, ⟨.reallocate 4096 40 116, some 4176⟩,
       ⟨.reallocate 4176 116 (2 ^ 50 + 16), none⟩, ⟨.deallocate 4144 24, none⟩] ∧
    (∀ before e after, x.memory.log = before ++ e :: after → e.call.Fits (recorded before)) ∧
    loadWord x.memory 4176 = 116 := by
  intro raw first second moved uses x
  have hallowed : (fresh Memory.empty).Allowed raw uses := by
    refine ⟨trivial, trivial, ⟨24, by decide +kernel, by decide⟩, ⟨24, by decide +kernel, by decide⟩, ?_⟩
    refine ⟨⟨24, by decide +kernel⟩, ⟨100, by decide +kernel, by decide⟩, ⟨100, by decide +kernel⟩, ?_⟩
    exact ⟨⟨8, by decide +kernel⟩, trivial⟩
  have hhas : Memory.HasBlocks Memory.empty.blocks Memory.empty := ⟨Memory.tidy_empty, rfl⟩
  obtain ⟨-, hfit, -, hparts, -⟩ :=
    headers_faithful raw Memory.HasBlocks Memory.lawful_sized Memory.empty.blocks Memory.empty hhas uses hallowed
  have hmoved : x.parts 4192 = some 100 := by decide +kernel
  exact ⟨Memory.lawful_sized, hhas, hallowed, by decide +kernel, hfit, (hparts 4192 100 hmoved).2.2.2⟩

end Caller

end Headed

end BlockTracker
