import BlockTracker.Tracker.Operation
import BlockTracker.Window.Lemmas
import Mathlib.Data.List.Perm.Basic

/-!
# Ledgers

A ledger is a tracker without slots: the entries of the window as a list, the counters, and the backend that serves
each primitive.  An operation makes its calls (`Ledger.calls`), one after the other; what it answers (`Ledger.reply`)
and what it changes (`Ledger.update`) hangs on the ledger and on the answer to the last call alone.

The changes are few: a new entry goes in (`grant`), an entry is put in the place of another (`replace`), an entry is
struck off (`strike`), and all entries go (`drain`).
-/

namespace BlockTracker

/-- The block that an operation answered, if any. -/
def Answer.given : Answer → Option Handle
  | .block (.ok h) => some h
  | _ => none

structure Ledger (B : Type) where
  capacity : Nat
  entries : List Entry
  totalBytes : Nat
  wraps : Nat
  untrackedReleases : Nat
  drainedTotal : Nat
  swaps : Nat
  /-- The number of blocks handed out and not taken back. -/
  live : Nat
  target : PerPrimitive B
  /-- Whether any operation has put a backend in place yet. -/
  installed : Bool

/-- Sends calls one after the other to the backends of their primitives.  The answer is that of the last call. -/
def Backends.serveAll {B σ : Type} (bs : Backends B σ) (target : PerPrimitive B) (calls : List Call) (s : σ) :
    Option Handle × σ :=
  calls.foldl (fun p c => bs.serve (target.get c.primitive) c p.2) (none, s)

theorem Backends.serveAll_one {B σ : Type} (bs : Backends B σ) (b : B) (c : Call) (s : σ) :
    bs.serveAll (.all b) [c] s = bs.serve b c s := by
  rw [serveAll, List.foldl_cons, List.foldl_nil, PerPrimitive.get_all]

theorem Backends.snd_serveAll_cons {B σ : Type} (bs : Backends B σ) (target : PerPrimitive B) (c : Call)
    (cs : List Call) (s : σ) :
    (bs.serveAll target (c :: cs) s).2 = (bs.serveAll target cs (bs.serve (target.get c.primitive) c s).2).2 := by
  cases cs <;> rfl

namespace Ledger

variable {B σ : Type}

def fresh (bs : Backends B σ) (st : Settings) : Ledger B where
  capacity := st.capacity
  entries := []
  totalBytes := 0
  wraps := 0
  untrackedReleases := 0
  drainedTotal := 0
  swaps := 0
  live := 0
  target := .all (bs.builtin st.kind)
  installed := false

/-- The handles of the entries, in order. -/
def handles (l : Ledger B) : List Handle := l.entries.map (·.handle)

/-- Some backend is in place. -/
def ready (l : Ledger B) : Ledger B := { l with installed := true }

/-- Takes the block that answers a request in.  The entries start over with it when there is no room for one more. -/
def grant (l : Ledger B) (bytes : Nat) : Option Handle → Ledger B
  | none => l
  | some block =>
    let l := { l with totalBytes := min (l.totalBytes + bytes) (wordCount - 1), live := l.live + 1 }
    if l.entries.length < l.capacity then { l with entries := l.entries ++ [⟨block, bytes⟩] }
    else { l with entries := [⟨block, bytes⟩], wraps := l.wraps + 1 }

/-- Puts an entry in the place of the first one for `old`, if there is one. -/
def replace (l : Ledger B) (old : Handle) (e : Entry) : Ledger B :=
  { l with entries := l.entries.set (l.handles.idxOf old) e }

/-- Strikes the first entry for `h` off, if there is one; the last entry moves into its place. -/
def strike (l : Ledger B) (h : Handle) : Ledger B :=
  if h ∈ l.handles then
    { l with entries := Window.swapErase (l.handles.idxOf h) l.entries, live := l.live - 1 }
  else l

theorem strike_of_mem {l : Ledger B} {h : Handle} (hm : h ∈ l.handles) :
    l.strike h = { l with entries := Window.swapErase (l.handles.idxOf h) l.entries, live := l.live - 1 } := if_pos hm

theorem strike_of_notMem {l : Ledger B} {h : Handle} (hm : h ∉ l.handles) : l.strike h = l := if_neg hm

/-- Counts a release that has no entry. -/
def ignore (l : Ledger B) : Ledger B := { l with untrackedReleases := l.untrackedReleases + 1 }

def drain (l : Ledger B) : Ledger B :=
  { l with
    entries := []
    live := l.live - l.entries.length
    drainedTotal := l.drainedTotal + l.entries.length }

/-- Puts the backends that are present in `o` in their places. -/
def override (l : Ledger B) (o : Override B) : Ledger B :=
  { l with target := l.target.zipWith (fun old new => new.getD old) o, swaps := l.swaps + 1 }

/-- The calls that an operation makes, in order. -/
def calls (l : Ledger B) : Operation B → List Call
  | .allocate bytes => [.allocate bytes]
  | .zeroAllocate bytes => [.zeroAllocate bytes]
  | .reallocate old bytes => [.reallocate old bytes]
  | .release h => if h ∈ l.handles then [.release h] else []
  | .collect | .exchange _ => l.handles.map .release
  | .install | .liveCount | .isTracked _ | .stats => []

/-- What an operation makes of the ledger, given the answer to its last call. -/
def update (l : Ledger B) (op : Operation B) (answer : Option Handle) : Ledger B :=
  match op, answer with
  | .isTracked _, _ => l
  | .install, _ | .liveCount, _ | .stats, _ => l.ready
  | .allocate bytes, answer | .zeroAllocate bytes, answer | .reallocate none bytes, answer => l.ready.grant bytes answer
  | .reallocate (some old) bytes, some new => l.ready.replace old ⟨new, bytes⟩
  | .reallocate (some old) bytes, none => if bytes = 0 then l.ready.strike old else l.ready
  | .release h, _ => if h ∈ l.handles then l.ready.strike h else l.ready.ignore
  | .collect, _ => l.ready.drain
  | .exchange o, _ => l.ready.drain.override o

def figures (bs : Backends B σ) (l : Ledger B) : Stats where
  tracked := l.entries.length
  capacity := l.capacity
  backendLive := l.live
  totalBytes := l.totalBytes
  wraps := l.wraps
  untrackedReleases := l.untrackedReleases
  drainedTotal := l.drainedTotal
  swaps := l.swaps
  backends := l.target.map bs.name

/-- What a request for a block answers to its caller. -/
def resultOf (bytes : Nat) : Option Handle → Except Failure Handle
  | some block => .ok block
  | none => .error (.outOfMemory bytes)

/-- What an operation answers, given the answer to its last call. -/
def reply (bs : Backends B σ) (l : Ledger B) (op : Operation B) (answer : Option Handle) : Answer :=
  match op with
  | .install => .flag (!l.installed)
  | .allocate bytes | .zeroAllocate bytes | .reallocate _ bytes => .block (resultOf bytes answer)
  | .release h => .release (if h ∈ l.handles then .released else .untracked)
  | .collect | .exchange _ | .liveCount => .count l.entries.length
  | .isTracked h => .flag (h ∈ l.handles)
  | .stats => .stats (l.figures bs)

/-- Does one operation. -/
def perform (bs : Backends B σ) (l : Ledger B) (op : Operation B) (s : σ) : Answer × Ledger B × σ :=
  let (answer, s) := bs.serveAll l.target (l.calls op) s
  (l.reply bs op answer, l.update op answer, s)

/-- Does the operations of a list in order. -/
def run (bs : Backends B σ) (l : Ledger B) : List (Operation B) → σ → List (Answer × Ledger B × σ)
  | [], _ => []
  | op :: ops, s =>
    let r := l.perform bs op s
    r :: r.2.1.run bs ops r.2.2

/-! ### Answers -/

theorem given_resultOf (bytes : Nat) (answer : Option Handle) :
    (Answer.block (resultOf bytes answer)).given = answer := by
  cases answer <;> rfl

/-- An operation goes by the block that it answers, and not by what else its last call was answered. -/
theorem update_given (bs : Backends B σ) (l : Ledger B) (op : Operation B) (answer : Option Handle) :
    l.update op (l.reply bs op answer).given = l.update op answer := by
  cases op with
  | allocate bytes => rw [reply, given_resultOf]
  | zeroAllocate bytes => rw [reply, given_resultOf]
  | reallocate old bytes => rw [reply, given_resultOf]
  | _ => rfl

theorem reply_given (bs : Backends B σ) (l : Ledger B) (op : Operation B) (answer : Option Handle) :
    l.reply bs op (l.reply bs op answer).given = l.reply bs op answer := by
  cases op with
  | allocate bytes => simp only [reply, given_resultOf]
  | zeroAllocate bytes => simp only [reply, given_resultOf]
  | reallocate old bytes => simp only [reply, given_resultOf]
  | _ => rfl

/-! ### What the changes do -/

private theorem length_swapErase (i : Nat) (es : List Entry) : (Window.swapErase i es).length = es.length - 1 := by
  unfold Window.swapErase
  split
  · next h => rw [List.getLast?_eq_none_iff.1 h]; rfl
  · rw [List.length_dropLast, List.length_set]

private theorem swapErase_perm {i : Nat} {es : List Entry} (hi : i < es.length) :
    (Window.swapErase i es).Perm (es.eraseIdx i) := by
  have hne : es ≠ [] := by
    rintro rfl
    exact absurd hi (Nat.not_lt_zero i)
  obtain ⟨init, last, rfl⟩ : ∃ init last, es = init ++ [last] := ⟨_, _, (List.dropLast_append_getLast hne).symm⟩
  simp only [Window.swapErase, List.getLast?_append_of_ne_nil _ (List.cons_ne_nil last []), List.getLast?_singleton]
  rw [List.length_append, List.length_singleton] at hi
  by_cases hlt : i < init.length
  · rw [List.set_append_left _ _ hlt, List.dropLast_concat, List.eraseIdx_append_of_lt_length hlt]
    exact (List.set_perm_cons_eraseIdx hlt last).trans (List.perm_append_singleton _ _).symm
  · have hi' : i = init.length := by omega
    subst hi'
    rw [List.set_append_right _ _ (Nat.le_refl _), List.eraseIdx_append_of_length_le (Nat.le_refl _), Nat.sub_self]
    simp

variable {l : Ledger B} {h : Handle}

@[simp] theorem length_handles (l : Ledger B) : l.handles.length = l.entries.length := List.length_map ..

@[simp] theorem handles_ready (l : Ledger B) : l.ready.handles = l.handles := rfl

theorem grant_of_room (hl : l.entries.length < l.capacity) (bytes : Nat) (block : Handle) :
    l.grant bytes (some block) =
      { l with
        entries := l.entries ++ [⟨block, bytes⟩]
        totalBytes := min (l.totalBytes + bytes) (wordCount - 1)
        live := l.live + 1 } := by
  simp only [grant, hl, ↓reduceIte]

theorem grant_of_full (hl : ¬ l.entries.length < l.capacity) (bytes : Nat) (block : Handle) :
    l.grant bytes (some block) =
      { l with
        entries := [⟨block, bytes⟩]
        totalBytes := min (l.totalBytes + bytes) (wordCount - 1)
        wraps := l.wraps + 1
        live := l.live + 1 } := by
  simp only [grant, hl, ↓reduceIte]

theorem handles_grant_of_room (hl : l.entries.length < l.capacity) (bytes : Nat) (block : Handle) :
    (l.grant bytes (some block)).handles = l.handles ++ [block] := by
  rw [grant_of_room hl]
  exact List.map_append ..

theorem handles_grant_of_full (hl : ¬ l.entries.length < l.capacity) (bytes : Nat) (block : Handle) :
    (l.grant bytes (some block)).handles = [block] := by
  rw [grant_of_full hl]
  rfl

private theorem grant_rest (l : Ledger B) (bytes : Nat) (answer : Option Handle) :
    ∃ entries totalBytes wraps live, l.grant bytes answer = { l with entries, totalBytes, wraps, live } := by
  cases answer with
  | none => exact ⟨_, _, _, _, rfl⟩
  | some block =>
    by_cases hl : l.entries.length < l.capacity
    · exact ⟨_, _, _, _, grant_of_room hl bytes block⟩
    · exact ⟨_, _, _, _, grant_of_full hl bytes block⟩

private theorem strike_rest (l : Ledger B) (h : Handle) : ∃ entries live, l.strike h = { l with entries, live } := by
  unfold strike
  split <;> exact ⟨_, _, rfl⟩

@[simp] theorem capacity_grant (l : Ledger B) (bytes : Nat) (answer : Option Handle) :
    (l.grant bytes answer).capacity = l.capacity := by
  obtain ⟨_, _, _, _, h⟩ := grant_rest l bytes answer
  rw [h]

@[simp] theorem drainedTotal_grant (l : Ledger B) (bytes : Nat) (answer : Option Handle) :
    (l.grant bytes answer).drainedTotal = l.drainedTotal := by
  obtain ⟨_, _, _, _, h⟩ := grant_rest l bytes answer
  rw [h]

@[simp] theorem untrackedReleases_grant (l : Ledger B) (bytes : Nat) (answer : Option Handle) :
    (l.grant bytes answer).untrackedReleases = l.untrackedReleases := by
  obtain ⟨_, _, _, _, h⟩ := grant_rest l bytes answer
  rw [h]

@[simp] theorem swaps_grant (l : Ledger B) (bytes : Nat) (answer : Option Handle) :
    (l.grant bytes answer).swaps = l.swaps := by
  obtain ⟨_, _, _, _, h⟩ := grant_rest l bytes answer
  rw [h]

@[simp] theorem target_grant (l : Ledger B) (bytes : Nat) (answer : Option Handle) :
    (l.grant bytes answer).target = l.target := by
  obtain ⟨_, _, _, _, h⟩ := grant_rest l bytes answer
  rw [h]

@[simp] theorem installed_grant (l : Ledger B) (bytes : Nat) (answer : Option Handle) :
    (l.grant bytes answer).installed = l.installed := by
  obtain ⟨_, _, _, _, h⟩ := grant_rest l bytes answer
  rw [h]

@[simp] theorem capacity_strike (l : Ledger B) (h : Handle) : (l.strike h).capacity = l.capacity := by
  obtain ⟨_, _, h⟩ := strike_rest l h
  rw [h]

@[simp] theorem wraps_strike (l : Ledger B) (h : Handle) : (l.strike h).wraps = l.wraps := by
  obtain ⟨_, _, h⟩ := strike_rest l h
  rw [h]

@[simp] theorem untrackedReleases_strike (l : Ledger B) (h : Handle) :
    (l.strike h).untrackedReleases = l.untrackedReleases := by
  obtain ⟨_, _, h⟩ := strike_rest l h
  rw [h]

@[simp] theorem drainedTotal_strike (l : Ledger B) (h : Handle) : (l.strike h).drainedTotal = l.drainedTotal := by
  obtain ⟨_, _, h⟩ := strike_rest l h
  rw [h]

@[simp] theorem swaps_strike (l : Ledger B) (h : Handle) : (l.strike h).swaps = l.swaps := by
  obtain ⟨_, _, h⟩ := strike_rest l h
  rw [h]

@[simp] theorem target_strike (l : Ledger B) (h : Handle) : (l.strike h).target = l.target := by
  obtain ⟨_, _, h⟩ := strike_rest l h
  rw [h]

@[simp] theorem installed_strike (l : Ledger B) (h : Handle) : (l.strike h).installed = l.installed := by
  obtain ⟨_, _, h⟩ := strike_rest l h
  rw [h]

private theorem update_rest (l : Ledger B) (op : Operation B) (answer : Option Handle) :
    (l.update op answer).capacity = l.capacity ∧
      ((∀ o, op ≠ .exchange o) → (l.update op answer).target = l.target) := by
  have hgrant : ∀ bytes, (l.ready.grant bytes answer).capacity = l.capacity ∧
      (l.ready.grant bytes answer).target = l.target := fun bytes =>
    ⟨capacity_grant l.ready bytes answer, target_grant l.ready bytes answer⟩
  have hstrike : ∀ h, (l.ready.strike h).capacity = l.capacity ∧ (l.ready.strike h).target = l.target := fun h =>
    ⟨capacity_strike l.ready h, target_strike l.ready h⟩
  cases op with
  | allocate bytes => exact ⟨(hgrant bytes).1, fun _ => (hgrant bytes).2⟩
  | zeroAllocate bytes => exact ⟨(hgrant bytes).1, fun _ => (hgrant bytes).2⟩
  | reallocate old bytes =>
    rcases old with _ | old
    · exact ⟨(hgrant bytes).1, fun _ => (hgrant bytes).2⟩
    · rcases answer with _ | new
      · simp only [update]
        split
        · exact ⟨(hstrike old).1, fun _ => (hstrike old).2⟩
        · exact ⟨rfl, fun _ => rfl⟩
      · exact ⟨rfl, fun _ => rfl⟩
  | release h =>
    simp only [update]
    split
    · exact ⟨(hstrike h).1, fun _ => (hstrike h).2⟩
    · exact ⟨rfl, fun _ => rfl⟩
  | exchange o => exact ⟨rfl, fun hop => absurd rfl (hop o)⟩
  | _ => exact ⟨rfl, fun _ => rfl⟩

theorem capacity_update (l : Ledger B) (op : Operation B) (answer : Option Handle) :
    (l.update op answer).capacity = l.capacity := (update_rest l op answer).1

/-- Only an exchange puts other backends in place. -/
theorem target_update (l : Ledger B) {op : Operation B} (hop : ∀ o, op ≠ .exchange o) (answer : Option Handle) :
    (l.update op answer).target = l.target := (update_rest l op answer).2 hop

/-- Moving the last entry into the place of the first one for `h` takes one handle away. -/
theorem handles_swapErase_perm {es : List Entry} (hm : h ∈ es.map (·.handle)) :
    ((Window.swapErase ((es.map (·.handle)).idxOf h) es).map (·.handle)).Perm ((es.map (·.handle)).erase h) := by
  have hlt : (es.map (·.handle)).idxOf h < es.length := by
    rw [← List.length_map (·.handle)]
    exact List.idxOf_lt_length_of_mem hm
  rw [← List.eraseIdx_idxOf_eq_erase, List.eraseIdx_map]
  exact (swapErase_perm hlt).map (·.handle)

/-- Striking off takes one handle away. -/
theorem handles_strike_perm (hm : h ∈ l.handles) : (l.strike h).handles.Perm (l.handles.erase h) := by
  rw [strike_of_mem hm]
  exact handles_swapErase_perm hm

theorem length_strike (hm : h ∈ l.handles) : (l.strike h).entries.length + 1 = l.entries.length := by
  have hpos : 0 < l.handles.length := List.length_pos_of_mem hm
  rw [length_handles] at hpos
  rw [strike_of_mem hm, length_swapErase]
  omega

@[simp] theorem length_replace (l : Ledger B) (old : Handle) (e : Entry) :
    (l.replace old e).entries.length = l.entries.length := List.length_set ..

theorem handles_replace (l : Ledger B) (old : Handle) (e : Entry) :
    (l.replace old e).handles = l.handles.set (l.handles.idxOf old) e.handle := List.map_set ..

theorem handles_replace_perm {old : Handle} (hm : old ∈ l.handles) (e : Entry) :
    (l.replace old e).handles.Perm (e.handle :: l.handles.erase old) := by
  rw [handles_replace, ← List.eraseIdx_idxOf_eq_erase]
  exact List.set_perm_cons_eraseIdx (List.idxOf_lt_length_of_mem hm) _

theorem handles_replace_of_notMem {old : Handle} (hn : old ∉ l.handles) (e : Entry) :
    (l.replace old e).handles = l.handles := by
  rw [handles_replace, List.set_eq_of_length_le (Nat.le_of_eq (List.idxOf_eq_length hn).symm)]

private theorem mem_eraseIdx_idxOf {es : List Entry} (hd : (es.map (·.handle)).Nodup) (h : Handle) (e : Entry) :
    e ∈ es.eraseIdx ((es.map (·.handle)).idxOf h) ↔ e ∈ es ∧ e.handle ≠ h := by
  induction es with
  | nil => simp
  | cons x es ih =>
    rw [List.map_cons, List.nodup_cons] at hd
    rw [List.map_cons, List.idxOf_cons]
    by_cases hx : x.handle = h
    · subst hx
      have hne : e ∈ es → e.handle ≠ x.handle := fun he hh => hd.1 (hh ▸ List.mem_map_of_mem he)
      simp only [beq_self_eq_true, cond_true, List.eraseIdx_cons_zero, List.mem_cons]
      exact ⟨fun he => ⟨.inr he, hne he⟩, fun ⟨he, hh⟩ => he.resolve_left fun hex => hh (hex ▸ rfl)⟩
    · have hbeq : (x.handle == h) = false := beq_false_of_ne hx
      simp only [hbeq, cond_false, List.eraseIdx_cons_succ, List.mem_cons, ih hd.2]
      constructor
      · rintro (rfl | ⟨he, hh⟩)
        · exact ⟨.inl rfl, hx⟩
        · exact ⟨.inr he, hh⟩
      · rintro ⟨rfl | he, hh⟩
        · exact .inl rfl
        · exact .inr ⟨he, hh⟩

theorem mem_entries_strike (hd : l.handles.Nodup) (h : Handle) (e : Entry) :
    e ∈ (l.strike h).entries ↔ e ∈ l.entries ∧ e.handle ≠ h := by
  by_cases hm : h ∈ l.handles
  · have hlt : l.handles.idxOf h < l.entries.length := by
      rw [← length_handles]
      exact List.idxOf_lt_length_of_mem hm
    rw [strike_of_mem hm]
    exact (swapErase_perm hlt).mem_iff.trans (mem_eraseIdx_idxOf hd h e)
  · rw [strike_of_notMem hm]
    exact ⟨fun he => ⟨he, fun hh => hm (hh ▸ List.mem_map_of_mem he)⟩, And.left⟩

theorem mem_entries_replace (hd : l.handles.Nodup) {old : Handle} (hm : old ∈ l.handles) (e e' : Entry) :
    e' ∈ (l.replace old e).entries ↔ e' = e ∨ (e' ∈ l.entries ∧ e'.handle ≠ old) := by
  have hlt : l.handles.idxOf old < l.entries.length := by
    rw [← length_handles]
    exact List.idxOf_lt_length_of_mem hm
  rw [← mem_eraseIdx_idxOf hd old e', ← List.mem_cons]
  exact (List.set_perm_cons_eraseIdx hlt e).mem_iff

theorem replace_of_notMem {old : Handle} (hn : old ∉ l.handles) (e : Entry) : l.replace old e = l := by
  have hlen : l.entries.length = l.handles.idxOf old := by rw [List.idxOf_eq_length hn, length_handles]
  rw [replace, List.set_eq_of_length_le (Nat.le_of_eq hlen)]

/-- An operation ignores at most one release and exchanges backends at most once. -/
theorem tolls_update_le (l : Ledger B) (op : Operation B) (answer : Option Handle) :
    (l.update op answer).untrackedReleases ≤ l.untrackedReleases + 1 ∧ (l.update op answer).swaps ≤ l.swaps + 1 := by
  have hgrant (bytes : Nat) : (l.ready.grant bytes answer).untrackedReleases ≤ l.untrackedReleases + 1 ∧
      (l.ready.grant bytes answer).swaps ≤ l.swaps + 1 := by
    rw [untrackedReleases_grant, swaps_grant]
    exact ⟨Nat.le_succ _, Nat.le_succ _⟩
  have hstrike (h : Handle) : (l.ready.strike h).untrackedReleases ≤ l.untrackedReleases + 1 ∧
      (l.ready.strike h).swaps ≤ l.swaps + 1 := by
    rw [untrackedReleases_strike, swaps_strike]
    exact ⟨Nat.le_succ _, Nat.le_succ _⟩
  have hsame : l.untrackedReleases ≤ l.untrackedReleases + 1 ∧ l.swaps ≤ l.swaps + 1 := ⟨Nat.le_succ _, Nat.le_succ _⟩
  cases op with
  | allocate bytes => exact hgrant bytes
  | zeroAllocate bytes => exact hgrant bytes
  | reallocate old bytes =>
    rcases old with _ | old
    · exact hgrant bytes
    · rcases answer with _ | new
      · simp only [update]
        split
        · exact hstrike old
        · exact hsame
      · exact hsame
  | release h =>
    simp only [update]
    split
    · exact hstrike h
    · exact ⟨Nat.le_refl _, Nat.le_succ _⟩
  | exchange o => exact ⟨Nat.le_succ _, Nat.le_refl _⟩
  | _ => exact hsame

theorem le_wraps_update (l : Ledger B) (op : Operation B) (answer : Option Handle) :
    l.wraps ≤ (l.update op answer).wraps := by
  have hgrant (bytes : Nat) : l.wraps ≤ (l.ready.grant bytes answer).wraps := by
    cases answer with
    | none => exact Nat.le_refl _
    | some block =>
      by_cases hroom : l.ready.entries.length < l.ready.capacity
      · rw [grant_of_room hroom]
        exact Nat.le_refl _
      · rw [grant_of_full hroom]
        exact Nat.le_succ _
  cases op with
  | allocate bytes => exact hgrant bytes
  | zeroAllocate bytes => exact hgrant bytes
  | reallocate old bytes =>
    rcases old with _ | old
    · exact hgrant bytes
    · rcases answer with _ | new
      · simp only [update]
        split
        · rw [wraps_strike]
          exact Nat.le_refl _
        · exact Nat.le_refl _
      · exact Nat.le_refl _
  | release h =>
    simp only [update]
    split
    · rw [wraps_strike]
      exact Nat.le_refl _
    · exact Nat.le_refl _
  | _ => exact Nat.le_refl _

end Ledger

end BlockTracker
