import BlockTracker.Proofs.Ledger

/-!
# Relabelled ledgers

A ledger looks at its handles only to tell whether two of them are equal.  So an operation does to a ledger whose
handles are relabelled what it does to the ledger itself (`relabel_update`, `relabel_reply`), as long as the labels
tell the block that the operation is about from the blocks of the window.  A label may go over to another block once
its own block is spent (`Ledger.spent`).
-/

namespace BlockTracker

variable {B σ : Type}

/-- A backend without a name. -/
def Backends.anonymous : Backends Unit Unit where
  name _ := ""
  builtin _ := ()
  serve _ _ s := (none, s)

/-- The blocks that a call with this answer uses up: one that is released, and one that is resized, unless the resize
fails and was not one to nothing. -/
def Call.spent : Call → Option Handle → List Handle
  | .reallocate (some old) _, some _ => [old]
  | .reallocate (some old) bytes, none => if bytes = 0 then [old] else []
  | .release block, _ => [block]
  | _, _ => []

namespace Operation

/-- The block that an operation is about, if any. -/
def subject : Operation B → Option Handle
  | .reallocate old _ => old
  | .release h | .isTracked h => some h
  | _ => none

/-- Writes `f h` for a block `h`, and forgets which backends there are. -/
def relabel (f : Handle → Handle) : Operation B → Operation Unit
  | .install => .install
  | .allocate bytes => .allocate bytes
  | .zeroAllocate bytes => .zeroAllocate bytes
  | .reallocate old bytes => .reallocate (old.map f) bytes
  | .release h => .release (f h)
  | .collect => .collect
  | .exchange _ => .exchange (.all ())
  | .liveCount => .liveCount
  | .isTracked h => .isTracked (f h)
  | .stats => .stats

end Operation

namespace Ledger

/-- Writes `f h` for a block `h`, and forgets which backends there are. -/
def relabel (f : Handle → Handle) (l : Ledger B) : Ledger Unit where
  capacity := l.capacity
  entries := l.entries.map fun e => ⟨f e.handle, e.size⟩
  totalBytes := l.totalBytes
  wraps := l.wraps
  untrackedReleases := l.untrackedReleases
  drainedTotal := l.drainedTotal
  swaps := l.swaps
  live := l.live
  target := .all ()
  installed := l.installed

/-- The blocks that an operation with this answer uses up. -/
def spent (l : Ledger B) (op : Operation B) (answer : Option Handle) : List Handle :=
  (l.calls op).flatMap fun c => c.spent answer

variable {f f' : Handle → Handle} {l : Ledger B} {op : Operation B} {answer : Option Handle} {h : Handle}

theorem spent_of_calls {c : Call} (hc : l.calls op = [c]) : l.spent op answer = c.spent answer := by
  rw [spent, hc, List.flatMap_singleton]

/-- All blocks of the window are used up when it is drained. -/
theorem spent_of_drains (hc : l.calls op = l.handles.map .release) : l.spent op answer = l.handles := by
  rw [spent, hc, List.flatMap_map]
  exact List.flatMap_singleton' l.handles

theorem mem_spent_moved {old new : Handle} {bytes : Nat} :
    h ∈ l.spent (.reallocate (some old) bytes) (some new) ↔ h = old := by
  rw [spent_of_calls rfl]
  exact List.mem_singleton

theorem mem_spent_failed {old : Handle} {bytes : Nat} :
    h ∈ l.spent (.reallocate (some old) bytes) none ↔ h = old ∧ bytes = 0 := by
  rw [spent_of_calls rfl, Call.spent]
  split <;> simp [*]

private theorem spent_release (l : Ledger B) (block : Handle) (answer : Option Handle) :
    l.spent (.release block) answer = if block ∈ l.handles then [block] else [] := by
  rw [spent, calls]
  split <;> rfl

theorem mem_spent_release {block : Handle} : h ∈ l.spent (.release block) answer ↔ h = block ∧ block ∈ l.handles := by
  rw [spent_release]
  split <;> simp [*]

theorem spent_given (bs : Backends B σ) (l : Ledger B) (op : Operation B) (answer : Option Handle) :
    l.spent op (l.reply bs op answer).given = l.spent op answer := by
  cases op with
  | reallocate old bytes => rw [reply, given_resultOf]
  | release block => rw [spent_release, spent_release]
  | collect => rw [spent_of_drains rfl, spent_of_drains rfl]
  | exchange o => rw [spent_of_drains rfl, spent_of_drains rfl]
  | _ => rfl

/-- The blocks of the window behind an operation are the one that it was answered and blocks that it did not use up. -/
theorem mem_handles_update (hd : l.handles.Nodup) (hm : h ∈ (l.update op answer).handles) :
    answer = some h ∨ (h ∈ l.handles ∧ h ∉ l.spent op answer) := by
  have hgrant (bytes : Nat) (hm : h ∈ (l.ready.grant bytes answer).handles) : answer = some h ∨ h ∈ l.handles := by
    rcases answer with _ | new
    · exact .inr hm
    · by_cases hroom : l.ready.entries.length < l.ready.capacity
      · rw [handles_grant_of_room hroom] at hm
        exact (List.mem_append.1 hm).symm.imp (fun hn => congrArg some (List.mem_singleton.1 hn).symm) id
      · rw [handles_grant_of_full hroom] at hm
        exact .inl (congrArg some (List.mem_singleton.1 hm).symm)
  have hstrike (block : Handle) (hm : h ∈ (l.ready.strike block).handles) : h ∈ l.handles ∧ h ≠ block := by
    obtain ⟨e, he, rfl⟩ := List.mem_map.1 hm
    obtain ⟨he, hne⟩ := (mem_entries_strike (l := l.ready) hd block e).1 he
    exact ⟨List.mem_map_of_mem he, hne⟩
  cases op with
  | allocate bytes => exact (hgrant bytes hm).imp_right fun hin => ⟨hin, List.not_mem_nil⟩
  | zeroAllocate bytes => exact (hgrant bytes hm).imp_right fun hin => ⟨hin, List.not_mem_nil⟩
  | reallocate old bytes =>
    rcases old with _ | old
    · exact (hgrant bytes hm).imp_right fun hin => ⟨hin, List.not_mem_nil⟩
    · rcases answer with _ | new
      · simp only [update] at hm
        split at hm
        · obtain ⟨hin, hne⟩ := hstrike old hm
          exact .inr ⟨hin, fun hs => hne (mem_spent_failed.1 hs).1⟩
        · next hb => exact .inr ⟨hm, fun hs => hb (mem_spent_failed.1 hs).2⟩
      · change h ∈ (l.ready.replace old ⟨new, bytes⟩).handles at hm
        by_cases hold : old ∈ l.handles
        · rcases List.mem_cons.1 ((handles_replace_perm (l := l.ready) hold ⟨new, bytes⟩).mem_iff.1 hm) with rfl | hm
          · exact .inl rfl
          · obtain ⟨hne, hin⟩ := hd.mem_erase_iff.1 hm
            exact .inr ⟨hin, mt mem_spent_moved.1 hne⟩
        · rw [replace_of_notMem (l := l.ready) hold] at hm
          exact .inr ⟨hm, fun hs => hold (mem_spent_moved.1 hs ▸ hm)⟩
  | release block =>
    simp only [update] at hm
    split at hm
    · obtain ⟨hin, hne⟩ := hstrike block hm
      exact .inr ⟨hin, fun hs => hne (mem_spent_release.1 hs).1⟩
    · next hn => exact .inr ⟨hm, fun hs => hn (mem_spent_release.1 hs).2⟩
  | collect => exact absurd hm List.not_mem_nil
  | exchange o => exact absurd hm List.not_mem_nil
  | install => exact .inr ⟨hm, List.not_mem_nil⟩
  | liveCount => exact .inr ⟨hm, List.not_mem_nil⟩
  | isTracked block => exact .inr ⟨hm, List.not_mem_nil⟩
  | stats => exact .inr ⟨hm, List.not_mem_nil⟩

/-! ### Changes -/

theorem handles_relabel (f : Handle → Handle) (l : Ledger B) : (l.relabel f).handles = l.handles.map f := by
  rw [handles, handles, relabel, List.map_map, List.map_map]
  rfl

/-- Labels that agree on the blocks of the window are the same to a ledger. -/
theorem relabel_congr (hf : ∀ x ∈ l.handles, f' x = f x) : l.relabel f' = l.relabel f := by
  have hentries : (l.entries.map fun e : Entry => Entry.mk (f' e.handle) e.size) =
      l.entries.map fun e => ⟨f e.handle, e.size⟩ :=
    List.map_congr_left fun e he => by rw [hf e.handle (List.mem_map_of_mem he)]
  rw [relabel, relabel, hentries]

private theorem mem_map_iff_of_inj {hs : List Handle} (hinj : ∀ x ∈ hs, f x = f h → x = h) :
    f h ∈ hs.map f ↔ h ∈ hs := by
  constructor
  · intro hm
    obtain ⟨x, hx, heq⟩ := List.mem_map.1 hm
    exact hinj x hx heq ▸ hx
  · exact List.mem_map_of_mem

private theorem idxOf_map_of_inj {hs : List Handle} (hinj : ∀ x ∈ hs, f x = f h → x = h) :
    (hs.map f).idxOf (f h) = hs.idxOf h := by
  induction hs with
  | nil => rfl
  | cons x hs ih =>
    have ih := ih fun y hy => hinj y (List.mem_cons_of_mem x hy)
    rw [List.map_cons, List.idxOf_cons, List.idxOf_cons, ih]
    by_cases hx : x = h
    · subst hx
      rw [beq_self_eq_true, beq_self_eq_true]
    · have hfx : f x ≠ f h := fun heq => hx (hinj x List.mem_cons_self heq)
      rw [beq_false_of_ne hx, beq_false_of_ne hfx]

theorem mem_handles_relabel (hinj : ∀ x ∈ l.handles, f x = f h → x = h) :
    f h ∈ (l.relabel f).handles ↔ h ∈ l.handles := by
  rw [handles_relabel]
  exact mem_map_iff_of_inj hinj

private theorem idxOf_relabel (hinj : ∀ x ∈ l.handles, f x = f h → x = h) :
    (l.relabel f).handles.idxOf (f h) = l.handles.idxOf h := by
  rw [handles_relabel]
  exact idxOf_map_of_inj hinj

private theorem swapErase_map (g : Entry → Entry) (i : Nat) (es : List Entry) :
    Window.swapErase i (es.map g) = (Window.swapErase i es).map g := by
  unfold Window.swapErase
  rw [List.getLast?_map]
  cases es.getLast? with
  | none => rfl
  | some last => rw [Option.map_some, List.map_dropLast, List.map_set]

private theorem relabel_strike (hinj : ∀ x ∈ l.handles, f x = f h → x = h) :
    (l.strike h).relabel f = (l.relabel f).strike (f h) := by
  by_cases hm : h ∈ l.handles
  · rw [strike_of_mem hm, strike_of_mem ((mem_handles_relabel hinj).2 hm), idxOf_relabel hinj]
    simp only [relabel, swapErase_map]
  · rw [strike_of_notMem hm, strike_of_notMem (mt (mem_handles_relabel hinj).1 hm)]

private theorem relabel_grant (hf : ∀ x ∈ l.handles, f' x = f x) (bytes : Nat) (answer : Option Handle) :
    (l.grant bytes answer).relabel f' = (l.relabel f).grant bytes (answer.map f') := by
  rw [← relabel_congr hf]
  cases answer with
  | none => rfl
  | some new =>
    have hlen : (l.relabel f').entries.length = l.entries.length := List.length_map ..
    by_cases hroom : l.entries.length < l.capacity
    · have hroom' : (l.relabel f').entries.length < (l.relabel f').capacity := hlen.symm ▸ hroom
      rw [grant_of_room hroom, Option.map_some, grant_of_room hroom']
      simp only [relabel, List.map_append, List.map_cons, List.map_nil]
    · have hroom' : ¬ (l.relabel f').entries.length < (l.relabel f').capacity := hlen.symm ▸ hroom
      rw [grant_of_full hroom, Option.map_some, grant_of_full hroom']
      simp only [relabel, List.map_cons, List.map_nil]

private theorem relabel_replace (hd : l.handles.Nodup) {old : Handle} (hinj : ∀ x ∈ l.handles, f x = f old → x = old)
    (hf : ∀ x ∈ l.handles, x ≠ old → f' x = f x) (new : Handle) (bytes : Nat) :
    (l.replace old ⟨new, bytes⟩).relabel f' = (l.relabel f).replace (f old) ⟨f' new, bytes⟩ := by
  have hentries : (l.entries.set (l.handles.idxOf old) ⟨new, bytes⟩).map
        (fun e : Entry => Entry.mk (f' e.handle) e.size) =
      (l.entries.map fun e : Entry => Entry.mk (f e.handle) e.size).set (l.handles.idxOf old) ⟨f' new, bytes⟩ := by
    rw [List.map_set]
    refine List.ext_getElem (by simp only [List.length_set, List.length_map]) fun i hi hi' => ?_
    by_cases hidx : l.handles.idxOf old = i
    · subst hidx
      rw [List.getElem_set_self, List.getElem_set_self]
    · -- any other entry is for another block
      rw [List.getElem_set_ne hidx, List.getElem_set_ne hidx, List.getElem_map, List.getElem_map]
      rw [List.length_set, List.length_map] at hi
      have hlt : i < l.handles.length := (length_handles l).symm ▸ hi
      have hget : l.handles[i] = l.entries[i].handle := List.getElem_map ..
      have hne : l.entries[i].handle ≠ old := by
        rintro rfl
        rw [← hget, hd.idxOf_getElem i hlt] at hidx
        exact hidx rfl
      rw [hf _ (List.mem_map_of_mem (List.getElem_mem hi)) hne]
  rw [replace, replace, idxOf_relabel hinj]
  simp only [relabel, hentries]

/-! ### Operations -/

/-- An operation does to a relabelled ledger what it does to the ledger.  The labels may change for the blocks that it
uses up. -/
theorem relabel_update (hd : l.handles.Nodup)
    (hinj : ∀ h, op.subject = some h → ∀ x ∈ l.handles, f x = f h → x = h)
    (hf : ∀ x ∈ l.handles, x ∉ l.spent op answer → f' x = f x) :
    (l.update op answer).relabel f' = (l.relabel f).update (op.relabel f) (answer.map f') := by
  have hstrike (block : Handle) (hb : op.subject = some block)
      (hf : ∀ x ∈ l.handles, x ≠ block → f' x = f x) :
      (l.ready.strike block).relabel f' = (l.relabel f).ready.strike (f block) := by
    rw [relabel_congr (f := f), relabel_strike (l := l.ready) (hinj block hb)]
    · rfl
    · intro x hx
      obtain ⟨e, he, rfl⟩ := List.mem_map.1 hx
      obtain ⟨he, hne⟩ := (mem_entries_strike (l := l.ready) hd block e).1 he
      exact hf _ (List.mem_map_of_mem he) hne
  cases op with
  | allocate bytes => exact relabel_grant (l := l.ready) (fun x hx => hf x hx List.not_mem_nil) bytes answer
  | zeroAllocate bytes => exact relabel_grant (l := l.ready) (fun x hx => hf x hx List.not_mem_nil) bytes answer
  | reallocate old bytes =>
    rcases old with _ | old
    · exact relabel_grant (l := l.ready) (fun x hx => hf x hx List.not_mem_nil) bytes answer
    · rcases answer with _ | new
      · simp only [update, Operation.relabel, Option.map_some, Option.map_none]
        by_cases hb : bytes = 0
        · rw [if_pos hb, if_pos hb]
          exact hstrike old rfl fun x hx hne => hf x hx fun hs => hne (mem_spent_failed.1 hs).1
        · rw [if_neg hb, if_neg hb]
          exact relabel_congr (l := l.ready) fun x hx => hf x hx fun hs => hb (mem_spent_failed.1 hs).2
      · exact relabel_replace (l := l.ready) hd (hinj old rfl)
          (fun x hx hne => hf x hx (mt mem_spent_moved.1 hne)) new bytes
  | release block =>
    have hiff := mem_handles_relabel (hinj block rfl)
    simp only [update, Operation.relabel]
    by_cases hm : block ∈ l.handles
    · rw [if_pos hm, if_pos (hiff.2 hm)]
      exact hstrike block rfl fun x hx hne => hf x hx fun hs => hne (mem_spent_release.1 hs).1
    · rw [if_neg hm, if_neg (mt hiff.1 hm)]
      exact relabel_congr (l := l.ready.ignore) fun x hx => hf x hx fun hs => hm (mem_spent_release.1 hs).2
  | collect => simp only [update, Operation.relabel, relabel, drain, ready, List.length_map, List.map_nil]
  | exchange o =>
    simp only [update, Operation.relabel, relabel, drain, ready, override, List.length_map, List.map_nil]
    rfl
  | install => exact relabel_congr (l := l.ready) fun x hx => hf x hx List.not_mem_nil
  | liveCount => exact relabel_congr (l := l.ready) fun x hx => hf x hx List.not_mem_nil
  | stats => exact relabel_congr (l := l.ready) fun x hx => hf x hx List.not_mem_nil
  | isTracked block => exact relabel_congr fun x hx => hf x hx List.not_mem_nil

end Ledger

/-! ### Answers -/

/-- The figures without the names of the backends. -/
def Stats.anonymous (st : Stats) : Stats := { st with backends := .all "" }

/-- An answer that gives `name h` for a block `h` and no names of backends. -/
inductive Reading (α : Type)
  | flag (b : Bool)
  | block (result : Except Failure α)
  | release (outcome : ReleaseOutcome)
  | count (n : Nat)
  | stats (st : Stats)

def Answer.read {α : Type} (name : Handle → α) : Answer → Reading α
  | .flag b => .flag b
  | .block result => .block (result.map name)
  | .release outcome => .release outcome
  | .count n => .count n
  | .stats st => .stats st.anonymous

namespace Ledger

variable {f f' : Handle → Handle} {l : Ledger B} {op : Operation B} {answer : Option Handle}

theorem figures_relabel (bs : Backends B σ) (f : Handle → Handle) (l : Ledger B) :
    (l.relabel f).figures .anonymous = (l.figures bs).anonymous := by
  simp only [figures, relabel, Stats.anonymous, List.length_map]
  rfl

/-- An operation answers for a relabelled ledger what it answers for the ledger. -/
theorem relabel_reply {α : Type} (bs : Backends B σ) (name : Handle → α) (unlabel : Handle → α)
    (hname : ∀ new, answer = some new → name new = unlabel (f' new))
    (hinj : ∀ h, op.subject = some h → ∀ x ∈ l.handles, f x = f h → x = h) :
    (l.reply bs op answer).read name =
      ((l.relabel f).reply .anonymous (op.relabel f) (answer.map f')).read unlabel := by
  have hblock (bytes : Nat) : (Answer.block (resultOf bytes answer)).read name =
      (Answer.block (resultOf bytes (answer.map f'))).read unlabel := by
    rcases answer with _ | new
    · rfl
    · simp only [Answer.read, Option.map_some, resultOf, Except.map, hname new rfl]
  have hlen : (l.relabel f).entries.length = l.entries.length := List.length_map ..
  cases op with
  | allocate bytes => exact hblock bytes
  | zeroAllocate bytes => exact hblock bytes
  | reallocate old bytes => exact hblock bytes
  | release block => simp only [reply, Operation.relabel, mem_handles_relabel (hinj block rfl), Answer.read]
  | isTracked block => simp only [reply, Operation.relabel, mem_handles_relabel (hinj block rfl), Answer.read]
  | collect => simp only [reply, Operation.relabel, hlen, Answer.read]
  | exchange o => simp only [reply, Operation.relabel, hlen, Answer.read]
  | liveCount => simp only [reply, Operation.relabel, hlen, Answer.read]
  | stats =>
    simp only [reply, Operation.relabel, figures_relabel bs, Answer.read]
    rfl
  | install => rfl

end Ledger

end BlockTracker
