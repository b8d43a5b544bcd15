import BlockTracker.Proofs.Layout
import BlockTracker.Total
import Mathlib.Data.List.DropRight

/-!
# Entries one after the other

What becomes of a window that takes entries in one after the other, with nothing between.  Number the entries that it
had and those that come from 0 on: the entry `k` goes to the slot `k % capacity`, and it starts the window over if that
is the first slot and `k` is not 0 (`placementAt`).  So the window shows the tail of the sequence that begins at the
latest start (`Latest`).  One more entry keeps this, with the place that its number tells (`Latest.push`).
-/

namespace BlockTracker

namespace Window

variable {B σ : Type}

/-- Where the entry with number `k` of a sequence goes. -/
def placementAt (capacity : Nat) (es : List Entry) (k : Nat) : Placement :=
  if 0 < k ∧ k % capacity = 0 then .wrapped es[k - 1]? else .appended (k % capacity)

/-- The window shows the tail of a sequence, and has started over once for every full window before that tail.  The
entries of a fresh sequence came after `base` starts. -/
structure Latest (w : Window) (base : Nat) (es : List Entry) : Prop where
  wellFormed : w.WellFormed
  entries_eq : w.entries = es.rtake ((es.length - 1) % w.capacity + 1)
  wraps_eq : w.wraps = base + (es.length - 1) / w.capacity

/-! ### One entry -/

theorem placementAt_zero (capacity : Nat) (es : List Entry) : placementAt capacity es 0 = .appended 0 := by
  rw [placementAt, if_neg fun h => Nat.lt_irrefl 0 h.1, Nat.zero_mod]

private theorem wraps_push_of_room {w : Window} (h : w.count < w.capacity) (e : Entry) :
    (w.push e).2.wraps = w.wraps := by
  simp only [push, h, ↓reduceIte]

private theorem wraps_push_of_full {w : Window} (h : ¬ w.count < w.capacity) (e : Entry) :
    (w.push e).2.wraps = w.wraps + 1 := by
  simp only [push, h, ↓reduceIte]

theorem totalBytes_push (w : Window) (e : Entry) :
    (w.push e).2.totalBytes = min (w.totalBytes + e.size) (wordCount - 1) := by
  unfold push
  split <;> rfl

/-- The number behind `n` is in the same round as `n`, or it is the first of the next round. -/
private theorem next_in_round {c : Nat} (hc : 0 < c) (n : Nat) :
    (n % c + 1 < c ∧ (n + 1) % c = n % c + 1 ∧ (n + 1) / c = n / c) ∨
      (n % c + 1 = c ∧ (n + 1) % c = 0 ∧ (n + 1) / c = n / c + 1) := by
  have hlt := Nat.mod_lt n hc
  have hn := Nat.div_add_mod n c
  by_cases h : n % c + 1 < c
  · have hsplit : n + 1 = n % c + 1 + c * (n / c) := by omega
    refine .inl ⟨h, ?_, ?_⟩
    · rw [hsplit, Nat.add_mul_mod_self_left, Nat.mod_eq_of_lt h]
    · rw [hsplit, Nat.add_mul_div_left _ _ hc, Nat.div_eq_of_lt h, Nat.zero_add]
  · have hfull : n % c + 1 = c := by omega
    have hsplit : n + 1 = c * (n / c + 1) := by
      rw [Nat.mul_add, Nat.mul_one]
      omega
    refine .inr ⟨hfull, ?_, ?_⟩
    · rw [hsplit, Nat.mul_mod_right]
    · rw [hsplit, Nat.mul_div_cancel_left _ hc]

namespace Latest

variable {w : Window} {base : Nat} {es : List Entry}

/-- A window shows the sequence of its own entries. -/
theorem refl (hw : w.WellFormed) : w.Latest w.wraps w.entries := by
  have hle := hw.count_le
  have hpos := hw.capacity_pos
  have hlen := hw.length_entries
  have hlt : w.entries.length - 1 < w.capacity := by omega
  refine ⟨hw, ?_, ?_⟩
  · rw [Nat.mod_eq_of_lt hlt, List.rtake, show w.entries.length - (w.entries.length - 1 + 1) = 0 by omega,
      List.drop_zero]
  · rw [Nat.div_eq_of_lt hlt, Nat.add_zero]

theorem count_eq (h : w.Latest base es) {n : Nat} (hn : es.length = n + 1) : w.count = n % w.capacity + 1 := by
  have hmod := Nat.mod_le n w.capacity
  have hlen := h.wellFormed.length_entries
  rw [h.entries_eq, hn, Nat.add_sub_cancel, List.rtake, List.length_drop, hn] at hlen
  omega

/-- The first entry of a sequence goes to the first slot. -/
private theorem push_first (h : w.Latest base []) (e : Entry) (rest : List Entry) :
    (w.push e).1 = placementAt w.capacity (e :: rest) 0 ∧ (w.push e).2.Latest base [e] := by
  have hw := h.wellFormed
  have hentries : w.entries = [] := h.entries_eq
  have hcount : w.count = 0 := by rw [← hw.length_entries, hentries, List.length_nil]
  have hroom : w.count < w.capacity := hcount ▸ hw.capacity_pos
  refine ⟨?_, hw.push e, ?_, ?_⟩
  · rw [(push_of_room hroom e).1, hcount, placementAt_zero]
  · rw [entries_push hw, if_pos hroom, hentries]
    exact (List.rtake_concat_succ [] 0 e).symm
  · rw [wraps_push_of_room hroom, capacity_push]
    exact h.wraps_eq

/-- One more entry goes where its number says, and the window shows the sequence with it. -/
theorem push (h : w.Latest base es) (e : Entry) (rest : List Entry) :
    (w.push e).1 = placementAt w.capacity (es ++ e :: rest) es.length ∧ (w.push e).2.Latest base (es ++ [e]) := by
  rcases hes : es.length with _ | n
  · obtain rfl := List.length_eq_zero_iff.1 hes
    exact h.push_first e rest
  have hw := h.wellFormed
  have hcount := h.count_eq hes
  have hentries := h.entries_eq
  have hwraps := h.wraps_eq
  rw [hes, Nat.add_sub_cancel] at hentries hwraps
  have hlen : (es ++ [e]).length - 1 = n + 1 := by
    rw [List.length_append, hes, List.length_singleton, Nat.add_sub_cancel]
  rcases next_in_round hw.capacity_pos n with ⟨hlt, hmod, hdiv⟩ | ⟨heq, hmod, hdiv⟩
  · have hroom : w.count < w.capacity := hcount ▸ hlt
    refine ⟨?_, hw.push e, ?_, ?_⟩
    · rw [(push_of_room hroom e).1, placementAt, if_neg fun hk => by omega, hmod, hcount]
    · rw [entries_push hw, if_pos hroom, hentries, hlen, capacity_push, hmod, List.rtake_concat_succ]
    · rw [wraps_push_of_room hroom, hwraps, hlen, capacity_push, hdiv]
  · -- the window is full, so its last entry is the last of the sequence
    have hfull : ¬ w.count < w.capacity := by omega
    have hle := Nat.mod_le n w.capacity
    have hlast : w.slot (w.capacity - 1) = es[n]? := by
      have hslot := hw.getElem?_entries (w.capacity - 1)
      rw [if_pos (by omega), hentries, heq, List.rtake, List.getElem?_drop, hes] at hslot
      rw [← hslot]
      congr 1
      omega
    refine ⟨?_, hw.push e, ?_, ?_⟩
    · rw [(push_of_full hfull e).1, placementAt, if_pos ⟨Nat.succ_pos n, hmod⟩, hlast, Nat.add_sub_cancel,
        List.getElem?_append_left (by omega)]
    · rw [entries_push hw, if_neg hfull, hlen, capacity_push, hmod, List.rtake_concat_succ, List.rtake_zero,
        List.nil_append]
    · rw [wraps_push_of_full hfull, hwraps, hlen, capacity_push, hdiv, Nat.add_assoc]

end Latest

/-! ### Runs -/

namespace Table

variable {t : Table B σ} {base : Nat} {es : List Entry}

/-- Entries that come one after the other go where their numbers say. -/
theorem pushes (bs : Backends B σ) (h : t.window.Latest base es) (new : List Entry) :
    (t.after bs (new.map .push)).window.Latest base (es ++ new) ∧
    (t.moves bs (new.map .push)).map (·.reply) =
      (List.range new.length).map fun i => .placed (placementAt t.window.capacity (es ++ new) (es.length + i)) := by
  induction new generalizing t es with
  | nil => exact ⟨by rwa [List.append_nil], rfl⟩
  | cons e new ih =>
    obtain ⟨hplaced, hnext⟩ := h.push e new
    obtain ⟨hlast, hreplies⟩ := ih (t := (t.apply bs (.push e)).2) hnext
    have hcap : (t.apply bs (.push e)).2.window.capacity = t.window.capacity := capacity_push ..
    rw [List.append_assoc, List.singleton_append] at hlast hreplies
    refine ⟨hlast, ?_⟩
    rw [List.map_cons, moves, List.map_cons, hreplies, hcap, List.length_cons, List.range_succ_eq_map, List.map_cons,
      List.map_map]
    refine congrArg₂ List.cons (congrArg Reply.placed hplaced) (List.map_congr_left fun i _ => ?_)
    simp only [Function.comp_apply, List.length_append, List.length_singleton, Nat.succ_eq_add_one, Nat.add_assoc,
      Nat.add_comm 1]

/-- However the sizes come, the bytes stop at the largest word just as if they had come at once. -/
theorem totalBytes_pushes (bs : Backends B σ) (h : t.window.totalBytes ≤ wordCount - 1) (new : List Entry) :
    (t.after bs (new.map .push)).window.totalBytes =
      min (t.window.totalBytes + total (new.map (·.size))) (wordCount - 1) := by
  induction new generalizing t with
  | nil => exact (Nat.min_eq_left h).symm
  | cons e new ih =>
    have hfirst : (t.apply bs (.push e)).2.window.totalBytes = min (t.window.totalBytes + e.size) (wordCount - 1) :=
      totalBytes_push t.window e
    have hrest := ih (t := (t.apply bs (.push e)).2) (hfirst ▸ Nat.min_le_right ..)
    rw [hfirst] at hrest
    simp only [total, List.map_cons, List.sum_cons] at hrest ⊢
    refine hrest.trans ?_
    omega

private theorem totalBytes_apply (bs : Backends B σ) (t : Table B σ) (c : Change) :
    (t.apply bs c).2.window.totalBytes = t.window.totalBytes ∨
      ∃ e, c = .push e ∧ (t.apply bs c).2.window.totalBytes = min (t.window.totalBytes + e.size) (wordCount - 1) := by
  have herase (h : Handle) : (t.window.erase h).2.totalBytes = t.window.totalBytes := by
    unfold Window.erase
    split <;> rfl
  cases c with
  | push e => exact .inr ⟨e, rfl, totalBytes_push t.window e⟩
  | erase h => exact .inl (herase h)
  | untrack h => exact .inl ((congrArg totalBytes (window_untrack ..)).trans (herase h))
  | replace old e =>
    refine .inl ?_
    change (t.window.replace old e).2.totalBytes = t.window.totalBytes
    unfold Window.replace
    split <;> rfl
  | drain => exact .inl rfl

theorem totalBytes_after_le (bs : Backends B σ) (h : t.window.totalBytes ≤ wordCount - 1) (cs : List Change) :
    (t.after bs cs).window.totalBytes ≤ wordCount - 1 := by
  induction cs generalizing t with
  | nil => exact h
  | cons c cs ih =>
    refine ih (t := (t.apply bs c).2) ?_
    rcases totalBytes_apply bs t c with hsame | ⟨e, -, hmin⟩
    · exact hsame ▸ h
    · exact hmin ▸ Nat.min_le_right ..

end Table

/-- Entries come one after the other to a window that any changes have led to.  Then the window holds the last of its
own entries and the new ones, in order: so many as the number of the last one tells.  It has started over as often as
the numbers came to a positive multiple of the capacity, each entry went where its number tells, and the bytes stop at
the largest word. -/
theorem window_of_pushes (bs : Backends B σ) (st : Settings) (r : Routing B) (s : σ) (changes : List Change)
    (new : List Entry) :
    let t := (Table.mk (create st.capacity) r s).after bs changes
    let all := t.window.entries ++ new
    let n := t.window.count + new.length
    0 < n →
      let w := (t.after bs (new.map .push)).window
      w.entries = all.rtake ((n - 1) % st.capacity + 1) ∧
      w.count = (n - 1) % st.capacity + 1 ∧
      w.wraps = t.window.wraps + (n - 1) / st.capacity ∧
      (t.moves bs (new.map .push)).map (·.reply) =
        (List.range new.length).map (fun i => .placed (placementAt st.capacity all (t.window.count + i))) ∧
      w.totalBytes = min (wordCount - 1) (t.window.totalBytes + total (new.map (·.size))) := by
  intro t all n hn w
  obtain ⟨hw, hcap⟩ := wellFormed_reached bs st r s changes
  have hw : t.window.WellFormed := hw
  have hcap : t.window.capacity = st.capacity := hcap
  obtain ⟨hlast, hreplies⟩ := Table.pushes bs (Latest.refl hw) new
  have hlastcap : w.capacity = st.capacity := (Table.capacity_after bs t (new.map .push)).trans hcap
  have hlen : all.length = n := by rw [List.length_append, hw.length_entries]
  refine ⟨?_, ?_, ?_, ?_, ?_⟩
  · rw [← hlen, ← hlastcap]
    exact hlast.entries_eq
  · rw [← hlastcap]
    exact hlast.count_eq (hlen.trans (Nat.succ_pred_eq_of_pos hn).symm)
  · rw [← hlen, ← hlastcap]
    exact hlast.wraps_eq
  · rw [hreplies, hcap, hw.length_entries]
  · rw [Nat.min_comm]
    exact Table.totalBytes_pushes bs (Table.totalBytes_after_le bs (Nat.zero_le _) changes) new

/-- One entry is in a window of three slots that has started over before, and seven more come. -/
theorem window_of_seven_pushes :
    let entry (n : Nat) : Entry := ⟨⟨n + 1, Nat.succ_ne_zero n⟩, 10 * n⟩
    let st : Settings := ⟨3, .platform, by decide⟩
    let bs : Backends Kind Unit := ⟨Kind.name, id, fun _ _ s => (none, s)⟩
    let changes : List Change :=
      [.push (entry 1), .push (entry 2), .push (entry 3), .push (entry 4), .push (entry 5), .untrack (entry 4).handle]
    let new := [entry 6, entry 7, entry 8, entry 9, entry 10, entry 11, entry 12]
    let t := (Table.mk (create st.capacity) (.uniform .platform) ()).after bs changes
    let w := (t.after bs (new.map .push)).window
    0 < t.window.count + new.length ∧ w.entries = [entry 11, entry 12] ∧ w.wraps = 3 ∧ w.totalBytes = 780 ∧
      (t.moves bs (new.map .push)).map (·.reply) =
        [.placed (.appended 1), .placed (.appended 2), .placed (.wrapped (some (entry 7))), .placed (.appended 1),
         .placed (.appended 2), .placed (.wrapped (some (entry 10))), .placed (.appended 1)] := by
  intro entry st bs changes new t w
  subst w t
  have hn :
      0 < ((Table.mk (create st.capacity) (.uniform .platform) ()).after bs changes).window.count + new.length := by
    decide +kernel
  obtain ⟨hentries, -, hwraps, hreplies, htotal⟩ := window_of_pushes bs st (.uniform .platform) () changes new hn
  refine ⟨hn, ?_, ?_, ?_, ?_⟩
  · rw [hentries]
    decide +kernel
  · rw [hwraps]
    decide +kernel
  · rw [htotal]
    decide +kernel
  · rw [hreplies]
    decide +kernel

end Window

end BlockTracker
