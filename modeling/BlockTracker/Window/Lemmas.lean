import BlockTracker.Window.Basic

/-!
# The window as a list

A window is well formed when its count stays within its slots and every slot of the window is taken.  The operations
keep a window well formed, and on its list of entries they append, remove by moving the last entry into the gap,
put one entry in the place of another, and start over (`entries_push`, `entries_erase_of_some`,
`entries_replace_of_some`, `entries_clear`).
-/

namespace BlockTracker

namespace Window

/-- Every slot of the window is taken, and there is at least one slot. -/
structure WellFormed (w : Window) : Prop where
  capacity_pos : 0 < w.capacity
  count_le : w.count ≤ w.capacity
  taken : ∀ i < w.count, (w.slot i).isSome

/-! ### Slots -/

@[simp] theorem capacity_create (c : Nat) : (create c).capacity = c := by simp [create, capacity]

@[simp] theorem slot_create (c i : Nat) : (create c).slot i = none := by
  simp only [create, slot, Array.getElem?_replicate]
  split <;> rfl

private theorem slot_setIfInBounds (slots : Array (Option Entry)) (i j : Nat) (e : Option Entry) :
    (slots.setIfInBounds i e)[j]?.join = if i = j ∧ j < slots.size then e else slots[j]?.join := by
  rw [Array.getElem?_setIfInBounds]
  by_cases h : i = j
  · subst h
    by_cases hi : i < slots.size <;> simp [hi]
  · simp [h]

private theorem join_swapIfInBounds (slots : Array (Option Entry)) {i j : Nat} (hi : i < slots.size)
    (hj : j < slots.size) (k : Nat) :
    (slots.swapIfInBounds i j)[k]?.join =
      if k = j then slots[i]?.join else if k = i then slots[j]?.join else slots[k]?.join := by
  rw [Array.swapIfInBounds_def]
  simp only [hi, hj, ↓reduceDIte]
  rw [Array.getElem?_swap]
  by_cases h₁ : k = j
  · subst h₁
    simp [hi]
  · by_cases h₂ : k = i
    · subst h₂
      simp [hj, h₁, Ne.symm h₁]
    · simp [h₁, h₂, Ne.symm h₁, Ne.symm h₂]

@[simp] theorem capacity_push (w : Window) (e : Entry) : (w.push e).2.capacity = w.capacity := by
  unfold push
  split <;> simp [capacity]

theorem slot_push_of_lt {w : Window} (h : w.count < w.capacity) (e : Entry) (i : Nat) :
    (w.push e).2.slot i = if i = w.count then some e else w.slot i := by
  unfold capacity at h
  simp only [push, capacity, h, ↓reduceIte, slot, slot_setIfInBounds]
  by_cases hi : i = w.count
  · subst hi
    simp [h]
  · simp [hi, Ne.symm hi]

theorem slot_push_of_full {w : Window} (hc : 0 < w.capacity) (h : ¬ w.count < w.capacity) (e : Entry) (i : Nat) :
    (w.push e).2.slot i =
      if i = 0 then some e else if i = w.capacity - 1 then w.slot 0 else w.slot i := by
  unfold capacity at h hc
  have hl : w.slots.size - 1 < w.slots.size := by omega
  simp only [push, capacity, h, ↓reduceIte, slot]
  rw [join_swapIfInBounds _ (by simpa using hc) (by simpa using hl)]
  simp only [slot_setIfInBounds]
  by_cases h₀ : i = 0
  · subst h₀
    by_cases h₁ : 0 = w.slots.size - 1
    · have : w.slots.size = 1 := by omega
      simp [this]
    · simp [h₁, hl]
  · by_cases h₁ : i = w.slots.size - 1
    · subst h₁
      simp [h₀]
    · simp [h₀, h₁, Ne.symm h₁]

theorem slot_replace_of_some {w : Window} {old : Handle} {i : Nat} (h : w.idxOf? old = some i)
    (hi : i < w.capacity) (e : Entry) (j : Nat) :
    (w.replace old e).2.slot j = if j = i then some e else w.slot j := by
  unfold capacity at hi
  simp only [replace, h, slot, slot_setIfInBounds]
  by_cases hj : j = i
  · subst hj
    simp [hi]
  · simp [hj, Ne.symm hj]

theorem slot_erase_of_some {w : Window} {h : Handle} {i : Nat} (hi : w.idxOf? h = some i) (hc : i < w.capacity)
    (hl : w.count - 1 < w.capacity) (j : Nat) :
    (w.erase h).2.slot j =
      if j = w.count - 1 then none else if j = i then w.slot (w.count - 1) else w.slot j := by
  unfold capacity at hc hl
  simp only [erase, hi, slot, slot_setIfInBounds, Array.size_swapIfInBounds]
  rw [join_swapIfInBounds _ hc hl]
  by_cases hj : j = w.count - 1
  · subst hj
    simp [hl]
  · simp [hj, Ne.symm hj]

private theorem size_clearFirst (slots : Array (Option Entry)) (n : Nat) :
    (clearFirst slots n).size = slots.size := by
  induction n generalizing slots with
  | zero => rfl
  | succ n ih => rw [clearFirst, ih, Array.size_setIfInBounds]

private theorem join_clearFirst (slots : Array (Option Entry)) (n i : Nat) :
    (clearFirst slots n)[i]?.join = if i < n then none else slots[i]?.join := by
  induction n generalizing slots with
  | zero => simp [clearFirst]
  | succ n ih =>
    rw [clearFirst, ih, slot_setIfInBounds]
    by_cases h : i = n
    · subst h
      by_cases hi : i < slots.size <;> simp [hi]
    · by_cases hi : i < n
      · simp [hi, show i < n + 1 by omega]
      · simp [hi, show ¬ i < n + 1 by omega, Ne.symm h]

theorem slot_clear (w : Window) (i : Nat) : w.clear.slot i = if i < w.count then none else w.slot i :=
  join_clearFirst w.slots w.count i

/-! ### Entries -/

private theorem filterMap_id_cons (e : Entry) (l : List (Option Entry)) :
    (some e :: l).filterMap id = e :: l.filterMap id := rfl

private theorem getElem?_filterMap_id {l : List (Option Entry)} (h : ∀ x ∈ l, x.isSome) (i : Nat) :
    (l.filterMap id)[i]? = l[i]?.join := by
  induction l generalizing i with
  | nil => simp
  | cons x l ih =>
    obtain ⟨e, rfl⟩ := Option.isSome_iff_exists.1 (h x (List.mem_cons_self ..))
    rw [filterMap_id_cons]
    cases i with
    | zero => simp
    | succ i => simpa using ih (fun y hy => h y (List.mem_cons_of_mem _ hy)) i

private theorem getElem?_occupied (w : Window) (i : Nat) :
    w.occupied.toList[i]?.join = if i < w.count then w.slot i else none := by
  simp only [occupied, slot, Array.take_eq_extract, Array.toList_extract, List.extract_eq_take_drop,
    List.drop_zero, Nat.sub_zero, List.getElem?_take, Array.getElem?_toList]
  split <;> rfl

namespace WellFormed

variable {w : Window}

private theorem isSome_of_mem_occupied (hw : w.WellFormed) {x : Option Entry} (hx : x ∈ w.occupied.toList) :
    x.isSome := by
  obtain ⟨i, hi⟩ := List.mem_iff_getElem?.1 hx
  have hlt : i < w.count := by
    have := (List.getElem?_eq_some_iff.1 hi).1
    simp [occupied] at this
    omega
  have h := w.getElem?_occupied i
  rw [hi, Option.join_some, if_pos hlt] at h
  exact h ▸ hw.taken i hlt

theorem getElem?_entries (hw : w.WellFormed) (i : Nat) :
    w.entries[i]? = if i < w.count then w.slot i else none := by
  rw [entries, getElem?_filterMap_id fun _ => hw.isSome_of_mem_occupied, getElem?_occupied]

theorem length_entries (hw : w.WellFormed) : w.entries.length = w.count := by
  have hle : w.entries.length ≤ w.count := by
    rw [← List.getElem?_eq_none_iff, hw.getElem?_entries, if_neg (Nat.lt_irrefl _)]
  refine Nat.le_antisymm hle (Nat.le_of_not_lt fun hlt => ?_)
  have h := hw.taken _ hlt
  have h' := hw.getElem?_entries w.entries.length
  rw [if_pos hlt, List.getElem?_eq_none (Nat.le_refl _)] at h'
  rw [← h'] at h
  cases h

/-- A list that agrees with the slots of the window holds its entries. -/
theorem entries_eq (hw : w.WellFormed) {l : List Entry} (h : ∀ i, l[i]? = if i < w.count then w.slot i else none) :
    w.entries = l :=
  List.ext_getElem? fun i => by rw [hw.getElem?_entries, h]

theorem idxOf?_eq (hw : w.WellFormed) (h : Handle) :
    w.idxOf? h = w.entries.findIdx? fun e => e.handle = h := by
  have aux : ∀ l : List (Option Entry), (∀ x ∈ l, x.isSome) →
      l.findIdx? (holds h) = (l.filterMap id).findIdx? fun e => e.handle = h := by
    intro l hl
    induction l with
    | nil => rfl
    | cons x l ih =>
      obtain ⟨e, rfl⟩ := Option.isSome_iff_exists.1 (hl x (List.mem_cons_self ..))
      rw [filterMap_id_cons, List.findIdx?_cons, List.findIdx?_cons,
        ih fun y hy => hl y (List.mem_cons_of_mem _ hy)]
      rfl
  rw [idxOf?_eq_findIdx?]
  exact aux _ fun _ => hw.isSome_of_mem_occupied

theorem lt_of_idxOf? (hw : w.WellFormed) {h : Handle} {i : Nat} (hi : w.idxOf? h = some i) : i < w.count := by
  rw [hw.idxOf?_eq] at hi
  rw [← hw.length_entries]
  exact (List.findIdx?_eq_some_iff_getElem.1 hi).1

end WellFormed

/-! ### What the operations do -/

theorem WellFormed.create {c : Nat} (h : 0 < c) : (Window.create c).WellFormed :=
  ⟨by simpa using h, Nat.zero_le _, fun i hi => absurd hi (Nat.not_lt_zero i)⟩

@[simp] theorem entries_create (c : Nat) : (create c).entries = [] := by
  simp [entries, occupied, create]

section Operations

variable {w : Window}

theorem WellFormed.push (hw : w.WellFormed) (e : Entry) : (w.push e).2.WellFormed := by
  refine ⟨by simpa using hw.capacity_pos, ?_, fun i hi => ?_⟩
  · rw [capacity_push]
    unfold Window.push
    split
    · assumption
    · exact hw.capacity_pos
  · by_cases h : w.count < w.capacity
    · rw [slot_push_of_lt h]
      split
      · rfl
      · refine hw.taken i ?_
        simp only [Window.push, h, ↓reduceIte] at hi
        omega
    · rw [slot_push_of_full hw.capacity_pos h]
      simp only [Window.push, h, ↓reduceIte] at hi
      simp [show i = 0 by omega]

/-- A new entry goes behind the others, or starts the window over. -/
theorem entries_push (hw : w.WellFormed) (e : Entry) :
    (w.push e).2.entries = if w.count < w.capacity then w.entries ++ [e] else [e] := by
  refine (hw.push e).entries_eq fun i => ?_
  by_cases h : w.count < w.capacity
  · rw [if_pos h, slot_push_of_lt h, List.getElem?_append, hw.length_entries, hw.getElem?_entries]
    simp only [Window.push, h, ↓reduceIte]
    by_cases h₁ : i < w.count
    · simp [h₁, show i < w.count + 1 by omega, show i ≠ w.count by omega]
    · by_cases h₂ : i = w.count
      · simp [h₂]
      · simp [h₁, show ¬ i < w.count + 1 by omega, show ¬ i - w.count = 0 by omega]
  · rw [if_neg h, slot_push_of_full hw.capacity_pos h]
    simp only [Window.push, h, ↓reduceIte]
    cases i <;> simp

/-- A list without the entry at an index, where the last entry takes its place. -/
def swapErase (i : Nat) (l : List Entry) : List Entry :=
  match l.getLast? with
  | none => []
  | some last => (l.set i last).dropLast

theorem erase_of_none {h : Handle} (hi : w.idxOf? h = none) : w.erase h = (none, w) := by
  simp [erase, hi]

theorem count_erase_of_some {h : Handle} {i : Nat} (hi : w.idxOf? h = some i) :
    (w.erase h).2.count = w.count - 1 := by
  simp [erase, hi]

theorem capacity_erase (w : Window) (h : Handle) : (w.erase h).2.capacity = w.capacity := by
  unfold erase
  split <;> simp [capacity]

theorem WellFormed.erase (hw : w.WellFormed) (h : Handle) : (w.erase h).2.WellFormed := by
  rcases hi : w.idxOf? h with _ | i
  · rwa [erase_of_none hi]
  · have hlt := hw.lt_of_idxOf? hi
    have hle := hw.count_le
    refine ⟨by rw [capacity_erase]; exact hw.capacity_pos, ?_, fun j hj => ?_⟩
    · rw [count_erase_of_some hi, capacity_erase]
      omega
    · rw [count_erase_of_some hi] at hj
      rw [slot_erase_of_some hi (by omega) (by omega), if_neg (by omega)]
      split
      · exact hw.taken _ (by omega)
      · exact hw.taken _ (by omega)

/-- The erased entry is the one at the index of the handle. -/
theorem fst_erase_of_some (hw : w.WellFormed) {h : Handle} {i : Nat} (hi : w.idxOf? h = some i) :
    (w.erase h).1 = w.entries[i]? := by
  have hlt := hw.lt_of_idxOf? hi
  have hle := hw.count_le
  rw [hw.getElem?_entries, if_pos hlt]
  unfold capacity at hle
  simp only [erase, hi]
  rw [join_swapIfInBounds _ (by omega) (by omega), if_pos rfl]
  rfl

/-- An erased entry leaves its place to the last one. -/
theorem entries_erase_of_some (hw : w.WellFormed) {h : Handle} {i : Nat} (hi : w.idxOf? h = some i) :
    (w.erase h).2.entries = swapErase i w.entries := by
  have hlt := hw.lt_of_idxOf? hi
  have hle := hw.count_le
  have hlast : w.entries.getLast? = w.slot (w.count - 1) := by
    rw [List.getLast?_eq_getElem?, hw.length_entries, hw.getElem?_entries, if_pos (by omega)]
  obtain ⟨last, hs⟩ := Option.isSome_iff_exists.1 (hw.taken (w.count - 1) (by omega))
  refine (hw.erase h).entries_eq fun j => ?_
  rw [count_erase_of_some hi, slot_erase_of_some hi (by omega) (by omega)]
  simp only [swapErase, hlast, hs, List.getElem?_dropLast, List.length_set, hw.length_entries, List.getElem?_set,
    hw.getElem?_entries]
  by_cases hj : j < w.count - 1
  · simp only [hj, ↓reduceIte, show j ≠ w.count - 1 by omega, show j < w.count by omega]
    by_cases hij : i = j
    · simp [hij, show j < w.count by omega]
    · simp [hij, Ne.symm hij]
  · simp [hj]

theorem capacity_replace (w : Window) (old : Handle) (e : Entry) : (w.replace old e).2.capacity = w.capacity := by
  unfold replace
  split <;> simp [capacity]

theorem count_replace (w : Window) (old : Handle) (e : Entry) : (w.replace old e).2.count = w.count := by
  unfold replace
  split <;> rfl

theorem replace_of_none {old : Handle} (hi : w.idxOf? old = none) (e : Entry) :
    w.replace old e = (false, w) := by
  simp [replace, hi]

theorem WellFormed.replace (hw : w.WellFormed) (old : Handle) (e : Entry) : (w.replace old e).2.WellFormed := by
  rcases hi : w.idxOf? old with _ | i
  · rwa [replace_of_none hi]
  · have hlt := hw.lt_of_idxOf? hi
    have hle := hw.count_le
    refine ⟨by rw [capacity_replace]; exact hw.capacity_pos, by rwa [count_replace, capacity_replace], fun j hj => ?_⟩
    rw [count_replace] at hj
    rw [slot_replace_of_some hi (by omega)]
    split
    · rfl
    · exact hw.taken j hj

/-- A replaced entry keeps its place. -/
theorem entries_replace_of_some (hw : w.WellFormed) {old : Handle} {i : Nat} (hi : w.idxOf? old = some i)
    (e : Entry) : (w.replace old e).2.entries = w.entries.set i e := by
  have hlt := hw.lt_of_idxOf? hi
  have hle := hw.count_le
  refine (hw.replace old e).entries_eq fun j => ?_
  rw [count_replace, slot_replace_of_some hi (by omega), List.getElem?_set, hw.length_entries, hw.getElem?_entries]
  by_cases hij : i = j
  · simp [← hij, hlt]
  · simp [hij, Ne.symm hij]

@[simp] theorem capacity_clear (w : Window) : w.clear.capacity = w.capacity := size_clearFirst w.slots w.count

@[simp] theorem count_clear (w : Window) : w.clear.count = 0 := rfl

theorem WellFormed.clear (hw : w.WellFormed) : w.clear.WellFormed :=
  ⟨by rw [capacity_clear]; exact hw.capacity_pos, Nat.zero_le _,
    fun i hi => absurd hi (Nat.not_lt_zero i)⟩

@[simp] theorem entries_clear (w : Window) : w.clear.entries = [] := by
  simp [entries, occupied, clear]

end Operations

end Window

end BlockTracker
