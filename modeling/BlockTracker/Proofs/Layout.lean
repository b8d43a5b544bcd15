import BlockTracker.Draining
import BlockTracker.Settings
import BlockTracker.Window.Lemmas

/-!
# The layout of the slots

What stands in the slots outside the window hangs on what the window does not show of its past (`Window.Past`): its
largest length since it last started over, and the entries that it had just before.  Slots behind the window are empty
up to that largest length, and from there on they hold what the last start left in them (`Window.Layout`).  A change
of the window keeps this (`Layout.apply`), so it holds behind every run of changes (`slots_of_run`), and what is left
in a slot is overwritten before the window grows over it.
-/

namespace BlockTracker

namespace Window

variable {B σ : Type}

/-! ### Changes -/

inductive Change
  | push (e : Entry)
  | erase (block : Handle)
  | untrack (block : Handle)
  | replace (old : Handle) (e : Entry)
  | drain
deriving DecidableEq

/-- The entries that a change hands to the window. -/
def Change.given : Change → List Entry
  | .push e | .replace _ e => [e]
  | .erase _ | .untrack _ | .drain => []

/-- What a change answers. -/
inductive Reply
  | placed (p : Placement)
  | erased (e : Option Entry)
  | released (o : ReleaseOutcome)
  | replaced (known : Bool)
  | drained (n : Nat)
deriving DecidableEq

/-- A window with the routing and the backends that its blocks go back to. -/
structure Table (B σ : Type) where
  window : Window
  routing : Routing B
  state : σ

/-- A change that was made: the window before it, its reply and the window behind it. -/
structure Move where
  before : Window
  change : Change
  reply : Reply
  after : Window

/-- Whether the window started over. -/
def Move.wrapped (x : Move) : Bool :=
  match x.reply with
  | .placed (.wrapped _) => true
  | _ => false

namespace Table

def apply (bs : Backends B σ) (t : Table B σ) (c : Change) : Reply × Table B σ :=
  match c with
  | .push e =>
    let (p, window) := t.window.push e
    (.placed p, { t with window })
  | .erase h =>
    let (e, window) := t.window.erase h
    (.erased e, { t with window })
  | .untrack h =>
    let (o, window, routing, state) := t.window.untrack bs h t.routing t.state
    (.released o, ⟨window, routing, state⟩)
  | .replace old e =>
    let (known, window) := t.window.replace old e
    (.replaced known, { t with window })
  | .drain =>
    let (n, window, routing, state) := t.window.drain bs t.routing t.state
    (.drained n, ⟨window, routing, state⟩)

def move (bs : Backends B σ) (t : Table B σ) (c : Change) : Move :=
  ⟨t.window, c, (t.apply bs c).1, (t.apply bs c).2.window⟩

/-- The moves of a run of changes. -/
def moves (bs : Backends B σ) (t : Table B σ) : List Change → List Move
  | [] => []
  | c :: cs => t.move bs c :: (t.apply bs c).2.moves bs cs

/-- The table behind a run of changes. -/
def after (bs : Backends B σ) (t : Table B σ) (cs : List Change) : Table B σ :=
  cs.foldl (fun t c => (t.apply bs c).2) t

end Table

/-- What a window does not show of its past: its largest length since it last started over, the entries that it had
just before, if it ever did, and the entries that it was given since. -/
structure Past where
  crest : Nat
  left : Option (List Entry)
  given : List Entry

namespace Past

/-- The past of a new window. -/
def fresh : Past := ⟨0, none, []⟩

def next (p : Past) (x : Move) : Past :=
  if x.wrapped then ⟨1, some x.before.entries, x.change.given⟩
  else ⟨max p.crest x.after.count, p.left, p.given ++ x.change.given⟩

/-- What the last start left in a slot: of the entries of that time each in its slot, but the first one in the last
slot. -/
def leftAt (p : Past) (capacity i : Nat) : Option Entry :=
  p.left.bind fun es => if i = capacity - 1 then es[0]? else es[i]?

end Past

/-- The past behind the moves of a new window. -/
def past (xs : List Move) : Past := xs.foldl Past.next .fresh

/-- What stands in the slots of a window with a given past. -/
structure Layout (w : Window) (p : Past) : Prop where
  count_le : w.count ≤ p.crest
  crest_le : p.crest ≤ w.capacity
  taken : ∀ i < w.count, (w.slot i).isSome
  empty : ∀ i, w.count ≤ i → i < p.crest → w.slot i = none
  stale : ∀ i, p.crest ≤ i → i < w.capacity → w.slot i = p.leftAt w.capacity i
  /-- A start leaves a full window behind. -/
  full : ∀ es, p.left = some es → es.length = w.capacity
  /-- An entry of the window was given to it since it last started over. -/
  given : ∀ e ∈ w.entries, e ∈ p.given

/-! ### What the changes do to the slots -/

variable {w : Window} {p : Past}

theorem push_of_room (h : w.count < w.capacity) (e : Entry) :
    (w.push e).1 = .appended w.count ∧ (w.push e).2.count = w.count + 1 := by
  simp only [push, h, ↓reduceIte, and_self]

theorem push_of_full (h : ¬ w.count < w.capacity) (e : Entry) :
    (w.push e).1 = .wrapped (w.slot (w.capacity - 1)) ∧ (w.push e).2.count = 1 := by
  simp only [push, h, ↓reduceIte, and_self]

theorem window_untrack (bs : Backends B σ) (w : Window) (h : Handle) (r : Routing B) (s : σ) :
    (w.untrack bs h r s).2.1 = (w.erase h).2 := by
  unfold untrack
  split
  · next w' he => rw [he]
  · next e w' he => rw [he]

private theorem count_erase_le (w : Window) (h : Handle) : (w.erase h).2.count ≤ w.count := by
  rcases hi : w.idxOf? h with _ | i
  · exact Nat.le_of_eq (congrArg (fun r => r.2.count) (erase_of_none hi))
  · rw [count_erase_of_some hi]
    exact Nat.sub_le ..

private theorem mem_of_mem_swapErase {i : Nat} {es : List Entry} {e : Entry} (h : e ∈ swapErase i es) : e ∈ es := by
  unfold swapErase at h
  split at h
  · exact absurd h List.not_mem_nil
  · next last hl =>
    rcases List.mem_or_eq_of_mem_set (List.dropLast_subset _ h) with h | rfl
    · exact h
    · exact List.mem_of_getLast? hl

namespace Layout

theorem wellFormed (hl : w.Layout p) (hc : 0 < w.capacity) : w.WellFormed :=
  ⟨hc, Nat.le_trans hl.count_le hl.crest_le, hl.taken⟩

/-- The entry goes into the first slot behind the window, whatever was left there. -/
private theorem push_room (hl : w.Layout p) (hc : 0 < w.capacity) (h : w.count < w.capacity) (e : Entry) :
    (w.push e).2.Layout ⟨max p.crest (w.count + 1), p.left, p.given ++ [e]⟩ := by
  have hw := hl.wellFormed hc
  have hcount := (push_of_room h e).2
  have hle := hl.count_le
  have hcrest := hl.crest_le
  constructor
  case count_le =>
    rw [hcount]
    exact Nat.le_max_right ..
  case crest_le =>
    rw [capacity_push]
    exact Nat.max_le.2 ⟨hcrest, h⟩
  case taken => exact (hw.push e).taken
  case empty =>
    intro i hi hlt
    rw [hcount] at hi
    have hold : i < p.crest := by
      simp only at hlt
      omega
    rw [slot_push_of_lt h, if_neg (by omega)]
    exact hl.empty i (by omega) hold
  case stale =>
    intro i hi hlt
    rw [capacity_push] at hlt ⊢
    have hold : p.crest ≤ i ∧ i ≠ w.count := by
      simp only at hi
      omega
    rw [slot_push_of_lt h, if_neg hold.2]
    exact hl.stale i hold.1 hlt
  case full =>
    intro es hes
    rw [capacity_push]
    exact hl.full es hes
  case given =>
    intro x hx
    rw [entries_push hw, if_pos h] at hx
    rcases List.mem_append.1 hx with hx | hx
    · exact List.mem_append_left _ (hl.given x hx)
    · exact List.mem_append_right _ hx

/-- A start puts the entry into the first slot and moves the first entry to the last slot; the entry of the last slot
is gone, and the others stay. -/
private theorem push_full (hl : w.Layout p) (hc : 0 < w.capacity) (h : ¬ w.count < w.capacity) (e : Entry) :
    (w.push e).2.Layout ⟨1, some w.entries, [e]⟩ := by
  have hw := hl.wellFormed hc
  have hcount := (push_of_full h e).2
  have hfull : w.count = w.capacity := by
    have := hw.count_le
    omega
  constructor
  case count_le => exact Nat.le_of_eq hcount
  case crest_le =>
    rw [capacity_push]
    exact hc
  case taken => exact (hw.push e).taken
  case empty =>
    intro i hi hlt
    rw [hcount] at hi
    exact absurd hlt (Nat.not_lt.2 hi)
  case stale =>
    intro i hi hlt
    rw [capacity_push] at hlt ⊢
    have hpos : i ≠ 0 := Nat.ne_of_gt hi
    rw [slot_push_of_full hc h, if_neg hpos]
    simp only [Past.leftAt, Option.bind_some, hw.getElem?_entries]
    rw [if_pos (by omega : 0 < w.count), if_pos (by omega : i < w.count)]
  case full =>
    rintro es ⟨⟩
    rw [capacity_push, hw.length_entries, hfull]
  case given =>
    intro x hx
    rw [entries_push hw, if_neg h] at hx
    exact hx

/-- A window that does not grow clears the slots that it leaves, and no slot behind it changes. -/
private theorem shrink {w' : Window} {given : List Entry} (hl : w.Layout p) (hcap : w'.capacity = w.capacity)
    (hcount : w'.count ≤ w.count) (htaken : ∀ i < w'.count, (w'.slot i).isSome)
    (hslot : ∀ i, w'.count ≤ i → i < w.capacity → w'.slot i = if i < w.count then none else w.slot i)
    (hgiven : ∀ e ∈ w'.entries, e ∈ given) : w'.Layout { p with given } := by
  have hle := hl.count_le
  have hcrest := hl.crest_le
  constructor
  case count_le => exact Nat.le_trans hcount hle
  case crest_le =>
    rw [hcap]
    exact hcrest
  case taken => exact htaken
  case empty =>
    intro i hi hlt
    rw [hslot i hi (Nat.lt_of_lt_of_le hlt hcrest)]
    split
    · rfl
    · next hout => exact hl.empty i (Nat.not_lt.1 hout) hlt
  case stale =>
    intro i hi hlt
    have hout : w.count ≤ i := Nat.le_trans hle hi
    rw [hcap] at hlt ⊢
    rw [hslot i (Nat.le_trans hcount hout) hlt, if_neg (Nat.not_lt.2 hout)]
    exact hl.stale i hi hlt
  case full =>
    intro es hes
    rw [hcap]
    exact hl.full es hes
  case given => exact hgiven

/-- The slot that the last entry leaves is empty from then on. -/
private theorem erase (hl : w.Layout p) (hc : 0 < w.capacity) (h : Handle) : (w.erase h).2.Layout p := by
  have hw := hl.wellFormed hc
  rcases hi : w.idxOf? h with _ | i
  · rwa [erase_of_none hi]
  have hlt := hw.lt_of_idxOf? hi
  have hle := hw.count_le
  have hcount := count_erase_of_some hi
  have hslot := slot_erase_of_some hi (by omega) (by omega)
  refine hl.shrink (capacity_erase ..) (by omega) (hw.erase h).taken ?_ ?_
  · intro j hj _
    rw [hcount] at hj
    rw [hslot]
    by_cases hlast : j = w.count - 1
    · rw [if_pos hlast, if_pos (by omega)]
    · rw [if_neg hlast, if_neg (by omega), if_neg (by omega)]
  · intro x hx
    rw [entries_erase_of_some hw hi] at hx
    exact hl.given x (mem_of_mem_swapErase hx)

private theorem replace (hl : w.Layout p) (hc : 0 < w.capacity) (old : Handle) (e : Entry) :
    (w.replace old e).2.Layout { p with given := p.given ++ [e] } := by
  have hw := hl.wellFormed hc
  rcases hi : w.idxOf? old with _ | i
  · rw [replace_of_none hi]
    exact { hl with given := fun x hx => List.mem_append_left _ (hl.given x hx) }
  have hlt := hw.lt_of_idxOf? hi
  have hle := hw.count_le
  refine hl.shrink (capacity_replace ..) (Nat.le_of_eq (count_replace ..)) (hw.replace old e).taken ?_ ?_
  · intro j hj _
    rw [count_replace] at hj
    rw [slot_replace_of_some hi (by omega), if_neg (by omega), if_neg (Nat.not_lt.2 hj)]
  · intro x hx
    rw [entries_replace_of_some hw hi] at hx
    rcases List.mem_or_eq_of_mem_set hx with hx | rfl
    · exact List.mem_append_left _ (hl.given x hx)
    · exact List.mem_append_right _ (List.mem_singleton.2 rfl)

private theorem clear (hl : w.Layout p) : w.clear.Layout p := by
  refine hl.shrink (capacity_clear ..) (Nat.zero_le _) (fun i hi => absurd hi (Nat.not_lt_zero i)) ?_ ?_
  · exact fun i _ _ => slot_clear ..
  · intro x hx
    rw [entries_clear] at hx
    exact absurd hx List.not_mem_nil

/-- A window that does not grow keeps its largest length. -/
private theorem next_of_le (hl : w.Layout p) {x : Move} (hw : x.wrapped = false) (hle : x.after.count ≤ w.count) :
    p.next x = { p with given := p.given ++ x.change.given } := by
  have hmax : max p.crest x.after.count = p.crest := Nat.max_eq_left (Nat.le_trans hle hl.count_le)
  simp only [Past.next, hw, Bool.false_eq_true, ↓reduceIte, hmax]

/-- A change keeps the layout, with the past that it leaves behind. -/
theorem apply (bs : Backends B σ) {t : Table B σ} (hl : t.window.Layout p) (hc : 0 < t.window.capacity) (c : Change) :
    (t.apply bs c).2.window.Layout (p.next (t.move bs c)) := by
  cases c with
  | push e =>
    by_cases h : t.window.count < t.window.capacity
    · obtain ⟨hreply, hcount⟩ := push_of_room h e
      have hnext : p.next (t.move bs (.push e)) =
          ⟨max p.crest (t.window.count + 1), p.left, p.given ++ [e]⟩ := by
        simp only [Past.next, Move.wrapped, Table.move, Table.apply, hreply, hcount, Change.given,
          Bool.false_eq_true, ↓reduceIte]
      rw [hnext]
      exact hl.push_room hc h e
    · have hreply := (push_of_full h e).1
      have hnext : p.next (t.move bs (.push e)) = ⟨1, some t.window.entries, [e]⟩ := by
        simp only [Past.next, Move.wrapped, Table.move, Table.apply, hreply, Change.given, ↓reduceIte]
      rw [hnext]
      exact hl.push_full hc h e
  | erase h =>
    rw [hl.next_of_le (x := t.move bs (.erase h)) rfl (count_erase_le ..)]
    simp only [Table.move, Change.given, List.append_nil]
    exact hl.erase hc h
  | untrack h =>
    have hwindow : (t.apply bs (.untrack h)).2.window = (t.window.erase h).2 := window_untrack ..
    have hle : (t.apply bs (.untrack h)).2.window.count ≤ t.window.count := by
      rw [hwindow]
      exact count_erase_le ..
    rw [hl.next_of_le (x := t.move bs (.untrack h)) rfl hle, hwindow]
    simp only [Table.move, Change.given, List.append_nil]
    exact hl.erase hc h
  | replace old e =>
    rw [hl.next_of_le (x := t.move bs (.replace old e)) rfl (Nat.le_of_eq (count_replace ..))]
    exact hl.replace hc old e
  | drain =>
    rw [hl.next_of_le (x := t.move bs .drain) rfl (Nat.zero_le _)]
    simp only [Table.move, Change.given, List.append_nil]
    exact hl.clear

end Layout

/-! ### Moves -/

namespace Table

variable {bs : Backends B σ} {t : Table B σ}

theorem capacity_apply (bs : Backends B σ) (t : Table B σ) (c : Change) :
    (t.apply bs c).2.window.capacity = t.window.capacity := by
  cases c with
  | push e => exact capacity_push ..
  | erase h => exact capacity_erase ..
  | untrack h =>
    have hwindow : (t.apply bs (.untrack h)).2.window = (t.window.erase h).2 := window_untrack ..
    rw [hwindow]
    exact capacity_erase ..
  | replace old e => exact capacity_replace ..
  | drain => exact capacity_clear ..

/-- Only a push lets the window grow. -/
theorem count_apply_le (bs : Backends B σ) (t : Table B σ) {c : Change} (hc : ∀ e, c ≠ .push e) :
    (t.apply bs c).2.window.count ≤ t.window.count := by
  cases c with
  | push e => exact absurd rfl (hc e)
  | erase h => exact count_erase_le ..
  | untrack h =>
    have hwindow : (t.apply bs (.untrack h)).2.window = (t.window.erase h).2 := window_untrack ..
    rw [hwindow]
    exact count_erase_le ..
  | replace old e => exact Nat.le_of_eq (count_replace ..)
  | drain => exact Nat.zero_le _

end Table

/-- A window starts over when it is full, and tells which entry it overwrites: that of the last slot. -/
def Move.Evicts (x : Move) : Prop :=
  ∀ evicted, x.reply = .placed (.wrapped evicted) →
    x.before.count = x.before.capacity ∧ evicted = x.before.entries[x.before.capacity - 1]? ∧ evicted.isSome

/-- A slot that comes to the window holds the entry that comes with it, whatever was left in the slot. -/
def Move.Overwrites (x : Move) : Prop :=
  ∀ i, x.before.count ≤ i → i < x.after.count →
    ∃ e, x.change = .push e ∧ x.reply = .placed (.appended i) ∧ x.after.slot i = some e

theorem WellFormed.move_evicts {t : Table B σ} (hw : t.window.WellFormed) (bs : Backends B σ) (c : Change) :
    (t.move bs c).Evicts := by
  intro evicted hreply
  cases c with
  | push e =>
    have hplaced : (t.window.push e).1 = .wrapped evicted := Reply.placed.inj hreply
    by_cases h : t.window.count < t.window.capacity
    · rw [(push_of_room h e).1] at hplaced
      cases hplaced
    · rw [(push_of_full h e).1] at hplaced
      cases hplaced
      have hle := hw.count_le
      have hpos := hw.capacity_pos
      have hlast : t.window.capacity - 1 < t.window.count := by omega
      refine ⟨by simp only [Table.move]; omega, ?_, hw.taken _ hlast⟩
      simp only [Table.move]
      rw [hw.getElem?_entries, if_pos hlast]
  | _ => cases hreply

theorem WellFormed.move_overwrites {t : Table B σ} (hw : t.window.WellFormed) (bs : Backends B σ) (c : Change) :
    (t.move bs c).Overwrites := by
  intro i hi hlt
  change t.window.count ≤ i at hi
  change i < (t.apply bs c).2.window.count at hlt
  by_cases hpush : ∃ e, c = .push e
  · obtain ⟨e, rfl⟩ := hpush
    change i < (t.window.push e).2.count at hlt
    by_cases h : t.window.count < t.window.capacity
    · obtain ⟨hreply, hcount⟩ := push_of_room h e
      have hnew : i = t.window.count := by omega
      subst hnew
      refine ⟨e, rfl, congrArg Reply.placed hreply, ?_⟩
      exact (slot_push_of_lt h e _).trans (if_pos rfl)
    · have hcount := (push_of_full h e).2
      have hpos := hw.capacity_pos
      omega
  · have hle := Table.count_apply_le bs t fun e he => hpush ⟨e, he⟩
    omega

/-! ### Runs -/

namespace Table

variable {bs : Backends B σ} {t : Table B σ}

theorem capacity_after (bs : Backends B σ) (t : Table B σ) (cs : List Change) :
    (t.after bs cs).window.capacity = t.window.capacity := by
  induction cs generalizing t with
  | nil => rfl
  | cons c cs ih => exact (ih (t.apply bs c).2).trans (capacity_apply bs t c)

/-- What the moves of a run leave in the slots. -/
theorem layout_after (bs : Backends B σ) (hl : t.window.Layout p) (hc : 0 < t.window.capacity) (cs : List Change) :
    (t.after bs cs).window.Layout ((t.moves bs cs).foldl Past.next p) ∧
      (t.after bs cs).window.capacity = t.window.capacity := by
  refine ⟨?_, capacity_after bs t cs⟩
  induction cs generalizing t p with
  | nil => exact hl
  | cons c cs ih => exact ih (hl.apply bs hc c) (capacity_apply bs t c ▸ hc)

/-- What holds of a move of any well-formed window holds of every move of a run. -/
theorem forall_moves {P : Move → Prop} (hP : ∀ (t : Table B σ) c, t.window.WellFormed → P (t.move bs c))
    (hl : t.window.Layout p) (hc : 0 < t.window.capacity) (cs : List Change) : ∀ x ∈ t.moves bs cs, P x := by
  induction cs generalizing t p with
  | nil => exact fun x hx => absurd hx List.not_mem_nil
  | cons c cs ih =>
    intro x hx
    rcases List.mem_cons.1 hx with rfl | hx
    · exact hP t c (hl.wellFormed hc)
    · exact ih (hl.apply bs hc c) (capacity_apply bs t c ▸ hc) x hx

/-- A slot that was in the window before stays empty until the window comes back to it: the window cannot start over
without filling it first. -/
theorem slot_after (hl : t.window.Layout p) (hc : 0 < t.window.capacity) {j : Nat} (hj : t.window.count ≤ j)
    (hjc : j < p.crest) (cs : List Change) (hcs : ∀ x ∈ t.moves bs cs, x.reply ≠ .placed (.appended j)) :
    (t.after bs cs).window.slot j = none := by
  induction cs generalizing t p with
  | nil => exact hl.empty j hj hjc
  | cons c cs ih =>
    have hmove := hcs (t.move bs c) List.mem_cons_self
    have hroom : t.window.count < t.window.capacity := Nat.lt_of_le_of_lt hj (Nat.lt_of_lt_of_le hjc hl.crest_le)
    have hkept : (t.apply bs c).2.window.count ≤ j ∧ (t.move bs c).wrapped = false := by
      by_cases hpush : ∃ e, c = .push e
      · obtain ⟨e, rfl⟩ := hpush
        obtain ⟨hreply, hcount⟩ := push_of_room hroom e
        have hreply' : (t.move bs (.push e)).reply = .placed (.appended t.window.count) :=
          congrArg Reply.placed hreply
        rw [hreply'] at hmove
        have hne : t.window.count ≠ j := fun h => hmove (h ▸ rfl)
        refine ⟨?_, by simp only [Move.wrapped, hreply']⟩
        change (t.window.push e).2.count ≤ j
        omega
      · have hle := count_apply_le bs t fun e he => hpush ⟨e, he⟩
        refine ⟨Nat.le_trans hle hj, ?_⟩
        cases c with
        | push e => exact absurd ⟨e, rfl⟩ hpush
        | _ => rfl
    obtain ⟨hcount, hwrapped⟩ := hkept
    refine ih (hl.apply bs hc c) (capacity_apply bs t c ▸ hc) hcount ?_ fun x hx => hcs x (List.mem_cons_of_mem _ hx)
    simp only [Past.next, hwrapped, Bool.false_eq_true, ↓reduceIte]
    exact Nat.lt_of_lt_of_le hjc (Nat.le_max_left ..)

end Table

theorem layout_create (capacity : Nat) : (create capacity).Layout .fresh where
  count_le := Nat.le_refl _
  crest_le := Nat.zero_le _
  taken := fun i hi => absurd hi (Nat.not_lt_zero i)
  empty := fun i _ hi => absurd hi (Nat.not_lt_zero i)
  stale := fun i _ _ => slot_create capacity i
  full := nofun
  given := fun e he => by
    rw [entries_create] at he
    exact absurd he List.not_mem_nil

/-- Changes lead from a new window to well-formed windows of its capacity. -/
theorem wellFormed_reached (bs : Backends B σ) (st : Settings) (r : Routing B) (s : σ) (changes : List Change) :
    let w := ((Table.mk (create st.capacity) r s).after bs changes).window
    w.WellFormed ∧ w.capacity = st.capacity := by
  intro w
  have hc : 0 < (create st.capacity).capacity := (capacity_create st.capacity).symm ▸ st.capacity_pos
  obtain ⟨hlayout, hcap⟩ := Table.layout_after bs (t := ⟨create st.capacity, r, s⟩) (layout_create _) hc changes
  exact ⟨hlayout.wellFormed (hcap.symm ▸ hc), hcap.trans (capacity_create st.capacity)⟩

/-- Behind every run of changes of a new window the slots hold what its past says: the window is taken, the slots from
there to the largest length since the last start are empty, and the others hold what that start left in them, or
nothing if there was none.  A start tells the entry that it overwrites; a slot holds nothing from the move that takes
it out of the window until one appends to it again, and then it holds what that one appends. -/
theorem slots_of_run (bs : Backends B σ) (st : Settings) (r : Routing B) (s : σ) (changes : List Change) :
    let start : Table B σ := ⟨create st.capacity, r, s⟩
    (start.after bs changes).window.Layout (past (start.moves bs changes)) ∧
    (start.after bs changes).window.capacity = st.capacity ∧
    (∀ x ∈ start.moves bs changes, x.Evicts ∧ x.Overwrites) ∧
    ∀ earlier c later, changes = earlier ++ c :: later → (∀ e, c ≠ .push e) →
      let t := start.after bs earlier
      let t' := (t.apply bs c).2
      ∀ j, t'.window.count ≤ j → j < t.window.count →
        (∀ x ∈ t'.moves bs later, x.reply ≠ .placed (.appended j)) →
          (start.after bs changes).window.slot j = none := by
  intro start
  have hl : start.window.Layout .fresh := layout_create st.capacity
  have hcap : start.window.capacity = st.capacity := capacity_create st.capacity
  have hc : 0 < start.window.capacity := hcap ▸ st.capacity_pos
  obtain ⟨hlayout, hlast⟩ := Table.layout_after bs hl hc changes
  refine ⟨hlayout, hlast.trans hcap, ?_, ?_⟩
  · exact Table.forall_moves (fun t c hw => ⟨hw.move_evicts bs c, hw.move_overwrites bs c⟩) hl hc changes
  · intro earlier c later hsplit hpush t t' j hj hjt hlater
    have hafter : start.after bs changes = t'.after bs later := by
      rw [hsplit, Table.after, List.foldl_append, List.foldl_cons]
      rfl
    rw [hafter]
    obtain ⟨hlt, hct⟩ := Table.layout_after bs hl hc earlier
    have hct : 0 < t.window.capacity := hct ▸ hc
    -- the slot was in the window, so it lies below the largest length
    have hcrest : j < ((start.moves bs earlier).foldl Past.next .fresh).crest := Nat.lt_of_lt_of_le hjt hlt.count_le
    have hle : (t.move bs c).after.count ≤ t.window.count := Table.count_apply_le bs t hpush
    have hwrapped : (t.move bs c).wrapped = false := by
      cases c with
      | push e => exact absurd rfl (hpush e)
      | _ => rfl
    have hnext := hlt.apply bs hct c
    rw [hlt.next_of_le hwrapped hle] at hnext
    exact Table.slot_after hnext (Table.capacity_apply bs t c ▸ hct) hj hcrest later hlater

/-- Four slots: the second entry is untracked, a fifth one fills the window and a sixth one starts it over. -/
example :
    let entry (n : Nat) : Entry := ⟨⟨n + 1, Nat.succ_ne_zero n⟩, 10 * n⟩
    let bs : Backends Kind Unit := ⟨Kind.name, id, fun _ _ s => (none, s)⟩
    let changes : List Change :=
      [.push (entry 1), .push (entry 2), .push (entry 3), .push (entry 4), .untrack (entry 2).handle,
       .push (entry 5), .push (entry 6)]
    ((Table.mk (create 4) (.uniform .platform) ()).after bs changes).window.slots.toList =
      [some (entry 6), some (entry 4), some (entry 3), some (entry 1)] := by
  decide +kernel

end Window

end BlockTracker
