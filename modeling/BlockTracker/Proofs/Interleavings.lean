import BlockTracker.Proofs.ClientPrograms
import BlockTracker.Proofs.Ownership
import Mathlib.Data.List.Induction

/-!
# Clients in any order

Clients share a tracker and take turns in any order, each with a program of its own (`Party.run`).  A party stands as
it should (`Party.Stands`) if the entries of the window are those of the blocks that the clients have, and these are
the outstanding ones of the programs as far as they have come; a turn keeps it so as long as the window has room
(`Party.Stands.turn`).  Where a release moves the last entry into the hole, the entries are the same up to their
order, and an address that comes back belongs to one block at a time, since the blocks in the window are live.  So the
programs alone decide what is in the window in the end, and what the figures are (`Party.interleavings_agree`).
-/

namespace BlockTracker

/-! ### Ledgers that lose nothing -/

namespace Ledger

variable {B σ : Type} {bs : Backends B σ} {st : Settings} {es : List Entry} {l : Ledger B} {bytes : Nat} {e : Entry}

/-- A ledger of a tracker that has handed out and taken back blocks, `bytes` bytes of them in all, and has done nothing
else: it has the entries `es`. -/
def calm (bs : Backends B σ) (st : Settings) (es : List Entry) (bytes : Nat) (installed : Bool) : Ledger B :=
  { fresh bs st with entries := es, totalBytes := min bytes (wordCount - 1), live := es.length, installed }

theorem grant_calm (hroom : es.length < st.capacity) (installed : Bool) (block : Handle) (n : Nat) :
    (calm bs st es bytes installed).grant n (some block) = calm bs st (es ++ [⟨block, n⟩]) (bytes + n) installed := by
  have htotal : min (min bytes (wordCount - 1) + n) (wordCount - 1) = min (bytes + n) (wordCount - 1) := by omega
  rw [grant_of_room (l := calm bs st es bytes installed) hroom]
  simp only [calm, List.length_append, List.length_singleton, htotal]

/-- Striking a handle off takes its entry away, and the others stay, in some order. -/
theorem entries_strike_perm (hd : l.handles.Nodup) (he : e ∈ l.entries) :
    (e :: (l.strike e.handle).entries).Perm l.entries := by
  have hm : e.handle ∈ l.handles := List.mem_map_of_mem he
  have hrest : (l.strike e.handle).handles.Nodup := (handles_strike_perm hm).nodup_iff.2 (hd.erase _)
  have hgone : e ∉ (l.strike e.handle).entries := fun h => ((mem_entries_strike hd _ e).1 h).2 rfl
  refine (List.perm_ext_iff_of_nodup (List.nodup_cons.2 ⟨hgone, hrest.of_map⟩) hd.of_map).2 fun x => ?_
  rw [List.mem_cons, mem_entries_strike hd]
  constructor
  · rintro (rfl | hx)
    · exact he
    · exact hx.1
  · intro hx
    by_cases hh : x.handle = e.handle
    · exact .inl (List.inj_on_of_nodup_map hd hx he hh)
    · exact .inr ⟨hx, hh⟩

theorem strike_calm (installed : Bool) (hd : (calm bs st es bytes installed).handles.Nodup) (he : e ∈ es) :
    ∃ es', (calm bs st es bytes installed).strike e.handle = calm bs st es' bytes installed ∧ (e :: es').Perm es := by
  have hperm := entries_strike_perm (l := calm bs st es bytes installed) hd he
  have hm : e.handle ∈ (calm bs st es bytes installed).handles := List.mem_map_of_mem he
  refine ⟨_, ?_, hperm⟩
  have hlen : ((calm bs st es bytes installed).strike e.handle).entries.length = es.length - 1 :=
    Nat.eq_sub_of_add_eq hperm.length_eq
  rw [strike_of_mem hm] at hlen ⊢
  simp only [calm] at hlen ⊢
  rw [hlen]

end Ledger

/-! ### Backends that always give a block -/

/-- A backend that never fails to give a block. -/
def Backends.Gives {B σ : Type} (bs : Backends B σ) (b : B) : Prop :=
  ∀ bytes s, (bs.serve b (.allocate bytes) s).1.isSome = true ∧ (bs.serve b (.zeroAllocate bytes) s).1.isSome = true

/-- Shelves with room for everything. -/
def Shelves.ample : Backends Kind Shelves where
  name := backends.name
  builtin := backends.builtin
  serve kind
    | .allocate _, s | .zeroAllocate _, s => backends.serve kind (.allocate 0) s
    | c, s => backends.serve kind c s

theorem Shelves.ample_sound (kind : Kind) : ample.Sound (live kind) kind := by
  intro c s _
  cases c with
  | allocate bytes => exact sound kind (.allocate 0) s trivial
  | zeroAllocate bytes => exact sound kind (.allocate 0) s trivial
  | reallocate old bytes => exact sound kind (.reallocate old bytes) s trivial
  | release block => exact sound kind (.release block) s trivial

theorem Shelves.ample_gives (kind : Kind) : ample.Gives kind := fun _ _ => ⟨rfl, rfl⟩

/-! ### Parties -/

/-- The turn of a client. -/
structure Turn (k : Nat) where
  client : Fin k
  step : ClientStep
deriving DecidableEq

/-- A block that a client has: the number of its request, and its handle with the size of the request. -/
structure Lot (k : Nat) where
  client : Fin k
  index : Nat
  entry : Entry
deriving DecidableEq

/-- Whose a block is, of which request, and of which size. -/
def Lot.told {k : Nat} (x : Lot k) : Fin k × Nat × Nat := (x.client, x.index, x.entry.size)

/-- Clients with their tracker: how many requests each has made, the blocks that they have, and what the releases
have been answered, in order. -/
structure Party (k : Nat) (B σ : Type) where
  tracker : Tracker B
  state : σ
  made : Fin k → Nat
  lots : List (Lot k)
  replies : List Answer

/-- The steps of a client in a list of turns. -/
def stepsOf {k : Nat} (turns : List (Turn k)) (c : Fin k) : List ClientStep :=
  (turns.filter (·.client = c)).map (·.step)

namespace Party

open ClientStep

variable {B σ : Type} {k : Nat}

def start (k : Nat) (st : Settings) (s : σ) : Party k B σ := ⟨.create st, s, fun _ => 0, [], []⟩

/-- A client asks for a block and keeps it. -/
def request (bs : Backends B σ) (p : Party k B σ) (c : Fin k) (bytes : Nat) (op : Operation B) : Party k B σ :=
  let o := p.tracker.perform bs op p.state
  let lots := o.value.given.toList.map fun block => ⟨c, p.made c, block, bytes⟩
  ⟨o.tracker, o.state, Function.update p.made c (p.made c + 1), p.lots ++ lots, p.replies⟩

/-- A client releases one of its blocks. -/
def release (bs : Backends B σ) (p : Party k B σ) (c : Fin k) (index : Nat) : Party k B σ :=
  match p.lots.find? fun x => x.client = c ∧ x.index = index with
  | none => p
  | some x =>
    let o := p.tracker.perform bs (.release x.entry.handle) p.state
    ⟨o.tracker, o.state, p.made, p.lots.erase x, p.replies ++ [o.value]⟩

def turn (bs : Backends B σ) (p : Party k B σ) (x : Turn k) : Party k B σ :=
  match x.step with
  | .allocate bytes => p.request bs x.client bytes (.allocate bytes)
  | .zeroAllocate bytes => p.request bs x.client bytes (.zeroAllocate bytes)
  | .release index => p.release bs x.client index

def run (bs : Backends B σ) (p : Party k B σ) (turns : List (Turn k)) : Party k B σ := turns.foldl (turn bs) p

/-- The window as the clients read it: for each entry the client that has the block, which of its requests it is from,
and the size in the entry. -/
def reading (p : Party k B σ) : List (Option (Fin k × Nat × Nat)) :=
  p.tracker.window.entries.map fun e =>
    (p.lots.find? fun x => x.entry.handle = e.handle).map fun x => (x.client, x.index, e.size)

/-! ### What a turn does -/

section Performed

variable {bs : Backends B σ} {live : σ → Set Handle} {b : B} {t : Tracker B} {s : σ}

/-- A request that is answered with a block. -/
private theorem perform_grant (live : σ → Set Handle) (op : Operation B) {c : Call} {bytes : Nat}
    (hw : t.window.WellFormed) (htarget : (t.ledger bs).target = .all b) (hc : (t.ledger bs).calls op = [c])
    (hreply : ∀ a, (t.ledger bs).reply bs op a = .block (Ledger.resultOf bytes a))
    (hupdate : ∀ a, (t.ledger bs).update op a = (t.ledger bs).ready.grant bytes a)
    (hgrants : Grants (live s) (live (bs.serve b c s).2) (bs.serve b c s).1)
    (hgives : (bs.serve b c s).1.isSome = true) :
    let o := t.perform bs op s
    ∃ block, o.value.given = some block ∧ block ∉ live s ∧ live o.state = insert block (live s) ∧
      o.tracker.ledger bs = (t.ledger bs).ready.grant bytes (some block) := by
  intro o
  obtain ⟨hval, hled, hstate⟩ := Tracker.perform_spec bs hw op s
  rw [hc, htarget, Backends.serveAll_one] at hval hled hstate
  obtain ⟨block, hblock⟩ := Option.isSome_iff_exists.1 hgives
  rw [hblock] at hgrants hval hled
  refine ⟨block, ?_, hgrants.1, ?_, ?_⟩
  · rw [hval, hreply, Ledger.given_resultOf]
  · rw [hstate]
    exact hgrants.2
  · rw [hled, hupdate]

theorem perform_release {h : Handle} (hw : t.window.WellFormed) (htarget : (t.ledger bs).target = .all b)
    (hs : bs.Sound live b) (hm : h ∈ (t.ledger bs).handles) (hlive : h ∈ live s) :
    let o := t.perform bs (.release h) s
    o.value = .release .released ∧ live o.state = live s \ {h} ∧
      o.tracker.ledger bs = (t.ledger bs).ready.strike h := by
  intro o
  obtain ⟨hval, hled, hstate⟩ := Tracker.perform_spec bs hw (.release h) s
  have hcalls : (t.ledger bs).calls (.release h) = [.release h] := if_pos hm
  rw [hcalls, htarget, Backends.serveAll_one] at hstate
  refine ⟨?_, ?_, ?_⟩
  · rw [hval]
    exact congrArg Answer.release (if_pos hm)
  · rw [hstate]
    exact hs (.release h) s trivial hlive
  · rw [hled]
    exact if_pos hm

end Performed

/-! ### How a party stands -/

theorem stepsOf_concat_self (turns : List (Turn k)) (x : Turn k) :
    stepsOf (turns ++ [x]) x.client = stepsOf turns x.client ++ [x.step] := by
  simp [stepsOf]

theorem stepsOf_concat_of_ne (turns : List (Turn k)) (x : Turn k) {c : Fin k} (hc : c ≠ x.client) :
    stepsOf (turns ++ [x]) c = stepsOf turns c := by
  simp [stepsOf, hc.symm]

/-- The releases among turns. -/
def releases (turns : List (Turn k)) : Nat := turns.countP fun x => x.step.size? = none

/-- How a party stands after turns that have not lost a block: the clients have the outstanding blocks of what they
have done so far, the entries of the window are those of these blocks, and the blocks are live. -/
structure Stands (bs : Backends B σ) (live : σ → Set Handle) (st : Settings) (turns : List (Turn k))
    (p : Party k B σ) : Prop where
  wellFormed : p.tracker.window.WellFormed
  calm : ∃ es installed, p.tracker.ledger bs = .calm bs st es (total (requested (stepsOf turns))) installed
  made : ∀ c, p.made c = (sizes (stepsOf turns c)).length
  told : (p.lots.map Lot.told).Perm (outstanding (stepsOf turns))
  entries : (p.tracker.ledger bs).entries.Perm (p.lots.map (·.entry))
  owns : Owns (live p.state) (p.tracker.ledger bs).handles
  replies : p.replies = List.replicate (releases turns) (.release .released)

variable {bs : Backends B σ} {live : σ → Set Handle} {st : Settings} {turns : List (Turn k)} {p : Party k B σ}
  {x : Turn k}

theorem stands_start (bs : Backends B σ) (live : σ → Set Handle) (st : Settings) (s : σ) :
    Stands bs live st [] (start k st s) where
  wellFormed := .create st.capacity_pos
  calm := by
    refine ⟨[], false, ?_⟩
    have hnone : requested (stepsOf ([] : List (Turn k))) = [] := List.flatMap_eq_nil_iff.2 fun _ _ => rfl
    rw [hnone]
    exact Tracker.ledger_create bs st
  made _ := rfl
  told := by
    have hnone : outstanding (stepsOf ([] : List (Turn k))) = [] := List.flatMap_eq_nil_iff.2 fun _ _ => rfl
    rw [hnone]
    exact .nil
  entries := by
    rw [start, Tracker.ledger_create]
    exact .nil
  owns := by
    rw [start, Tracker.ledger_create]
    exact .nil _
  replies := rfl

namespace Stands

/-- There are as many entries as there are outstanding blocks. -/
theorem length_entries (h : Stands bs live st turns p) :
    (p.tracker.ledger bs).entries.length = (outstanding (stepsOf turns)).length := by
  rw [h.entries.length_eq, List.length_map, ← h.told.length_eq, List.length_map]

theorem target (h : Stands bs live st turns p) : (p.tracker.ledger bs).target = .all (bs.builtin st.kind) := by
  obtain ⟨es, installed, hled⟩ := h.calm
  rw [hled]
  rfl

/-- What the ledger is after one more block, as long as the window has room. -/
private theorem ready_grant (h : Stands bs live st turns p)
    (hroom : (outstanding (stepsOf turns)).length < st.capacity) (block : Handle) (bytes : Nat) :
    (p.tracker.ledger bs).ready.grant bytes (some block) =
      .calm bs st ((p.tracker.ledger bs).entries ++ [⟨block, bytes⟩])
        (total (requested (stepsOf turns)) + bytes) true := by
  rw [← h.length_entries] at hroom
  obtain ⟨es, installed, hcalm⟩ := h.calm
  rw [hcalm] at hroom ⊢
  exact Ledger.grant_calm hroom true block bytes

/-- What the ledger is with a block less. -/
private theorem ready_strike {e : Entry} (h : Stands bs live st turns p) (he : e ∈ (p.tracker.ledger bs).entries) :
    ∃ es, (p.tracker.ledger bs).ready.strike e.handle =
      .calm bs st es (total (requested (stepsOf turns))) true ∧ (e :: es).Perm (p.tracker.ledger bs).entries := by
  have hnodup := h.owns.nodup
  obtain ⟨es, installed, hcalm⟩ := h.calm
  rw [hcalm] at he hnodup ⊢
  exact Ledger.strike_calm true hnodup he

/-- A turn in which a client gets a block. -/
private theorem request {bytes : Nat} {op : Operation B} {block : Handle} (h : Stands bs live st turns p)
    (hproper : Proper (stepsOf turns x.client)) (hsize : x.step.size? = some bytes)
    (hroom : (outstanding (stepsOf (turns ++ [x]))).length ≤ st.capacity)
    (hgiven : (p.tracker.perform bs op p.state).value.given = some block) (hfresh : block ∉ live p.state)
    (hlive : live (p.tracker.perform bs op p.state).state = insert block (live p.state))
    (hled : (p.tracker.perform bs op p.state).tracker.ledger bs =
      (p.tracker.ledger bs).ready.grant bytes (some block)) :
    Stands bs live st (turns ++ [x]) (p.request bs x.client bytes op) := by
  have hself := stepsOf_concat_self turns x
  have hother (c : Fin k) (hc : c ≠ x.client) := stepsOf_concat_of_ne turns x hc
  have hout := outstanding_request hproper hself hother hsize
  have hreq := requested_request hself hother hsize
  have hlots : (p.request bs x.client bytes op).lots = p.lots ++ [⟨x.client, p.made x.client, block, bytes⟩] := by
    simp only [Party.request, hgiven, Option.toList_some, List.map_cons, List.map_nil]
  have hgrant : (p.request bs x.client bytes op).tracker.ledger bs =
      .calm bs st ((p.tracker.ledger bs).entries ++ [⟨block, bytes⟩])
        (total (requested (stepsOf (turns ++ [x])))) true := by
    have htotal : total (requested (stepsOf (turns ++ [x]))) = total (requested (stepsOf turns)) + bytes :=
      (List.Perm.sum_nat hreq).trans (Nat.add_comm ..)
    rw [hout.length_eq, List.length_cons] at hroom
    rw [htotal]
    exact hled.trans (h.ready_grant hroom block bytes)
  exact {
    wellFormed := Tracker.wellFormed_perform h.wellFormed op p.state
    calm := ⟨_, _, hgrant⟩
    made := fun c => by
      rcases eq_or_ne c x.client with rfl | hc
      · rw [hself, sizes_request hsize, List.length_append, List.length_singleton, ← h.made]
        exact Function.update_self ..
      · rw [hother c hc, ← h.made]
        exact Function.update_of_ne hc ..
    told := by
      rw [hlots, List.map_append, List.map_singleton, Lot.told, h.made]
      exact (List.perm_append_singleton ..).trans ((h.told.cons _).trans hout.symm)
    entries := by
      rw [hlots, hgrant, List.map_append, List.map_singleton]
      exact h.entries.append_right _
    owns := by
      change Owns (live (p.tracker.perform bs op p.state).state)
        ((p.tracker.perform bs op p.state).tracker.ledger bs).handles
      rw [hled, hlive]
      exact Ledger.owns_grant (l := (p.tracker.ledger bs).ready) h.owns hfresh bytes
    replies := by
      have hcount : releases (turns ++ [x]) = releases turns := by
        simp [releases, hsize]
      rw [hcount]
      exact h.replies }

/-- A client has the blocks that it has not released, with the sizes that it asked for. -/
private theorem find_lot {c : Fin k} {index bytes : Nat} (h : Stands bs live st turns p)
    (hsize : (sizes (stepsOf turns c))[index]? = some bytes) (hnew : ClientStep.release index ∉ stepsOf turns c) :
    ∃ y, p.lots.find? (fun y => y.client = c ∧ y.index = index) = some y ∧ y ∈ p.lots ∧
      y.told = (c, index, bytes) := by
  have hmem : (c, index, bytes) ∈ p.lots.map Lot.told := h.told.mem_iff.2 (mem_outstanding.2 ⟨hsize, hnew⟩)
  obtain ⟨z, hz, hztold⟩ := List.mem_map.1 hmem
  obtain ⟨hzclient, hzindex, -⟩ : z.client = c ∧ z.index = index ∧ z.entry.size = bytes := by
    simpa only [Lot.told, Prod.mk.injEq] using hztold
  have hsome : (p.lots.find? fun y => y.client = c ∧ y.index = index).isSome = true :=
    List.find?_isSome.2 ⟨z, hz, decide_eq_true ⟨hzclient, hzindex⟩⟩
  obtain ⟨y, hfind⟩ := Option.isSome_iff_exists.1 hsome
  have hy := List.mem_of_find?_eq_some hfind
  obtain ⟨hyclient, hyindex⟩ : y.client = c ∧ y.index = index := by
    simpa only [decide_eq_true_eq] using List.find?_some hfind
  -- a request has one size, so the lot that was found has it too
  have hysize : (sizes (stepsOf turns y.client))[y.index]? = some y.entry.size :=
    (mem_outstanding.1 (h.told.mem_iff.1 (List.mem_map_of_mem hy))).1
  rw [hyclient, hyindex, hsize, Option.some_inj] at hysize
  exact ⟨y, hfind, hy, by rw [Lot.told, hyclient, hyindex, hysize]⟩

/-- A turn in which a client releases one of its blocks. -/
private theorem release {index : Nat} (h : Stands bs live st turns p) (hs : bs.Sound live (bs.builtin st.kind))
    (hstep : x.step = .release index) (hindex : index < (sizes (stepsOf turns x.client)).length)
    (hnew : ClientStep.release index ∉ stepsOf turns x.client) :
    Stands bs live st (turns ++ [x]) (p.release bs x.client index) := by
  have hself := stepsOf_concat_self turns x
  rw [hstep] at hself
  have hother (c : Fin k) (hc : c ≠ x.client) := stepsOf_concat_of_ne turns x hc
  have hsize := List.getElem?_eq_getElem hindex
  have hout := outstanding_release hself hother hsize hnew
  obtain ⟨y, hfind, hy, htold⟩ := h.find_lot hsize hnew
  have hlots := List.perm_cons_erase hy
  have hentry : y.entry ∈ (p.tracker.ledger bs).entries := h.entries.mem_iff.2 (List.mem_map_of_mem hy)
  have hhandle : y.entry.handle ∈ (p.tracker.ledger bs).handles := List.mem_map_of_mem hentry
  obtain ⟨hreply, hlive, hled⟩ :=
    perform_release h.wellFormed h.target hs hhandle (h.owns.mem_live _ hhandle)
  obtain ⟨es, hstrike, hperm⟩ := h.ready_strike hentry
  have hrun : p.release bs x.client index =
      ⟨(p.tracker.perform bs (.release y.entry.handle) p.state).tracker,
        (p.tracker.perform bs (.release y.entry.handle) p.state).state, p.made, p.lots.erase y,
        p.replies ++ [.release .released]⟩ := by
    rw [Party.release, hfind, ← hreply]
  rw [hrun]
  exact {
    wellFormed := Tracker.wellFormed_perform h.wellFormed _ p.state
    calm := ⟨es, true, by rw [hled, hstrike, requested_release hself hother]⟩
    made := fun c => by
      rw [h.made]
      rcases eq_or_ne c x.client with rfl | hc
      · rw [hself, sizes_release]
      · rw [hother c hc]
    told := by
      have := (hlots.map Lot.told).symm.trans (h.told.trans hout)
      rw [List.map_cons, htold] at this
      exact this.cons_inv
    entries := by
      rw [hled, hstrike]
      have := hperm.trans (h.entries.trans (hlots.map (·.entry)))
      rw [List.map_cons] at this
      exact this.cons_inv
    owns := by
      rw [hled, hlive]
      exact Ledger.owns_strike (l := (p.tracker.ledger bs).ready) h.owns _
    replies := by
      have hcount : releases (turns ++ [x]) = releases turns + 1 := by
        simp [releases, hstep, size?]
      rw [hcount, List.replicate_succ', h.replies] }

/-- The clients read the outstanding blocks off the window. -/
theorem reading_perm (h : Stands bs live st turns p) : p.reading.Perm ((outstanding (stepsOf turns)).map some) := by
  have hnodup : (p.lots.map (·.entry.handle)).Nodup := by
    have hhandles := (h.owns.perm (h.entries.map Entry.handle)).nodup
    rwa [List.map_map] at hhandles
  have hfind (y : Lot k) (hy : y ∈ p.lots) : p.lots.find? (fun x => x.entry.handle = y.entry.handle) = some y := by
    have hsome : (p.lots.find? fun x => x.entry.handle = y.entry.handle).isSome = true :=
      List.find?_isSome.2 ⟨y, hy, decide_eq_true rfl⟩
    obtain ⟨z, hz⟩ := Option.isSome_iff_exists.1 hsome
    have hzy : z.entry.handle = y.entry.handle := by simpa only [decide_eq_true_eq] using List.find?_some hz
    rw [hz, List.inj_on_of_nodup_map hnodup (List.mem_of_find?_eq_some hz) hy hzy]
  have hread : p.reading.Perm (p.lots.map fun y => some y.told) := by
    refine (h.entries.map _).trans ?_
    rw [List.map_map]
    refine .of_eq (List.map_congr_left fun y hy => ?_)
    simp only [Function.comp_apply, hfind y hy, Option.map_some, Lot.told]
  refine hread.trans ?_
  have := h.told.map some
  rwa [List.map_map] at this

theorem turn (h : Stands bs live st turns p) (hs : bs.Sound live (bs.builtin st.kind))
    (hg : bs.Gives (bs.builtin st.kind)) (hproper : Proper (stepsOf (turns ++ [x]) x.client))
    (hroom : (outstanding (stepsOf (turns ++ [x]))).length ≤ st.capacity) :
    Stands bs live st (turns ++ [x]) (p.turn bs x) := by
  rw [stepsOf_concat_self] at hproper
  have hbefore : Proper (stepsOf turns x.client) := hproper.of_prefix (List.prefix_append ..)
  cases hstep : x.step with
  | allocate bytes =>
    obtain ⟨block, hgiven, hfresh, hlive, hled⟩ :=
      perform_grant live (.allocate bytes) h.wellFormed h.target rfl (fun _ => rfl) (fun _ => rfl)
        (hs (.allocate bytes) p.state trivial) (hg bytes p.state).1
    rw [Party.turn, hstep]
    exact h.request hbefore (congrArg size? hstep) hroom hgiven hfresh hlive hled
  | zeroAllocate bytes =>
    obtain ⟨block, hgiven, hfresh, hlive, hled⟩ :=
      perform_grant live (.zeroAllocate bytes) h.wellFormed h.target rfl (fun _ => rfl) (fun _ => rfl)
        (hs (.zeroAllocate bytes) p.state trivial) (hg bytes p.state).2
    rw [Party.turn, hstep]
    exact h.request hbefore (congrArg size? hstep) hroom hgiven hfresh hlive hled
  | release index =>
    obtain ⟨hindex, hnew⟩ : Allowed (stepsOf turns x.client) (.release index) := hstep ▸ hproper.last
    rw [Party.turn, hstep]
    exact h.release hs hstep hindex hnew

end Stands

/-! ### Runs -/

/-- An order of the turns of clients with these programs in which the outstanding blocks never exceed the window. -/
structure Interleaving (st : Settings) (programs : Fin k → List ClientStep) (turns : List (Turn k)) : Prop where
  proper : ∀ c, Proper (programs c)
  steps : stepsOf turns = programs
  room : ∀ done, done <+: turns → (outstanding (stepsOf done)).length ≤ st.capacity

theorem Interleaving.of_prefix {programs : Fin k → List ClientStep} {done : List (Turn k)}
    (h : Interleaving st programs turns) (hd : done <+: turns) : Interleaving st (stepsOf done) done where
  proper c := by
    have hc := h.proper c
    rw [← h.steps] at hc
    exact hc.of_prefix ((hd.filter _).map _)
  steps := rfl
  room _ he := h.room _ (he.trans hd)

theorem stands_run {programs : Fin k → List ClientStep} (hs : bs.Sound live (bs.builtin st.kind))
    (hg : bs.Gives (bs.builtin st.kind)) (h : Interleaving st programs turns) (s : σ) :
    Stands bs live st turns ((start k st s).run bs turns) := by
  induction turns using List.reverseRecOn generalizing programs with
  | nil => exact stands_start bs live st s
  | append_singleton turns x ih =>
    rw [run, List.foldl_append]
    refine (ih (h.of_prefix (List.prefix_append ..))).turn hs hg ?_ (h.room _ List.prefix_rfl)
    rw [h.steps]
    exact h.proper x.client

/-- The figures are those of the programs. -/
theorem Stands.stats_eq (h : Stands bs live st turns p) :
    (p.tracker.stats bs p.state).value =
      { tracked := (outstanding (stepsOf turns)).length
        capacity := st.capacity
        backendLive := (outstanding (stepsOf turns)).length
        totalBytes := min (total (requested (stepsOf turns))) (wordCount - 1)
        wraps := 0
        untrackedReleases := 0
        drainedTotal := 0
        swaps := 0
        backends := .all (bs.name (bs.builtin st.kind)) } := by
  obtain ⟨es, installed, hcalm⟩ := h.calm
  have hlen := h.length_entries
  rw [Tracker.stats_spec bs h.wellFormed, hcalm]
  rw [hcalm] at hlen
  simp only [Ledger.calm] at hlen
  simp only [Ledger.figures, Ledger.calm, hlen]
  rfl

/-- Collecting drains all the entries. -/
theorem Stands.collect_eq (h : Stands bs live st turns p) :
    let o := p.tracker.collect bs p.state
    o.value = (outstanding (stepsOf turns)).length ∧ (o.tracker.stats bs o.state).value.backendLive = 0 := by
  intro o
  obtain ⟨hvalue, hled, hw⟩ := Tracker.collect_spec bs h.wellFormed p.state
  obtain ⟨es, installed, hcalm⟩ := h.calm
  refine ⟨hvalue.trans h.length_entries, ?_⟩
  rw [Tracker.stats_spec bs hw, hled, hcalm]
  exact Nat.sub_self es.length

/-- Over a sound backend that never fails, clients run their programs in any order in which the window has room.  Every
release is answered that the block was released, and the window never starts over.  In the end the clients read
off the window just the blocks that their programs ask for and do not release; any other such order of the same programs
ends with the same blocks in the window, in some order, and with equal figures.  Collecting drains just these blocks
and leaves none counted as live. -/
theorem interleavings_agree (bs : Backends B σ) (live : σ → Set Handle) (st : Settings)
    (hs : bs.Sound live (bs.builtin st.kind)) (hg : bs.Gives (bs.builtin st.kind)) (programs : Fin k → List ClientStep)
    (turns turns' : List (Turn k)) (s s' : σ) (h : Interleaving st programs turns)
    (h' : Interleaving st programs turns') :
    let p := (start k st s).run bs turns
    let p' := (start k st s').run bs turns'
    p.replies = List.replicate (releases turns) (.release .released) ∧
    (∀ done, done <+: turns →
      let q := (start k st s).run bs done
      let fig := (q.tracker.stats bs q.state).value
      fig.wraps = 0 ∧ fig.untrackedReleases = 0) ∧
    p.reading.Perm ((outstanding programs).map some) ∧
    p.reading.Perm p'.reading ∧
    (p.tracker.stats bs p.state).value = (p'.tracker.stats bs p'.state).value ∧
    let o := p.tracker.collect bs p.state
    o.value = (outstanding programs).length ∧ (o.tracker.stats bs o.state).value.backendLive = 0 := by
  intro p p'
  have hp : Stands bs live st turns p := stands_run hs hg h s
  have hp' : Stands bs live st turns' p' := stands_run hs hg h' s'
  have hread := hp.reading_perm
  have hread' := hp'.reading_perm
  rw [h.steps] at hread
  rw [h'.steps] at hread'
  refine ⟨hp.replies, ?_, hread, hread.trans hread'.symm, ?_, ?_⟩
  · intro done hd q fig
    have hfig : fig = _ := (stands_run hs hg (h.of_prefix hd) s).stats_eq
    rw [hfig]
    exact ⟨rfl, rfl⟩
  · rw [hp.stats_eq, hp'.stats_eq, h.steps, h'.steps]
  · rw [← h.steps]
    exact hp.collect_eq

/-- Two clients in two orders.  In the second, block 1 goes to the one client after the other has released it, and the
window ends up in another order. -/
theorem interleavings_agree_shelves :
    let st : Settings := ⟨3, .platform, by decide⟩
    let programs : Fin 2 → List ClientStep := fun c =>
      if c = 0 then [.allocate 8, .allocate 24, .release 0] else [.zeroAllocate 16, .release 0, .allocate 32]
    let turns : List (Turn 2) :=
      [⟨0, .allocate 8⟩, ⟨0, .allocate 24⟩, ⟨1, .zeroAllocate 16⟩, ⟨0, .release 0⟩, ⟨1, .release 0⟩, ⟨1, .allocate 32⟩]
    let turns' : List (Turn 2) :=
      [⟨1, .zeroAllocate 16⟩, ⟨1, .release 0⟩, ⟨0, .allocate 8⟩, ⟨0, .allocate 24⟩, ⟨1, .allocate 32⟩, ⟨0, .release 0⟩]
    let p := (start 2 st Shelves.empty).run Shelves.ample turns
    let p' := (start 2 st Shelves.empty).run Shelves.ample turns'
    Interleaving st programs turns ∧ Interleaving st programs turns' ∧
    p.reading = [some (0, 1, 24), some (1, 1, 32)] ∧ p'.reading = [some (1, 1, 32), some (0, 1, 24)] ∧
    p.reading.Perm p'.reading ∧
    (p.tracker.stats Shelves.ample p.state).value = (p'.tracker.stats Shelves.ample p'.state).value := by
  intro st programs turns turns' p p'
  have hproper : ∀ c, Proper (programs c) := by decide
  have h : Interleaving st programs turns := by
    refine ⟨hproper, funext (by decide), fun done hd => ?_⟩
    have hroom : ∀ done ∈ turns.inits, (outstanding (stepsOf done)).length ≤ st.capacity := by decide
    exact hroom done ((List.mem_inits ..).2 hd)
  have h' : Interleaving st programs turns' := by
    refine ⟨hproper, funext (by decide), fun done hd => ?_⟩
    have hroom : ∀ done ∈ turns'.inits, (outstanding (stepsOf done)).length ≤ st.capacity := by decide
    exact hroom done ((List.mem_inits ..).2 hd)
  obtain ⟨-, -, -, hperm, hstats, -⟩ :=
    interleavings_agree Shelves.ample (Shelves.live .platform) st (Shelves.ample_sound .platform)
      (Shelves.ample_gives .platform) programs turns turns' .empty .empty h h'
  exact ⟨h, h', by decide, by decide, hperm, hstats⟩

end Party

end BlockTracker
