import BlockTracker.Backend.Counted
import BlockTracker.Proofs.Accounting
import BlockTracker.Proofs.Drains
import BlockTracker.Proofs.Transport

/-!
# Counting wrappers

Counting wrappers around backends change nothing but the names that are shown: a call comes to what it comes to without
them (`Counted.serve_eq`), so that a run with wrappers is a run without (`Backends.core_hom`).  What is left behind is
what they counted.  Every call passes all wrappers around the backend that it is sent to, whatever it is answered and
wherever in an operation it is made, and that is all that they count (`Tallied.Took`).
-/

namespace BlockTracker

variable {B σ : Type}

namespace Counted

/-- The backend itself, without its wrappers. -/
def core : Counted B → B
  | plain b => b
  | counting _ _ inner => inner.core

/-- The numbers of the wrappers, from the outermost one on. -/
def layers : Counted B → List Nat
  | plain _ => []
  | counting id _ inner => id :: inner.layers

/-- How often the wrapper `id` is passed by calls of a primitive, given the calls with the backends that they are sent
to. -/
def passes (id : Nat) (p : Primitive) (routed : List (Counted B × Call)) : Nat :=
  total (routed.map fun x => if x.2.primitive = p then x.1.layers.count id else 0)

theorem passes_append (id : Nat) (p : Primitive) (routed routed' : List (Counted B × Call)) :
    passes id p (routed ++ routed') = passes id p routed + passes id p routed' := by
  rw [passes, List.map_append]
  exact List.sum_append_nat

/-- A wrapper that is around all backends, and not around itself, is passed by every call. -/
theorem passes_eq_countP {id : Nat} {name : String} {inner : Counted B} (hid : id ∉ inner.layers) (p : Primitive)
    {routed : List (Counted B × Call)} (hrouted : ∀ x ∈ routed, x.1 = .counting id name inner) :
    passes id p routed = routed.countP (·.2.primitive = p) := by
  have hone : (counting id name inner).layers.count id = 1 := by
    rw [layers, List.count_cons_self, List.count_eq_zero.2 hid]
  induction routed with
  | nil => rfl
  | cons x routed ih =>
    have hx := hrouted x List.mem_cons_self
    rw [List.countP_cons, ← ih fun y hy => hrouted y (List.mem_cons_of_mem x hy), passes, List.map_cons, total,
      List.sum_cons, hx, hone, Nat.add_comm]
    simp only [decide_eq_true_eq]
    rfl

end Counted

/-! ### One call -/

namespace Tallied

/-- What the wrapper `id` has counted for a primitive. -/
def count? (s : Tallied σ) (id : Nat) (p : Primitive) : Option Nat := s.tallies[id]?.map (·.get p)

theorem count?_record (s : Tallied σ) (id i : Nat) (p q : Primitive) :
    (s.record id p).count? i q = (s.count? i q).map (· + if p = q ∧ id = i then 1 else 0) := by
  simp only [count?, record, Array.getElem?_modify]
  by_cases hi : id = i
  · rw [if_pos hi, Option.map_map, Option.map_map]
    refine congrArg (Option.map · _) (funext fun tally => ?_)
    simp only [Function.comp_apply, PerPrimitive.get_modify, hi, and_true, eq_comm (a := q)]
    split <;> rfl
  · rw [if_neg hi, Option.map_map]
    refine congrArg (Option.map · _) (funext fun tally => ?_)
    rw [Function.comp_apply, if_neg fun h => hi h.2, Nat.add_zero]

/-- One call for each wrapper of a list. -/
def recordAll (s : Tallied σ) (ids : List Nat) (p : Primitive) : Tallied σ := ids.foldl (fun s id => s.record id p) s

theorem count?_recordAll (s : Tallied σ) (ids : List Nat) (i : Nat) (p q : Primitive) :
    (s.recordAll ids p).count? i q = (s.count? i q).map (· + if p = q then ids.count i else 0) := by
  induction ids generalizing s with
  | nil =>
    rw [List.count_nil, ite_self]
    exact (congrFun Option.map_id (s.count? i q)).symm
  | cons id ids ih =>
    refine (ih (s.record id p)).trans ?_
    rw [count?_record, Option.map_map]
    refine congrArg (Option.map · _) (funext fun n => ?_)
    rw [Function.comp_apply, List.count_cons]
    by_cases hp : p = q
    · simp only [hp, true_and, ↓reduceIte, beq_iff_eq]
      omega
    · simp only [hp, false_and, ↓reduceIte, Nat.add_zero]

end Tallied

/-- Wrappers count a call and pass it on. -/
theorem Counted.serve_eq (bs : Backends B σ) (b : Counted B) (c : Call) (s : Tallied σ) :
    b.serve bs c s =
      ((bs.serve b.core c s.base).1, ⟨(bs.serve b.core c s.base).2, (s.recordAll b.layers c.primitive).tallies⟩) := by
  induction b generalizing s with
  | plain b => rfl
  | counting id name inner ih => exact ih (s.record id c.primitive)

/-- Without its wrappers a backend does the same. -/
theorem Backends.core_hom (bs : Backends B σ) : bs.counted.Hom bs Counted.core Tallied.base where
  builtin _ := rfl
  serve b c s := by
    change _ = ((b.serve bs c s).1, (b.serve bs c s).2.base)
    rw [Counted.serve_eq]

/-! ### Several calls -/

/-- How a state comes from another one through calls, given with the backends that they were sent to.  All of them, and
nothing else, have reached the backends without the wrappers, in order, and every wrapper has counted those that passed
it. -/
structure Tallied.Took (s : Tallied (σ × List (Served B σ))) (routed : List (Counted B × Call))
    (s' : Tallied (σ × List (Served B σ))) : Prop where
  reached : s'.base.2.map (fun x => (x.backend, x.call)) =
    s.base.2.map (fun x => (x.backend, x.call)) ++ routed.map fun x => (x.1.core, x.2)
  counted : ∀ id p, s'.count? id p = (s.count? id p).map (· + Counted.passes id p routed)

namespace Tallied.Took

variable {s s' s'' : Tallied (σ × List (Served B σ))} {routed routed' : List (Counted B × Call)}

theorem nil (s : Tallied (σ × List (Served B σ))) : s.Took [] s where
  reached := (List.append_nil _).symm
  counted id p := (congrFun Option.map_id (s.count? id p)).symm

theorem append (h : s.Took routed s') (h' : s'.Took routed' s'') : s.Took (routed ++ routed') s'' where
  reached := by rw [h'.reached, h.reached, List.map_append, List.append_assoc]
  counted id p := by
    rw [h'.counted, h.counted, Option.map_map]
    refine congrArg (Option.map · _) (funext fun n => ?_)
    rw [Function.comp_apply, Counted.passes_append, Nat.add_assoc]

theorem serve (bs : Backends B σ) (b : Counted B) (c : Call) (s : Tallied (σ × List (Served B σ))) :
    s.Took [(b, c)] (bs.logged.counted.serve b c s).2 := by
  have hserve : (bs.logged.counted.serve b c s).2 = _ := congrArg Prod.snd (b.serve_eq bs.logged c s)
  rw [hserve]
  refine ⟨List.map_append, fun id p => ?_⟩
  exact count?_recordAll s b.layers id c.primitive p

theorem serveAll (bs : Backends B σ) (target : PerPrimitive (Counted B)) (cs : List Call)
    (s : Tallied (σ × List (Served B σ))) :
    s.Took (cs.map fun c => (target.get c.primitive, c)) (bs.logged.counted.serveAll target cs s).2 := by
  induction cs generalizing s with
  | nil => exact .nil s
  | cons c cs ih =>
    rw [Backends.snd_serveAll_cons]
    exact (Took.serve bs (target.get c.primitive) c s).append (ih _)

end Tallied.Took

/-! ### Runs -/

namespace Tracker

variable {t : Tracker B} {bs : Backends B σ}

/-- The calls of a run, each with the backend that is in its place before the operation that makes it. -/
def routed (bs : Backends B σ) (t : Tracker B) (ops : List (Operation B)) (s : σ) : List (B × Call) :=
  (t.steps bs ops s).flatMap fun x =>
    ((x.before.ledger bs).calls x.op).map fun c => ((x.before.routing bs).target.get c.primitive, c)

theorem routed_cons (bs : Backends B σ) (t : Tracker B) (op : Operation B) (ops : List (Operation B)) (s : σ) :
    t.routed bs (op :: ops) s =
      ((t.ledger bs).calls op).map (fun c => ((t.routing bs).target.get c.primitive, c)) ++
        (t.perform bs op s).tracker.routed bs ops (t.perform bs op s).state := List.flatMap_cons

/-- The states of a run come from each other through the calls of the run. -/
theorem took_after (bs : Backends B σ) {t : Tracker (Counted B)} (hw : t.window.WellFormed)
    (ops : List (Operation (Counted B))) (s : Tallied (σ × List (Served B σ))) :
    s.Took (t.routed bs.logged.counted ops s) (t.after bs.logged.counted ops s).2 := by
  induction ops generalizing t s with
  | nil => exact .nil s
  | cons op ops ih =>
    -- an operation does to the backends what the calls of its ledger do
    have hstep := Tallied.Took.serveAll bs (t.ledger bs.logged.counted).target ((t.ledger bs.logged.counted).calls op) s
    rw [← (perform_spec bs.logged.counted hw op s).2.2] at hstep
    rw [routed_cons]
    exact hstep.append (ih (wellFormed_perform hw op s) _)

/-- The releases of a run are those of its callers and its drains. -/
theorem countP_routed (hw : t.window.WellFormed) (hl : (t.ledger bs).Balanced) (ops : List (Operation B)) (s : σ) :
    (t.routed bs ops s).countP (·.2.primitive = .release) =
      (t.steps bs ops s).countP Step.released + total ((t.steps bs ops s).map Step.drained) := by
  induction ops generalizing t s with
  | nil => rfl
  | cons op ops ih =>
    obtain ⟨-, -, -, hreleases⟩ := step_balance hw hl op s
    have hone : ∀ b : Bool, (if b = true then 1 else 0) = b.toNat := by decide
    rw [routed_cons, List.countP_append, ih (wellFormed_perform hw op s) (balanced_perform hw hl op s), List.countP_map,
      steps, List.countP_cons, List.map_cons, hone]
    simp only [total, List.sum_cons]
    change ((t.ledger bs).calls op).countP (·.primitive = .release) + _ = _
    omega

/-- As long as nothing is exchanged, all calls go to the backend that is in all places; an exchange at the end drains
through it. -/
theorem fst_of_mem_routed (hw : t.window.WellFormed) {b : B} (hb : (t.routing bs).target = .all b)
    {ops : List (Operation B)} (hops : ∀ op ∈ ops.dropLast, ∀ o, op ≠ .exchange o) (s : σ) :
    ∀ x ∈ t.routed bs ops s, x.1 = b := by
  induction ops generalizing t s with
  | nil => exact fun _ hx => absurd hx List.not_mem_nil
  | cons op ops ih =>
    intro x hx
    rw [routed_cons, List.mem_append] at hx
    rcases hx with hx | hx
    · obtain ⟨c, -, rfl⟩ := List.mem_map.1 hx
      rw [hb, PerPrimitive.get_all]
    · -- behind the last operation, which may be an exchange, there is no call left to look at
      rcases ops with _ | ⟨op', ops⟩
      · exact absurd hx List.not_mem_nil
      rw [List.dropLast_cons_cons] at hops
      have htarget : ((t.perform bs op s).tracker.routing bs).target = (t.routing bs).target := by
        have hledger := (perform_spec bs hw op s).2.1
        exact (congrArg Ledger.target hledger).trans ((t.ledger bs).target_update (hops op List.mem_cons_self) _)
      exact ih (wellFormed_perform hw op s) (htarget.trans hb)
        (fun op' hop' => hops op' (List.mem_cons_of_mem op hop')) _ x hx

/-- What a wrapper has counted of releases since it was put around everything that is in place. -/
theorem count?_release (bs : Backends B σ) {t : Tracker (Counted B)} (hw : t.window.WellFormed)
    (hl : (t.ledger bs.logged.counted).Balanced) {id : Nat} {name : String} {inner : Counted B}
    (hid : id ∉ inner.layers) (ht : (t.routing bs.logged.counted).target = .all (.counting id name inner))
    {ops : List (Operation (Counted B))} (hops : ∀ op ∈ ops.dropLast, ∀ o, op ≠ .exchange o)
    (s : Tallied (σ × List (Served B σ))) :
    let xs := t.steps bs.logged.counted ops s
    (t.after bs.logged.counted ops s).2.count? id .release =
      (s.count? id .release).map (· + (xs.countP Step.released + total (xs.map Step.drained))) := by
  intro xs
  rw [(took_after bs hw ops s).counted, Counted.passes_eq_countP hid _ (fst_of_mem_routed hw ht hops s),
    countP_routed hw hl]

end Tracker

namespace Window

namespace Table

variable {t : Table B σ} {bs : Backends B σ}

/-- The calls that an act makes, in order. -/
def calls (t : Table B σ) : Act B → List Call
  | .change (.untrack h) => if h ∈ t.window.handles then [.release h] else []
  | .change .drain => t.window.handles.map .release
  | .call c => [c]
  | _ => []

/-- The calls of a run of acts, each with the backend that is in its place before the act that makes it. -/
def routed (bs : Backends B σ) (t : Table B σ) : List (Act B) → List (B × Call)
  | [] => []
  | a :: as => (t.calls a).map (fun c => (t.routing.target.get c.primitive, c)) ++ (t.act bs a).2.routed bs as

/-- The table behind a run of acts. -/
def reached (bs : Backends B σ) (t : Table B σ) (as : List (Act B)) : Table B σ :=
  as.foldl (fun t a => (t.act bs a).2) t

theorem wellFormed_act (hw : t.window.WellFormed) (a : Act B) : (t.act bs a).2.window.WellFormed := by
  rcases a with (e | h | h | ⟨old, e⟩ | _) | c | _ | o
  · exact hw.push e
  · exact hw.erase h
  · change (t.window.untrack bs h t.routing t.state).2.1.WellFormed
    rw [window_untrack]
    exact hw.erase h
  · exact hw.replace old e
  · exact hw.clear
  · exact hw
  · exact hw
  · exact hw

theorem state_act (hw : t.window.WellFormed) (a : Act B) :
    (t.act bs a).2.state = (bs.serveAll t.routing.target (t.calls a) t.state).2 := by
  rcases a with (e | h | h | ⟨old, e⟩ | _) | c | _ | o
  · rfl
  · rfl
  · change (t.window.untrack bs h t.routing t.state).2.2.2 = _
    by_cases hm : h ∈ t.window.handles
    · obtain ⟨w, huntrack, -⟩ := untrack_of_mem bs hw hm t.routing t.state
      rw [huntrack, calls, if_pos hm]
      rfl
    · rw [untrack, hw.erase_of_notMem hm, calls, if_neg hm]
      rfl
  · rfl
  · exact congrArg (fun x => x.2.state) (drain_spec bs hw)
  · rfl
  · rfl
  · rfl

/-- The states of a run of acts come from each other through the calls of the run. -/
theorem took_reached (bs : Backends B σ) {t : Table (Counted B) (Tallied (σ × List (Served B σ)))}
    (hw : t.window.WellFormed) (as : List (Act (Counted B))) :
    t.state.Took (t.routed bs.logged.counted as) (t.reached bs.logged.counted as).state := by
  induction as generalizing t with
  | nil => exact .nil t.state
  | cons a as ih =>
    have hstep := Tallied.Took.serveAll bs t.routing.target (t.calls a) t.state
    rw [← state_act hw a] at hstep
    exact hstep.append (ih (wellFormed_act hw a))

end Table

end Window

namespace Tracker

/-- With any wrappers around the backends that it puts in place, a run of a tracker from the start gives the same
answers and notices but for the names in them, and keeps the window, its slots included, all counters and the state of
the backends as it would without wrappers; and the same calls reach the backends.  The same goes for a run of a window
with a routing.  Every wrapper counts the calls that pass it, which are those sent to a place in which it stood or was
around what stood there, and nothing else.  So if one wrapper was in all places since the last exchange, what it has
counted of releases since then are the blocks that were released and those that were drained. -/
theorem wrappers_transparent (bs : Backends B σ) (st : Settings) (s : σ) (tallies : Array Tally) :
    let all := bs.logged.counted
    let start : Tallied (σ × List (Served B σ)) := ⟨(s, []), tallies⟩
    (∀ ops : List (Operation (Counted B)),
      let t := create st
      (t.run all ops start).map (fun o => (o.along Counted.core Tallied.base).anonymous) =
        ((create st).run bs.logged (ops.map (·.map Counted.core)) (s, [])).map Outcome.anonymous ∧
      start.Took (t.routed all ops start) (t.after all ops start).2 ∧
      ∀ past rest id name inner, ops = past ++ rest →
        let now := t.after all past start
        let xs := now.1.steps all rest now.2
        (now.1.routing all).target = .all (.counting id name inner) → id ∉ inner.layers →
          (∀ op ∈ rest.dropLast, ∀ o, op ≠ .exchange o) →
            (t.after all ops start).2.count? id .release =
              (now.2.count? id .release).map (· + (xs.countP Step.released + total (xs.map Step.drained)))) ∧
    ∀ (r : Routing (Counted B)) (acts : List (Window.Act (Counted B))),
      let t : Window.Table (Counted B) (Tallied (σ × List (Served B σ))) := ⟨.create st.capacity, r, start⟩
      (t.acts all acts).map (fun x => (x.1, x.2.map Counted.core Tallied.base)) =
        (t.map Counted.core Tallied.base).acts bs.logged (acts.map (·.map Counted.core)) ∧
      start.Took (t.routed all acts) (t.reached all acts).state := by
  intro all start
  refine ⟨fun ops => ?_, fun r acts => ?_⟩
  · intro t
    have hw : t.window.WellFormed := .create st.capacity_pos
    refine ⟨?_, took_after bs hw ops start, ?_⟩
    · exact (run_map bs.logged.core_hom t ops start).symm
    · intro past rest id name inner hops now xs ht hid hrest
      subst hops
      rw [after_append]
      have hl : (now.1.ledger all).Balanced := balanced_after hw (balanced_create all st) past start
      exact count?_release bs (wellFormed_after hw past start) hl hid ht hrest now.2
  · intro t
    exact ⟨(Window.Table.acts_map bs.logged.core_hom t acts).symm,
      Window.Table.took_reached bs (t := t) (.create st.capacity_pos) acts⟩

/-- One wrapper around a shelf and another one around both.  The first is in all places and then gives up that for
`allocate` to the second, which takes all places at last.  Each is passed by a request that fails, the first also by the
calls that pass the second, and the last exchange drains through both. -/
theorem wrappers_transparent_nested :
    let block (n : Nat) : Handle := ⟨n + 1, Nat.succ_ne_zero n⟩
    let st : Settings := ⟨4, .platform, by decide⟩
    let inner : Counted Kind := .counting 0 "inner" (.plain .system)
    let outer : Counted Kind := .counting 1 "outer" inner
    let past : List (Operation (Counted Kind)) :=
      [.allocate 8, .exchange (.all inner), .allocate 1000, .exchange ⟨some outer, none, none, none⟩, .allocate 8,
       .zeroAllocate 8, .exchange (.all outer)]
    let rest : List (Operation (Counted Kind)) :=
      [.allocate 16, .reallocate none 24, .allocate 1000, .release (block 0), .release (block 7), .exchange .none]
    let all := Shelves.backends.logged.counted
    let start : Tallied (Shelves × List (Served Kind Shelves)) := ⟨(.empty, []), #[.all 0, .all 0]⟩
    let last := (create st).after all (past ++ rest) start
    let now := (create st).after all past start
    ((create st).run all (past ++ rest) start).map (fun o => (o.along Counted.core Tallied.base).anonymous) =
      ((create st).run Shelves.backends.logged ((past ++ rest).map (·.map Counted.core)) (.empty, [])).map
        Outcome.anonymous ∧
    last.2.count? 1 .release = (now.2.count? 1 .release).map (· + (1 + 1)) ∧
    last.2.tallies.toList = [⟨4, 1, 1, 4⟩, ⟨3, 0, 1, 2⟩] ∧ last.2.base.2.length = 12 := by
  intro block st inner outer past rest all start last now
  have hreleased : (now.1.steps all rest now.2).countP Step.released = 1 := by decide +kernel
  have hdrained : total ((now.1.steps all rest now.2).map Step.drained) = 1 := by decide +kernel
  have hrest : ∀ op ∈ rest.dropLast, ∀ o, op ≠ .exchange o := by
    intro op hop o
    simp only [rest, List.dropLast, List.mem_cons, List.not_mem_nil, or_false] at hop
    rcases hop with rfl | rfl | rfl | rfl | rfl <;> exact nofun
  have htarget : (now.1.routing all).target = .all outer :=
    PerPrimitive.ext_get fun p => (target_of_run all st past start p).trans (by cases p <;> rfl)
  have htallies : last.2.tallies.toList = [⟨4, 1, 1, 4⟩, ⟨3, 0, 1, 2⟩] := by decide +kernel
  have hlength : last.2.base.2.length = 12 := by decide +kernel
  subst last now start all
  obtain ⟨hruns, -⟩ := wrappers_transparent Shelves.backends st .empty #[.all 0, .all 0]
  obtain ⟨hrun, -, hlast⟩ := hruns (past ++ rest)
  have hreleases := hlast past rest 1 "outer" inner rfl htarget (by decide) hrest
  rw [hreleased, hdrained] at hreleases
  exact ⟨hrun, hreleases, htallies, hlength⟩

end Tracker

end BlockTracker
