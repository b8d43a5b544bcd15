import BlockTracker.Proofs.Runs

/-!
# Routes of calls

Which backend a call reaches.  The backend in the place of a primitive is the one that the latest exchange brought for
it, or that of the default kind as long as none has (`Backends.placed`), whichever operation came first.  So the calls
of a run are known from its operations and its windows alone (`calls_routed`): each operation makes the calls of its
ledger, in order, to the backends that were in place before it.
-/

namespace BlockTracker

variable {B σ : Type}

/-- The backend that an operation puts in the place of a primitive, if any. -/
def Operation.places (p : Primitive) : Operation B → Option B
  | .exchange o => o.get p
  | _ => none

/-- Whether an operation sees to it that there is some backend in place. -/
def Operation.installs : Operation B → Bool
  | .isTracked _ => false
  | _ => true

/-- The backend in the place of a primitive behind some operations. -/
def Backends.placed (bs : Backends B σ) (kind : Kind) (past : List (Operation B)) (p : Primitive) : B :=
  (past.filterMap (Operation.places p)).getLast?.getD (bs.builtin kind)

/-- Whether a step was the one that installed the default backend by being asked to. -/
def Step.installed (x : Step B σ) : Bool :=
  match x.op, x.outcome.value with
  | .install, .flag b => b
  | _, _ => false

theorem Backends.placed_concat (bs : Backends B σ) (kind : Kind) (past : List (Operation B)) (op : Operation B)
    (p : Primitive) : bs.placed kind (past ++ [op]) p = (op.places p).getD (bs.placed kind past p) := by
  unfold placed
  rw [List.filterMap_append]
  rcases h : op.places p with _ | b
  · rw [List.filterMap_cons_none h, List.filterMap_nil, List.append_nil]
    rfl
  · rw [List.filterMap_cons_some h, List.filterMap_nil, List.getLast?_concat]
    rfl

/-- The calls of a list with the backends that they reach. -/
theorem Backends.routes_trail (bs : Backends B σ) (target : PerPrimitive B) (cs : List Call) (s : σ) :
    (bs.trail target cs s).map (fun x => (x.backend, x.call)) = cs.map fun c => (target.get c.primitive, c) := by
  induction cs generalizing s with
  | nil => rfl
  | cons c cs ih => rw [trail, List.map_cons, ih, List.map_cons]

/-! ### Ledgers -/

namespace Ledger

variable {l : Ledger B} {kind : Kind} {past : List (Operation B)}

/-- An exchange puts the backends that it brings in their places; nothing else does. -/
theorem get_target_update (l : Ledger B) (op : Operation B) (answer : Option Handle) (p : Primitive) :
    (l.update op answer).target.get p = (op.places p).getD (l.target.get p) := by
  by_cases hop : ∃ o, op = .exchange o
  · obtain ⟨o, rfl⟩ := hop
    exact PerPrimitive.get_zipWith ..
  · have hplaces : op.places p = none := by
      cases op with
      | exchange o => exact absurd ⟨o, rfl⟩ hop
      | _ => rfl
    rw [target_update l fun o ho => hop ⟨o, ho⟩, hplaces]
    rfl

theorem installed_update (l : Ledger B) (op : Operation B) (answer : Option Handle) :
    (l.update op answer).installed = (l.installed || op.installs) := by
  cases op with
  | isTracked h => exact (Bool.or_false _).symm
  | install => exact (Bool.or_true _).symm
  | liveCount => exact (Bool.or_true _).symm
  | stats => exact (Bool.or_true _).symm
  | collect => exact (Bool.or_true _).symm
  | exchange o => exact (Bool.or_true _).symm
  | allocate bytes => exact (installed_grant ..).trans (Bool.or_true _).symm
  | zeroAllocate bytes => exact (installed_grant ..).trans (Bool.or_true _).symm
  | reallocate old bytes =>
    rcases old with _ | old
    · exact (installed_grant ..).trans (Bool.or_true _).symm
    · rcases answer with _ | new
      · simp only [update]
        split
        · exact (installed_strike ..).trans (Bool.or_true _).symm
        · exact (Bool.or_true _).symm
      · exact (Bool.or_true _).symm
  | release h =>
    simp only [update]
    split
    · exact (installed_strike ..).trans (Bool.or_true _).symm
    · exact (Bool.or_true _).symm

/-- The backends that are in place behind the operations of a list. -/
structure Placed (bs : Backends B σ) (kind : Kind) (past : List (Operation B)) (l : Ledger B) : Prop where
  target : ∀ p, l.target.get p = bs.placed kind past p
  installed : l.installed = past.any Operation.installs

theorem Placed.update {bs : Backends B σ} (hl : l.Placed bs kind past) (op : Operation B) (answer : Option Handle) :
    (l.update op answer).Placed bs kind (past ++ [op]) where
  target p := by rw [get_target_update, bs.placed_concat, hl.target]
  installed := by
    rw [installed_update, hl.installed, List.any_append, List.any_cons, List.any_nil, Bool.or_false]

theorem Placed.fresh (bs : Backends B σ) (st : Settings) : (Ledger.fresh bs st).Placed bs st.kind [] where
  target _ := PerPrimitive.get_all ..
  installed := rfl

end Ledger

/-! ### Runs -/

namespace Tracker

variable {bs : Backends B σ} {t : Tracker B} {kind : Kind} {past : List (Operation B)}

theorem placed_perform (hw : t.window.WellFormed) (hp : (t.ledger bs).Placed bs kind past) (op : Operation B) (s : σ) :
    ((t.perform bs op s).tracker.ledger bs).Placed bs kind (past ++ [op]) := by
  rw [(perform_spec bs hw op s).2.1]
  exact hp.update ..

theorem placed_after (hw : t.window.WellFormed) (hp : (t.ledger bs).Placed bs kind past) (ops : List (Operation B))
    (s : σ) : ((t.after bs ops s).1.ledger bs).Placed bs kind (past ++ ops) := by
  induction ops generalizing t past s with
  | nil => rwa [List.append_nil]
  | cons op ops ih =>
    rw [List.append_cons]
    exact ih (wellFormed_perform hw op s) (placed_perform hw hp op s) _

/-- The backends in use behind a run from a fresh tracker. -/
theorem target_of_run (bs : Backends B σ) (st : Settings) (ops : List (Operation B)) (s : σ) (p : Primitive) :
    (((create st).after bs ops s).1.routing bs).target.get p = bs.placed st.kind ops p := by
  have hfresh : ((create st).ledger bs).Placed bs st.kind [] := by
    rw [ledger_create]
    exact .fresh bs st
  exact (placed_after (.create st.capacity_pos) hfresh ops s).target p

/-- Each step makes the calls of its ledger to the backends that were in place before it. -/
theorem routes_callLog (hw : t.window.WellFormed) (hp : (t.ledger bs).Placed bs kind past) (ops : List (Operation B))
    (s : σ) :
    ((t.callLog bs ops s).map fun x => (x.backend, x.call)) =
      ((t.steps bs ops s).zipIdx past.length).flatMap fun x =>
        ((x.1.before.ledger bs).calls x.1.op).map fun c => (bs.placed kind ((past ++ ops).take x.2) c.primitive, c) := by
  induction ops generalizing t past s with
  | nil => rfl
  | cons op ops ih =>
    have htake : (past ++ op :: ops).take past.length = past := List.take_left
    have hlen : (past ++ [op]).length = past.length + 1 := List.length_append
    have hroutes : (bs.trail (t.ledger bs).target ((t.ledger bs).calls op) s).map (fun x => (x.backend, x.call)) =
        ((t.ledger bs).calls op).map fun c => (bs.placed kind past c.primitive, c) := by
      rw [bs.routes_trail]
      exact List.map_congr_left fun c _ => by rw [hp.target]
    rw [callLog_cons bs hw, List.map_append, hroutes, ih (wellFormed_perform hw op s) (placed_perform hw hp op s),
      steps, List.zipIdx_cons, List.flatMap_cons, htake, hlen, ← List.append_cons]

/-- The default backend is installed by being asked for once at most. -/
theorem count_installed_le (hw : t.window.WellFormed) (ops : List (Operation B)) (s : σ) :
    (t.steps bs ops s).countP Step.installed ≤ (!(t.ledger bs).installed).toNat := by
  induction ops generalizing t s with
  | nil => exact Nat.zero_le _
  | cons op ops ih =>
    have hrest := ih (t := (t.perform bs op s).tracker) (wellFormed_perform hw op s) (t.perform bs op s).state
    have hstep : (Step.mk t op (t.perform bs op s)).installed = true →
        op = .install ∧ (t.ledger bs).installed = false := by
      intro h
      cases op with
      | install =>
        have hnot : (!(t.ledger bs).installed) = true := h
        exact ⟨rfl, by rwa [Bool.not_eq_true'] at hnot⟩
      | _ => cases h
    rw [(perform_spec bs hw op s).2.1, Ledger.installed_update] at hrest
    rw [steps, List.countP_cons]
    by_cases h : (Step.mk t op (t.perform bs op s)).installed = true
    · obtain ⟨rfl, hnot⟩ := hstep h
      rw [hnot] at hrest ⊢
      rw [if_pos h]
      exact Nat.succ_le_succ hrest
    · rw [if_neg h]
      refine Nat.le_trans hrest ?_
      cases (t.ledger bs).installed
      · exact Bool.toNat_le _
      · exact Nat.le_refl _

/-- The calls of a run from a fresh tracker, one operation after the other: an allocation and a resize make one call,
a release makes one if its block is in the window, a collection and an exchange release the blocks of the window in
order, and nothing else calls.  A call reaches the backend that was in its place before the operation, which is the one
of the latest exchange that brought one for it, or that of the default kind.  Something is in place from the first
operation on that does more than look a block up, and only an installation that comes before says that it installed
the default. -/
theorem calls_routed (bs : Backends B σ) (st : Settings) (ops : List (Operation B)) (s : σ) :
    let t := create st
    ((t.callLog bs ops s).map fun x => (x.backend, x.call)) =
      (t.steps bs ops s).zipIdx.flatMap (fun x =>
        ((x.1.before.ledger bs).calls x.1.op).map fun c => (bs.placed st.kind (ops.take x.2) c.primitive, c)) ∧
    (∀ past rest, ops = past ++ rest → ∀ p,
      ((t.after bs past s).1.selection.active.map (·.target.get p)) =
        if past.any Operation.installs then some (bs.placed st.kind past p) else none) ∧
    (∀ past rest, ops = past ++ .install :: rest →
      ((t.after bs past s).1.install bs (t.after bs past s).2).value = !past.any Operation.installs) ∧
    (t.steps bs ops s).countP Step.installed ≤ 1 := by
  intro t
  have hw : t.window.WellFormed := .create st.capacity_pos
  have hp : (t.ledger bs).Placed bs st.kind [] := by
    rw [ledger_create]
    exact .fresh bs st
  have hplaced (past : List (Operation B)) : ((t.after bs past s).1.ledger bs).Placed bs st.kind past :=
    placed_after hw hp past s
  refine ⟨routes_callLog hw hp ops s, ?_, ?_, ?_⟩
  · intro past rest _ p
    obtain ⟨htarget, hinstalled⟩ := hplaced past
    rw [← htarget p, ← hinstalled]
    generalize (t.after bs past s).1 = t'
    rcases t' with ⟨⟨_ | active, kind⟩, window, untracked, drained, swaps⟩
    · rfl
    · rfl
  · intro past rest _
    rw [← (hplaced past).installed]
    rfl
  · refine Nat.le_trans (count_installed_le hw ops s) (Bool.toNat_le _)

end Tracker

end BlockTracker
