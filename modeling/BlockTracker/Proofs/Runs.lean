import BlockTracker.Proofs.Refinement

/-!
# Runs and the calls they make

Where a run of a tracker leads (`Tracker.after`), the steps it takes (`Tracker.steps`), and the calls it makes of the
backends (`Tracker.callLog`).  The calls are those that reach backends which keep a log of them (`Backends.logged`);
a tracker with the same ledger makes the same calls (`callLog_cons`).
-/

namespace BlockTracker

variable {B σ : Type}

/-- One step of a run. -/
structure Step (B σ : Type) where
  before : Tracker B
  op : Operation B
  outcome : Outcome B σ Answer

/-- A call with the backend that it reached, the state it found and its answer. -/
structure Served (B σ : Type) where
  backend : B
  call : Call
  before : σ
  answer : Option Handle

/-- The same backends, with a log of the calls that reach them. -/
def Backends.logged (bs : Backends B σ) : Backends B (σ × List (Served B σ)) where
  name := bs.name
  builtin := bs.builtin
  serve b c s :=
    let (answer, s') := bs.serve b c s.1
    (answer, s', s.2 ++ [⟨b, c, s.1, answer⟩])

namespace Tracker

def steps (bs : Backends B σ) (t : Tracker B) : List (Operation B) → σ → List (Step B σ)
  | [], _ => []
  | op :: ops, s =>
    let o := t.perform bs op s
    ⟨t, op, o⟩ :: o.tracker.steps bs ops o.state

/-- The tracker and the state of the backends behind a run. -/
def after (bs : Backends B σ) (t : Tracker B) : List (Operation B) → σ → Tracker B × σ
  | [], s => (t, s)
  | op :: ops, s =>
    let o := t.perform bs op s
    o.tracker.after bs ops o.state

/-- The calls that a run makes, in order. -/
def callLog (bs : Backends B σ) (t : Tracker B) (ops : List (Operation B)) (s : σ) : List (Served B σ) :=
  (t.after bs.logged ops (s, [])).2.2

/-- Every operation of a run is one that `P` allows where it stands. -/
def Allowed (bs : Backends B σ) (P : Tracker B → Operation B → σ → Prop) (t : Tracker B) :
    List (Operation B) → σ → Prop
  | [], _ => True
  | op :: ops, s =>
    let o := t.perform bs op s
    P t op s ∧ o.tracker.Allowed bs P ops o.state

theorem run_eq_steps (bs : Backends B σ) (t : Tracker B) (ops : List (Operation B)) (s : σ) :
    t.run bs ops s = (t.steps bs ops s).map (·.outcome) := by
  induction ops generalizing t s with
  | nil => rfl
  | cons op ops ih => rw [run, steps, List.map_cons, ih]

theorem after_append (bs : Backends B σ) (t : Tracker B) (ops ops' : List (Operation B)) (s : σ) :
    t.after bs (ops ++ ops') s = (t.after bs ops s).1.after bs ops' (t.after bs ops s).2 := by
  induction ops generalizing t s with
  | nil => rfl
  | cons op ops ih => exact ih _ _

theorem wellFormed_after {bs : Backends B σ} {t : Tracker B} (hw : t.window.WellFormed) (ops : List (Operation B))
    (s : σ) : (t.after bs ops s).1.window.WellFormed := by
  induction ops generalizing t s with
  | nil => exact hw
  | cons op ops ih => exact ih (wellFormed_perform hw op s) _

end Tracker

/-! ### Calls -/

/-- The calls of a list as they are served one after the other. -/
def Backends.trail (bs : Backends B σ) (target : PerPrimitive B) : List Call → σ → List (Served B σ)
  | [], _ => []
  | c :: cs, s =>
    let r := bs.serve (target.get c.primitive) c s
    ⟨target.get c.primitive, c, s, r.1⟩ :: bs.trail target cs r.2

theorem Backends.calls_trail (bs : Backends B σ) (target : PerPrimitive B) (cs : List Call) (s : σ) :
    (bs.trail target cs s).map (·.call) = cs := by
  induction cs generalizing s with
  | nil => rfl
  | cons c cs ih => rw [trail, List.map_cons, ih]

/-- Logging backends serve the same and log what they are called for. -/
theorem Backends.serveAll_logged (bs : Backends B σ) (target : PerPrimitive B) (cs : List Call) (s : σ)
    (log : List (Served B σ)) :
    bs.logged.serveAll target cs (s, log) =
      ((bs.serveAll target cs s).1, (bs.serveAll target cs s).2, log ++ bs.trail target cs s) := by
  -- the answer of the call before does not count, so it may be anything
  have aux : ∀ (cs : List Call) (a : Option Handle) (s : σ) (log : List (Served B σ)),
      cs.foldl (fun p c => bs.logged.serve (target.get c.primitive) c p.2) (a, s, log) =
        ((cs.foldl (fun p c => bs.serve (target.get c.primitive) c p.2) (a, s)).1,
          (cs.foldl (fun p c => bs.serve (target.get c.primitive) c p.2) (a, s)).2, log ++ bs.trail target cs s) := by
    intro cs
    induction cs with
    | nil => intro a s log; simp [Backends.trail]
    | cons c cs ih =>
      intro a s log
      simp only [List.foldl_cons]
      refine (ih ..).trans ?_
      simp [Backends.trail]
  exact aux cs none s log

/-- An operation of a ledger over logging backends does the same and logs its calls. -/
private theorem perform_logged (bs : Backends B σ) (l : Ledger B) (op : Operation B) (s : σ)
    (log : List (Served B σ)) :
    l.perform bs.logged op (s, log) =
      ((l.perform bs op s).1, (l.perform bs op s).2.1, (l.perform bs op s).2.2,
        log ++ bs.trail l.target (l.calls op) s) := by
  simp only [Ledger.perform, Backends.serveAll_logged]
  rfl

/-- The calls of a run of a ledger. -/
def Ledger.callLog (bs : Backends B σ) (l : Ledger B) : List (Operation B) → σ → List (Served B σ)
  | [], _ => []
  | op :: ops, s =>
    let r := l.perform bs op s
    bs.trail l.target (l.calls op) s ++ r.2.1.callLog bs ops r.2.2

namespace Tracker

variable {t : Tracker B}

private theorem log_after (bs : Backends B σ) (hw : t.window.WellFormed) (ops : List (Operation B)) (s : σ)
    (log : List (Served B σ)) :
    (t.after bs.logged ops (s, log)).2.2 = log ++ (t.ledger bs).callLog bs ops s := by
  induction ops generalizing t s log with
  | nil => exact (List.append_nil log).symm
  | cons op ops ih =>
    -- the log is part of the state only, so the ledger is the same with and without it
    have hv := (view_perform bs.logged hw op (s, log)).trans (perform_logged bs (t.ledger bs) op s log)
    have hl : (t.perform bs.logged op (s, log)).tracker.ledger bs = ((t.ledger bs).perform bs op s).2.1 :=
      congrArg (fun v => v.2.1) hv
    have hs : (t.perform bs.logged op (s, log)).state =
        (((t.ledger bs).perform bs op s).2.2, log ++ bs.trail (t.ledger bs).target ((t.ledger bs).calls op) s) :=
      congrArg (fun v => v.2.2) hv
    rw [after, hs, ih (wellFormed_perform hw op _), hl, List.append_assoc]
    rfl

/-- The calls of a run are those of its ledger. -/
theorem callLog_eq (bs : Backends B σ) (hw : t.window.WellFormed) (ops : List (Operation B)) (s : σ) :
    t.callLog bs ops s = (t.ledger bs).callLog bs ops s := log_after bs hw ops s []

/-- The calls of a run are those of its first operation and then those of the rest. -/
theorem callLog_cons (bs : Backends B σ) (hw : t.window.WellFormed) (op : Operation B) (ops : List (Operation B))
    (s : σ) :
    t.callLog bs (op :: ops) s =
      bs.trail (t.ledger bs).target ((t.ledger bs).calls op) s ++
        (t.perform bs op s).tracker.callLog bs ops (t.perform bs op s).state := by
  rw [callLog_eq bs hw, callLog_eq bs (wellFormed_perform hw op s), Ledger.callLog, ← view_perform bs hw op s]
  rfl

end Tracker

end BlockTracker
