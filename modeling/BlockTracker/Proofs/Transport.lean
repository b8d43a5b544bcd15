import BlockTracker.Proofs.Layout
import BlockTracker.Proofs.Refinement
import BlockTracker.Proofs.Relabelling

/-!
# Backends in the place of others

Other backends may serve in the place of those of a run.  If they answer the same and keep their state in step
(`Backends.Hom`), then a tracker does over them what it does over the first ones, with each backend written as the one
in its place (`Tracker.run_map`), and so does a window with a routing (`Window.Table.acts_map`).  For all that a backend
is asked for is an answer to a call, and its name, which is only shown.
-/

namespace BlockTracker

variable {B B' σ σ' α : Type}

/-- Calling `f b` answers what calling `b` answers, and changes what `g` shows of the state in the same way. -/
structure Backends.Hom (bs : Backends B σ) (bs' : Backends B' σ') (f : B → B') (g : σ → σ') : Prop where
  builtin : ∀ kind, bs'.builtin kind = f (bs.builtin kind)
  serve : ∀ b c s, bs'.serve (f b) c (g s) = ((bs.serve b c s).1, g (bs.serve b c s).2)

/-! ### Writing `f b` for `b` -/

def Override.map (f : B → B') (o : Override B) : Override B' := PerPrimitive.map (Option.map f) o

def Routing.map (f : B → B') (r : Routing B) : Routing B' := ⟨r.target.map f, r.live⟩

def Selection.map (f : B → B') (sel : Selection B) : Selection B' := ⟨sel.active.map (·.map f), sel.default⟩

def Operation.map (f : B → B') : Operation B → Operation B'
  | .install => .install
  | .allocate bytes => .allocate bytes
  | .zeroAllocate bytes => .zeroAllocate bytes
  | .reallocate old bytes => .reallocate old bytes
  | .release h => .release h
  | .collect => .collect
  | .exchange o => .exchange (o.map f)
  | .liveCount => .liveCount
  | .isTracked h => .isTracked h
  | .stats => .stats

def Tracker.map (f : B → B') (t : Tracker B) : Tracker B' :=
  ⟨t.selection.map f, t.window, t.untrackedReleases, t.drainedTotal, t.swaps⟩

def Outcome.along (f : B → B') (g : σ → σ') (o : Outcome B σ α) : Outcome B' σ' α :=
  ⟨o.value, o.notice, o.tracker.map f, g o.state⟩

/-! ### Without the names -/

def Answer.anonymous : Answer → Answer
  | .stats st => .stats st.anonymous
  | a => a

def Notice.anonymous : Notice → Notice
  | .installed _ capacity => .installed "" capacity
  | .exchanged drained _ _ => .exchanged drained (.all "") (.all "")
  | n => n

/-- All of an outcome but the names of backends that it shows. -/
def Outcome.anonymous (o : Outcome B σ Answer) : Outcome B σ Answer :=
  ⟨o.value.anonymous, o.notice.map Notice.anonymous, o.tracker, o.state⟩

variable {bs : Backends B σ} {bs' : Backends B' σ'} {f : B → B'} {g : σ → σ'}

/-! ### Routings and selections -/

theorem Routing.override_map (f : B → B') (r : Routing B) (o : Override B) :
    (r.map f).override (o.map f) = (r.override o).map f := by
  have htarget : ((r.map f).override (o.map f)).target = ((r.override o).map f).target := by
    refine PerPrimitive.ext_get fun p => ?_
    simp only [override, map, Override.map, PerPrimitive.get_zipWith, PerPrimitive.get_map]
    cases o.get p <;> rfl
  exact congrArg (Routing.mk · r.live) htarget

namespace Backends.Hom

theorem serveAll (h : bs.Hom bs' f g) (target : PerPrimitive B) (cs : List Call) (s : σ) :
    bs'.serveAll (target.map f) cs (g s) = ((bs.serveAll target cs s).1, g (bs.serveAll target cs s).2) := by
  have aux (cs : List Call) (a : Option Handle) (s : σ) :
      cs.foldl (fun p c => bs'.serve ((target.map f).get c.primitive) c p.2) (a, g s) =
        ((cs.foldl (fun p c => bs.serve (target.get c.primitive) c p.2) (a, s)).1,
          g (cs.foldl (fun p c => bs.serve (target.get c.primitive) c p.2) (a, s)).2) := by
    induction cs generalizing a s with
    | nil => rfl
    | cons c cs ih =>
      rw [List.foldl_cons, List.foldl_cons, PerPrimitive.get_map, h.serve]
      exact ih _ _
  exact aux cs none s

theorem call (h : bs.Hom bs' f g) (r : Routing B) (c : Call) (s : σ) :
    (r.map f).call bs' c (g s) = ((r.call bs c s).1, (r.call bs c s).2.1.map f, g (r.call bs c s).2.2) := by
  simp only [Routing.call, Routing.map, PerPrimitive.get_map, h.serve]

theorem current (h : bs.Hom bs' f g) (sel : Selection B) : (sel.map f).current bs' = (sel.current bs).map f := by
  obtain ⟨_ | r, kind⟩ := sel
  · simp only [Selection.current, Selection.map, Option.map_none, Option.getD_none, h.builtin]
    rfl
  · rfl

theorem ensure (h : bs.Hom bs' f g) (sel : Selection B) : (sel.map f).ensure bs' = (sel.ensure bs).map f := by
  rw [Selection.ensure, h.current]
  rfl

theorem install (h : bs.Hom bs' f g) (sel : Selection B) :
    (sel.map f).install bs' = ((sel.install bs).1, (sel.install bs).2.map f) := by
  have hinstalled : (sel.map f).isInstalled = sel.isInstalled := Option.isSome_map
  rw [Selection.install, Selection.install, hinstalled, h.ensure]

theorem selectionCall (h : bs.Hom bs' f g) (sel : Selection B) (c : Call) (s : σ) :
    (sel.map f).call bs' c (g s) =
      ((sel.call bs c s).1, (sel.call bs c s).2.1.map f, g (sel.call bs c s).2.2) := by
  simp only [Selection.call, h.current, h.call]
  rfl

theorem untrack (h : bs.Hom bs' f g) (w : Window) (block : Handle) (r : Routing B) (s : σ) :
    w.untrack bs' block (r.map f) (g s) =
      ((w.untrack bs block r s).1, (w.untrack bs block r s).2.1, (w.untrack bs block r s).2.2.1.map f,
        g (w.untrack bs block r s).2.2.2) := by
  unfold Window.untrack
  rcases w.erase block with ⟨_ | e, w'⟩
  · rfl
  · simp only [h.call]

theorem drain (h : bs.Hom bs' f g) (w : Window) (r : Routing B) (s : σ) :
    w.drain bs' (r.map f) (g s) =
      ((w.drain bs r s).1, (w.drain bs r s).2.1, (w.drain bs r s).2.2.1.map f, g (w.drain bs r s).2.2.2) := by
  rw [Window.drain_eq, Window.drain_eq, Routing.map, h.serveAll]
  rfl

end Backends.Hom

/-! ### Operations of a tracker -/

namespace Tracker

theorem routing_map (h : bs.Hom bs' f g) (t : Tracker B) : (t.map f).routing bs' = (t.routing bs).map f :=
  h.current t.selection

private theorem takeIn_map (f : B → B') (g : σ → σ') (t : Tracker B) (op : Primitive) (bytes : Nat)
    (answer : Option Handle) (s : σ) :
    (t.map f).takeIn op bytes answer (g s) = (t.takeIn op bytes answer s).along f g := by
  rcases answer with _ | block
  · rfl
  · simp only [takeIn, map]
    rcases t.window.push ⟨block, bytes⟩ with ⟨_ | _, w⟩ <;> rfl

private theorem request_map (h : bs.Hom bs' f g) (t : Tracker B) (c : Call) (s : σ) :
    (t.map f).request bs' c (g s) = (t.request bs c s).along f g := by
  have hcall : (t.map f).selection.call bs' c (g s) = _ := h.selectionCall t.selection c s
  simp only [request, hcall]
  exact takeIn_map f g { t with selection := (t.selection.call bs c s).2.1 } c.primitive c.bytes _ _

private theorem vanished_map (h : bs.Hom bs' f g) (t : Tracker B) (old : Handle) (s : σ) :
    (t.map f).vanished bs' old (g s) = (t.vanished bs old s).along f g := by
  -- the routing is looked up before the tracker is taken apart
  simp only [vanished, routing_map h]
  simp only [map]
  rcases t.window.erase old with ⟨_ | e, w⟩ <;> rfl

private theorem resize_map (h : bs.Hom bs' f g) (t : Tracker B) (old : Handle) (bytes : Nat) (s : σ) :
    (t.map f).resize bs' old bytes (g s) = (t.resize bs old bytes s).along f g := by
  have hcall : (t.map f).selection.call bs' (.reallocate (some old) bytes) (g s) = _ := h.selectionCall t.selection _ s
  simp only [resize, hcall]
  rcases t.selection.call bs (.reallocate (some old) bytes) s with ⟨_ | new, sel, s'⟩
  · by_cases hb : bytes = 0
    · simp only [hb, ↓reduceIte]
      exact vanished_map h { t with selection := sel } old s'
    · simp only [hb, ↓reduceIte]
      rfl
  · rfl

private theorem release_map (h : bs.Hom bs' f g) (t : Tracker B) (block : Handle) (s : σ) :
    (t.map f).release bs' block (g s) = (t.release bs block s).along f g := by
  simp only [release, routing_map h]
  simp only [map, h.untrack]
  rcases t.window.untrack bs block (t.routing bs) s with ⟨_ | _, w, r, s'⟩ <;> rfl

private theorem collect_map (h : bs.Hom bs' f g) (t : Tracker B) (s : σ) :
    (t.map f).collect bs' (g s) = (t.collect bs s).along f g := by
  simp only [collect, routing_map h]
  simp only [map, h.drain]
  rfl

private theorem liveCount_map (h : bs.Hom bs' f g) (t : Tracker B) (s : σ) :
    (t.map f).liveCount bs' (g s) = (t.liveCount bs s).along f g := by
  have hensure : (t.map f).selection.ensure bs' = (t.selection.ensure bs).map f := h.ensure t.selection
  simp only [liveCount, hensure]
  rfl

/-- An exchange tells the names of the backends before and after it. -/
private theorem exchange_map (h : bs.Hom bs' f g) (t : Tracker B) (o : Override B) (s : σ) :
    (((t.map f).exchange bs' (o.map f) (g s)).map Answer.count).anonymous =
      (((t.exchange bs o s).along f g).map Answer.count).anonymous := by
  simp only [exchange, routing_map h]
  simp only [map, h.drain, Routing.override_map]
  rfl

/-- An installation tells the name of the default backend. -/
private theorem install_map (h : bs.Hom bs' f g) (t : Tracker B) (s : σ) :
    (((t.map f).install bs' (g s)).map Answer.flag).anonymous =
      (((t.install bs s).along f g).map Answer.flag).anonymous := by
  have hinstall : (t.map f).selection.install bs' = _ := h.install t.selection
  simp only [install, hinstall]
  rcases t.selection.install bs with ⟨_ | _, sel⟩ <;> rfl

/-- The figures tell the names of the backends in use. -/
private theorem stats_map (h : bs.Hom bs' f g) (t : Tracker B) (s : σ) :
    (((t.map f).stats bs' (g s)).map Answer.stats).anonymous =
      (((t.stats bs s).along f g).map Answer.stats).anonymous := by
  have hensure : (t.map f).selection.ensure bs' = (t.selection.ensure bs).map f := h.ensure t.selection
  simp only [stats, routing_map h, hensure]
  rfl

/-- An operation does the same over other backends, but for the names that it shows. -/
theorem perform_map (h : bs.Hom bs' f g) (t : Tracker B) (op : Operation B) (s : σ) :
    ((t.map f).perform bs' (op.map f) (g s)).anonymous = ((t.perform bs op s).along f g).anonymous := by
  cases op with
  | allocate bytes => exact congrArg (fun o => (o.map Answer.block).anonymous) (request_map h t (.allocate bytes) s)
  | zeroAllocate bytes =>
    exact congrArg (fun o => (o.map Answer.block).anonymous) (request_map h t (.zeroAllocate bytes) s)
  | reallocate old bytes =>
    rcases old with _ | old
    · exact congrArg (fun o => (o.map Answer.block).anonymous) (request_map h t (.reallocate none bytes) s)
    · exact congrArg (fun o => (o.map Answer.block).anonymous) (resize_map h t old bytes s)
  | release block => exact congrArg (fun o => (o.map Answer.release).anonymous) (release_map h t block s)
  | collect => exact congrArg (fun o => (o.map Answer.count).anonymous) (collect_map h t s)
  | liveCount => exact congrArg (fun o => (o.map Answer.count).anonymous) (liveCount_map h t s)
  | isTracked block => rfl
  | exchange o => exact exchange_map h t o s
  | install => exact install_map h t s
  | stats => exact stats_map h t s

/-- A run does the same over other backends, but for the names that it shows. -/
theorem run_map (h : bs.Hom bs' f g) (t : Tracker B) (ops : List (Operation B)) (s : σ) :
    ((t.map f).run bs' (ops.map (·.map f)) (g s)).map Outcome.anonymous =
      (t.run bs ops s).map fun o => (o.along f g).anonymous := by
  induction ops generalizing t s with
  | nil => rfl
  | cons op ops ih =>
    have hstep := perform_map h t op s
    have htracker : ((t.map f).perform bs' (op.map f) (g s)).tracker = (t.perform bs op s).tracker.map f :=
      congrArg (·.tracker) hstep
    have hstate : ((t.map f).perform bs' (op.map f) (g s)).state = g (t.perform bs op s).state :=
      congrArg (·.state) hstep
    simp only [List.map_cons, run, hstep, htracker, hstate, ih]

end Tracker

/-! ### A window with a routing -/

namespace Window

/-- What is done with a window and the routing that its blocks go back to: the window is changed, a call is sent through
the routing, a block is counted that its backend has taken back by itself, or backends are put in place. -/
inductive Act (B : Type)
  | change (c : Change)
  | call (c : Call)
  | forget
  | override (o : Override B)

/-- What an act answers.  The answer to a release means nothing. -/
inductive Act.Reply
  | changed (r : Window.Reply)
  | answered (block : Option Handle)
  | done

def Act.map (f : B → B') : Act B → Act B'
  | .change c => .change c
  | .call c => .call c
  | .forget => .forget
  | .override o => .override (o.map f)

namespace Table

def map (f : B → B') (g : σ → σ') (t : Table B σ) : Table B' σ' := ⟨t.window, t.routing.map f, g t.state⟩

def act (bs : Backends B σ) (t : Table B σ) : Act B → Act.Reply × Table B σ
  | .change c =>
    let (r, t) := t.apply bs c
    (.changed r, t)
  | .call c =>
    let (answer, routing, state) := t.routing.call bs c t.state
    (.answered answer, ⟨t.window, routing, state⟩)
  | .forget => (.done, { t with routing := t.routing.forget })
  | .override o => (.done, { t with routing := t.routing.override o })

/-- Does the acts of a list in order; each with its reply and the table behind it. -/
def acts (bs : Backends B σ) (t : Table B σ) : List (Act B) → List (Act.Reply × Table B σ)
  | [] => []
  | a :: as => t.act bs a :: (t.act bs a).2.acts bs as

private theorem apply_map (h : bs.Hom bs' f g) (t : Table B σ) (c : Change) :
    (t.map f g).apply bs' c = ((t.apply bs c).1, (t.apply bs c).2.map f g) := by
  cases c with
  | untrack block =>
    simp only [apply, map, h.untrack]
  | drain => simp only [apply, map, h.drain]
  | _ => rfl

theorem act_map (h : bs.Hom bs' f g) (t : Table B σ) (a : Act B) :
    (t.map f g).act bs' (a.map f) = ((t.act bs a).1, (t.act bs a).2.map f g) := by
  cases a with
  | change c =>
    simp only [act, Act.map, apply_map h]
  | call c =>
    have hcall : (t.map f g).routing.call bs' c (t.map f g).state = _ := h.call t.routing c t.state
    simp only [act, Act.map, hcall]
    rfl
  | forget => rfl
  | override o =>
    have hroute : (t.map f g).routing.override (o.map f) = _ := t.routing.override_map f o
    simp only [act, Act.map, hroute]
    rfl

/-- A run of acts does the same over other backends. -/
theorem acts_map (h : bs.Hom bs' f g) (t : Table B σ) (as : List (Act B)) :
    (t.map f g).acts bs' (as.map (·.map f)) = (t.acts bs as).map fun x => (x.1, x.2.map f g) := by
  induction as generalizing t with
  | nil => rfl
  | cons a as ih => rw [List.map_cons, acts, acts, List.map_cons, act_map h, ih]

end Table

end Window

end BlockTracker
