import BlockTracker.Process
import BlockTracker.Proofs.Runs

/-!
# Calls from C

Every call that a process exports but two asks the tracker for one operation and hands its answer back as a number
(`Process.perform_eq_enter`); a copy and a null pointer that is freed do not need the tracker.  So a process does what
somebody with a tracker in hand would do (`Desk`): the tracker that it has set up, or would set up if it were asked.
If the table of that tracker can be laid out, every run of calls shows the run of the tracker; if it cannot, every
call that needs the tracker fails to set it up and gives its fallback, and none is ever there (`calls_of_process`).
-/

namespace BlockTracker

/-- A call that a process exports. -/
inductive Export (F : Type)
  | init
  | alloc (bytes : UInt32)
  | clearAlloc (bytes : UInt32)
  | realloc (ptr : Nat) (bytes : UInt32)
  | free (ptr : Nat)
  | collect
  | allocCount
  | copy (dst src : Nat) (count : UInt32)
  | changeCalls (table : Option (FunctionTable F))
  | useSystemAllocator

variable {F B σ α β : Type}

namespace Export

/-- The operation of the tracker that a call asks for, if it needs the tracker at all. -/
def operation? (bs : Backends (WithTables F B) σ) : Export F → Option (Operation (WithTables F B))
  | init => some .install
  | alloc bytes => some (.allocate bytes.toNat)
  | clearAlloc bytes => some (.zeroAllocate bytes.toNat)
  | realloc ptr bytes => some (.reallocate (Handle.ofAddr? ptr) bytes.toNat)
  | free ptr => (Handle.ofAddr? ptr).map .release
  | collect => some .collect
  | allocCount => some .liveCount
  | copy .. => none
  | changeCalls table => some (.exchange ((table.map (·.toOverride)).getD .none))
  | useSystemAllocator => some (.exchange (.all (bs.builtin .system)))

/-- What a call gives back for the answer of its operation; the calls that exchange backends give nothing back. -/
def returned : Export F → Answer → Option Nat
  | changeCalls _, _ | useSystemAllocator, _ => none
  | collect, .count n => some (min n (Nat.pow 2 32 - 1))
  | allocCount, .count n => some (min n (Nat.pow 2 31 - 1))
  | _, .flag b => some b.toNat
  | _, .block (.ok h) => some h.addr
  | _, .block (.error _) => some 0
  | _, .release .released => some 1
  | _, .release .untracked => some 0
  | _, _ => some 0

def asksForBlock : Export F → Bool
  | alloc _ | clearAlloc _ | realloc .. => true
  | _ => false

/-- What a call gives back that cannot have the tracker that it needs. -/
def fallback : Export F → Option Nat
  | changeCalls _ | useSystemAllocator => none
  | _ => some 0

/-- What a call does by itself: a copy between two pointers that are not null, or nothing. -/
def aside [ByteStore σ] : Export F → σ → Option Nat × σ
  | copy dst src count, s =>
    if dst = 0 ∨ src = 0 then (some 0, s)
    else
      let (n, s) := copyRaw s (some dst) (some src) count.toNat
      (some n, s)
  | _, s => (some 0, s)

/-- The answer that stands for that of an operation which never took place. -/
def missing : Export F → Answer
  | init => .flag false
  | alloc bytes | clearAlloc bytes | realloc _ bytes => .block (.error (.outOfMemory bytes.toNat))
  | free _ => .release .untracked
  | _ => .count 0

theorem returned_block {e : Export F} (he : e.asksForBlock = true) (result : Except Failure Handle) :
    e.returned (.block result) = some (Process.pointerOf result) := by
  cases e with
  | alloc bytes => cases result <;> rfl
  | clearAlloc bytes => cases result <;> rfl
  | realloc ptr bytes => cases result <;> rfl
  | _ => cases he

theorem returned_missing (e : Export F) : e.returned e.missing = e.fallback := by
  cases e <;> rfl

end Export

/-- A tracker in hand, with the state of its backends. -/
structure Desk (B σ : Type) where
  tracker : Tracker B
  state : σ

/-- Answers a call with a tracker in hand. -/
def Desk.perform [ByteStore σ] (bs : Backends (WithTables F B) σ) (d : Desk (WithTables F B) σ) (e : Export F) :
    Option Nat × Desk (WithTables F B) σ :=
  match e.operation? bs with
  | some op =>
    let o := d.tracker.perform bs op d.state
    (e.returned o.value, ⟨o.tracker, o.state⟩)
  | none =>
    let (n, state) := e.aside d.state
    (n, { d with state })

def Desk.run [ByteStore σ] (bs : Backends (WithTables F B) σ) (d : Desk (WithTables F B) σ) :
    List (Export F) → List (Option Nat × Desk (WithTables F B) σ)
  | [] => []
  | e :: es =>
    let r := d.perform bs e
    r :: r.2.run bs es

theorem Desk.wellFormed_perform [ByteStore σ] {bs : Backends (WithTables F B) σ} {d : Desk (WithTables F B) σ}
    (hw : d.tracker.window.WellFormed) (e : Export F) : (d.perform bs e).2.tracker.window.WellFormed := by
  unfold perform
  split
  · exact Tracker.wellFormed_perform hw _ d.state
  · exact hw

/-- A call of a process, what it gave back, and the process before and after. -/
structure Visit (F B σ : Type) where
  before : Process (WithTables F B) σ
  call : Export F
  returned : Option Nat
  after : Process (WithTables F B) σ

namespace Process

/-- The tracker that a process has, or would set up. -/
def desk (p : Process B σ) : Desk B σ := ⟨p.tracker.getD (.create p.config.1), p.state⟩

def perform [ByteStore σ] (bs : Backends (WithTables F B) σ) (p : Process (WithTables F B) σ) :
    Export F → Option Nat × Process (WithTables F B) σ
  | .init => Prod.map some id (p.init bs)
  | .alloc bytes => Prod.map some id (p.alloc bs bytes)
  | .clearAlloc bytes => Prod.map some id (p.clearAlloc bs bytes)
  | .realloc ptr bytes => Prod.map some id (p.realloc bs ptr bytes)
  | .free ptr => Prod.map some id (p.free bs ptr)
  | .collect => Prod.map some id (p.collect bs)
  | .allocCount => Prod.map some id (p.allocCount bs)
  | .copy dst src count => Prod.map some id (p.copy dst src count)
  | .changeCalls table => (none, p.changeCalls bs table)
  | .useSystemAllocator => (none, p.useSystemAllocator bs)

def visits [ByteStore σ] (bs : Backends (WithTables F B) σ) (p : Process (WithTables F B) σ) :
    List (Export F) → List (Visit F B σ)
  | [] => []
  | e :: es =>
    let r := p.perform bs e
    ⟨p, e, r.1, r.2⟩ :: r.2.visits bs es

/-! ### Entering the tracker -/

variable {p : Process B σ}

/-- What is done with an answer may be done inside or outside. -/
theorem enter_map (p : Process B σ) (fallback : α) (act : Tracker B → σ → Outcome B σ α) (f : α → β) :
    p.enter (f fallback) (fun t s => (act t s).map f) = Prod.map f id (p.enter fallback act) := by
  unfold enter
  split <;> rfl

/-- The tracker can be had: it is there, or its table can be laid out. -/
def Usable (p : Process B σ) : Prop := p.tracker = none → Window.fits p.config.1.capacity = true

theorem ready_of_usable (hp : p.Usable) :
    ∃ settings, p.ready = ⟨p.environment, settings, some p.desk.tracker, p.state⟩ := by
  obtain ⟨environment, settings, _ | t, state⟩ := p
  · exact ⟨_, if_pos (hp rfl)⟩
  · exact ⟨settings, rfl⟩

theorem ready_of_not_usable (hp : ¬ p.Usable) : p.tracker = none ∧ p.ready = p.config.2 := by
  obtain ⟨environment, settings, _ | t, state⟩ := p
  · exact ⟨rfl, if_neg fun h => hp fun _ => h⟩
  · exact absurd nofun hp

theorem enter_of_usable (hp : p.Usable) (fallback : α) (act : Tracker B → σ → Outcome B σ α) :
    let o := act p.desk.tracker p.desk.state
    let r := p.enter fallback act
    r.1 = o.value ∧ r.2.tracker = some o.tracker ∧ r.2.state = o.state := by
  obtain ⟨settings, hready⟩ := ready_of_usable hp
  simp only [enter, hready]
  exact ⟨rfl, rfl, rfl⟩

theorem enter_of_not_usable (hp : ¬ p.Usable) (fallback : α) (act : Tracker B → σ → Outcome B σ α) :
    p.enter fallback act = (fallback, p.config.2) := by
  obtain ⟨hnone, hready⟩ := ready_of_not_usable hp
  obtain ⟨environment, settings, tracker, state⟩ := p
  cases hnone
  simp only [enter, hready]
  rfl

/-! ### Calls -/

section Calls

variable [ByteStore σ] {bs : Backends (WithTables F B) σ} {p : Process (WithTables F B) σ} {e : Export F}
  {op : Operation (WithTables F B)}

omit [ByteStore σ] in
private theorem map_returned_enter (p : Process (WithTables F B) σ) (e : Export F) (f : α → Answer) (fallback : α)
    (act : Tracker (WithTables F B) → σ → Outcome (WithTables F B) σ α) {g : α → Option Nat}
    (h : ∀ a, e.returned (f a) = g a) :
    Prod.map e.returned id (p.enter (f fallback) fun t s => (act t s).map f) =
      Prod.map g id (p.enter fallback act) := by
  have hcomp : e.returned ∘ f = g := funext h
  rw [enter_map, Prod.map_map, hcomp, Function.comp_id]

/-- A call that needs the tracker asks it for its operation. -/
theorem perform_eq_enter (p : Process (WithTables F B) σ) (h : e.operation? bs = some op) :
    p.perform bs e = Prod.map e.returned id (p.enter e.missing fun t s => t.perform bs op s) := by
  cases e with
  | init =>
    cases h
    exact (p.map_returned_enter .init .flag false (fun t s => t.install bs s) fun _ => rfl).symm
  | alloc bytes =>
    cases h
    exact (p.map_returned_enter (.alloc bytes) .block (.error (.outOfMemory bytes.toNat))
      (fun t s => t.allocate bs bytes.toNat s) (Export.returned_block rfl)).symm
  | clearAlloc bytes =>
    cases h
    exact (p.map_returned_enter (.clearAlloc bytes) .block (.error (.outOfMemory bytes.toNat))
      (fun t s => t.zeroAllocate bs bytes.toNat s) (Export.returned_block rfl)).symm
  | realloc ptr bytes =>
    cases h
    exact (p.map_returned_enter (.realloc ptr bytes) .block (.error (.outOfMemory bytes.toNat))
      (fun t s => t.reallocate bs (Handle.ofAddr? ptr) bytes.toNat s) (Export.returned_block rfl)).symm
  | free ptr =>
    obtain ⟨handle, hptr, rfl⟩ := Option.map_eq_some_iff.1 h
    refine Eq.trans ?_ (p.map_returned_enter (.free ptr) .release .untracked (fun t s => t.release bs handle s)
      (g := fun o => some (if o = .released then 1 else 0)) fun o => by cases o <;> rfl).symm
    simp only [perform, free, hptr]
    rfl
  | collect =>
    cases h
    exact (p.map_returned_enter .collect .count 0 (fun t s => t.collect bs s) fun _ => rfl).symm
  | allocCount =>
    cases h
    exact (p.map_returned_enter .allocCount .count 0 (fun t s => t.liveCount bs s) fun _ => rfl).symm
  | copy dst src count => cases h
  | changeCalls table =>
    cases h
    exact (p.map_returned_enter (.changeCalls table) .count 0
      (fun t s => t.exchange bs ((table.map (·.toOverride)).getD .none) s) fun _ => rfl).symm
  | useSystemAllocator =>
    cases h
    exact (p.map_returned_enter .useSystemAllocator .count 0
      (fun t s => t.exchange bs (.all (bs.builtin .system)) s) fun _ => rfl).symm

/-- A call that does not need the tracker leaves it alone, whether it is there or not. -/
theorem perform_eq_aside (p : Process (WithTables F B) σ) (h : e.operation? bs = none) :
    p.perform bs e = ((e.aside p.state).1, { p with state := (e.aside p.state).2 }) := by
  cases e with
  | free ptr =>
    have hptr : Handle.ofAddr? ptr = none := Option.map_eq_none_iff.1 h
    simp only [perform, free, hptr]
    rfl
  | copy dst src count =>
    obtain ⟨environment, settings, tracker, s⟩ := p
    have hcount : min count.toNat (Nat.pow 2 32 - 1) = count.toNat :=
      Nat.min_eq_left (Nat.le_pred_of_lt count.toNat_lt)
    simp only [perform, copy, Export.aside]
    by_cases hdst : dst = 0
    · simp [hdst, copyRaw]
    · by_cases hsrc : src = 0
      · simp [hsrc, copyRaw]
      · simp only [hdst, hsrc, or_self, ↓reduceIte, copyRaw, hcount]
        rfl
  | _ => cases h

/-- With a tracker that can be had, a call does what it does with that tracker in hand. -/
theorem perform_of_usable (hp : p.Usable) (e : Export F) :
    (p.perform bs e).1 = (p.desk.perform bs e).1 ∧ (p.perform bs e).2.desk = (p.desk.perform bs e).2 ∧
      (p.perform bs e).2.Usable ∧
      ((p.perform bs e).2.tracker.isSome ↔ p.tracker.isSome ∨ (e.operation? bs).isSome) := by
  rcases hop : e.operation? bs with _ | op
  · rw [perform_eq_aside p hop]
    simp only [Desk.perform, hop]
    exact ⟨rfl, rfl, hp, by simp⟩
  · obtain ⟨hvalue, htracker, hstate⟩ := enter_of_usable hp e.missing fun t s => t.perform bs op s
    rw [perform_eq_enter p hop]
    simp only [Desk.perform, hop]
    refine ⟨congrArg e.returned hvalue, ?_, ?_, ?_⟩
    · simp only [desk, Prod.map_snd, id_eq, htracker, hstate, Option.getD_some]
    · intro hnone
      rw [Prod.map_snd, id_eq, htracker] at hnone
      cases hnone
    · simp only [Prod.map_snd, id_eq, htracker, Option.isSome_some, or_true]

/-- Without a tracker that can be had, a call gives its fallback if it needs one, and there still is none. -/
theorem perform_of_not_usable (hp : ¬ p.Usable) (e : Export F) :
    (p.perform bs e).2.tracker = none ∧ ¬ (p.perform bs e).2.Usable ∧
      ((e.operation? bs).isSome → p.ready.tracker = none ∧ p.perform bs e = (e.fallback, p.config.2)) := by
  obtain ⟨hnone, hready⟩ := ready_of_not_usable hp
  rcases hop : e.operation? bs with _ | op
  · rw [perform_eq_aside p hop]
    exact ⟨hnone, hp, nofun⟩
  · have hperform : p.perform bs e = (e.fallback, p.config.2) := by
      rw [perform_eq_enter p hop, enter_of_not_usable hp]
      exact Prod.ext e.returned_missing rfl
    rw [hperform]
    exact ⟨hnone, hp, fun _ => ⟨hready ▸ hnone, rfl⟩⟩

/-! ### Runs -/

/-- What every call keeps holds all along a run of calls. -/
theorem forall_visits {I : Process (WithTables F B) σ → Prop} {P : Visit F B σ → Prop}
    (hI : ∀ p e, I p → I (p.perform bs e).2) (hP : ∀ p e, I p → P ⟨p, e, (p.perform bs e).1, (p.perform bs e).2⟩)
    (hp : I p) (calls : List (Export F)) : ∀ x ∈ p.visits bs calls, P x := by
  induction calls generalizing p with
  | nil => exact fun x hx => absurd hx List.not_mem_nil
  | cons e es ih =>
    intro x hx
    rcases List.mem_cons.1 hx with rfl | hx
    · exact hP p e hp
    · exact ih (hI p e hp) x hx

theorem visits_of_usable (hp : p.Usable) (calls : List (Export F)) :
    (p.visits bs calls).map (fun x => (x.returned, x.after.desk)) = p.desk.run bs calls := by
  induction calls generalizing p with
  | nil => rfl
  | cons e es ih =>
    obtain ⟨hreturned, hdesk, husable, -⟩ := perform_of_usable hp e
    rw [visits, List.map_cons, ih husable, hreturned, hdesk]
    rfl

end Calls

end Process

namespace Visit

/-- What the tracker answers to a call that asks it for an operation. -/
def answer? (bs : Backends (WithTables F B) σ) (x : Visit F B σ) : Option Answer :=
  (x.call.operation? bs).map fun op => (x.before.desk.tracker.perform bs op x.before.desk.state).value

/-- The call gives the address of the block that it was answered, which is not null, or null if there was none. -/
def Points (bs : Backends (WithTables F B) σ) (x : Visit F B σ) : Prop :=
  (∃ h, x.answer? bs = some (.block (.ok h)) ∧ x.returned = some h.addr ∧ h.addr ≠ 0) ∨
    ∃ f, x.answer? bs = some (.block (.error f)) ∧ x.returned = some 0

/-- The call releases the blocks of the window in order, counts one exchange and keeps all backends in place. -/
def OnlyDrains (bs : Backends (WithTables F B) σ) (x : Visit F B σ) : Prop :=
  let l := x.before.desk.tracker.ledger bs
  x.after.desk.tracker.ledger bs = { l.ready.drain with swaps := l.swaps + 1 } ∧
    x.after.state = (bs.serveAll l.target (l.handles.map .release) x.before.state).2

variable [ByteStore σ] {bs : Backends (WithTables F B) σ} {p : Process (WithTables F B) σ}

theorem points_of_usable (hp : p.Usable) {e : Export F} (he : e.asksForBlock = true) :
    Points bs ⟨p, e, (p.perform bs e).1, (p.perform bs e).2⟩ := by
  obtain ⟨hreturned, -⟩ := Process.perform_of_usable hp e
  obtain ⟨result, hanswer, hresult⟩ : ∃ result,
      answer? bs ⟨p, e, (p.perform bs e).1, (p.perform bs e).2⟩ = some (.block result) ∧
        (p.desk.perform bs e).1 = e.returned (.block result) := by
    cases e with
    | alloc bytes => exact ⟨_, rfl, rfl⟩
    | clearAlloc bytes => exact ⟨_, rfl, rfl⟩
    | realloc ptr bytes => exact ⟨_, rfl, rfl⟩
    | _ => cases he
  rw [Export.returned_block he, ← hreturned] at hresult
  cases result with
  | ok h => exact .inl ⟨h, hanswer, hresult, h.addr_ne_zero⟩
  | error f => exact .inr ⟨f, hanswer, hresult⟩

theorem onlyDrains_of_usable (hp : p.Usable) (hw : p.desk.tracker.window.WellFormed) :
    OnlyDrains bs
      ⟨p, .changeCalls none, (p.perform bs (.changeCalls none)).1, (p.perform bs (.changeCalls none)).2⟩ := by
  obtain ⟨-, hdesk, -⟩ := Process.perform_of_usable hp (.changeCalls none)
  obtain ⟨-, hledger, hstate⟩ := Tracker.perform_spec bs hw (.exchange .none) p.desk.state
  exact ⟨(congrArg (fun d => d.tracker.ledger bs) hdesk).trans hledger, (congrArg Desk.state hdesk).trans hstate⟩

end Visit

/-- A process without a tracker, whose settings are those of its environment or were read before.  A call that does not
need the tracker never reaches it.  If its table can be laid out, any run of calls gives back what they give back to
somebody with the tracker in hand and leads to the same trackers and states; the tracker is set up by the first call
that needs it.  A request gives the address of its block just if it is answered one, and a null table of functions
only drains.  If the table cannot be laid out, every call that needs the tracker fails to set it up, gives its fallback
and leaves the backends alone, and there is never a tracker. -/
theorem calls_of_process [ByteStore σ] (bs : Backends (WithTables F B) σ) (environment : Environment)
    (cached : Option Settings) (s : σ) (calls : List (Export F)) :
    let p : Process (WithTables F B) σ := ⟨environment, cached, none, s⟩
    let st := p.config.1
    (∀ x ∈ p.visits bs calls, x.call.operation? bs = none →
      x.returned = (x.call.aside x.before.state).1 ∧
        x.after = { x.before with state := (x.call.aside x.before.state).2 }) ∧
    (Window.fits st.capacity = true →
      (p.visits bs calls).map (fun x => (x.returned, x.after.desk)) = Desk.run bs ⟨.create st, s⟩ calls ∧
      ∀ x ∈ p.visits bs calls,
        (x.after.tracker.isSome ↔ x.before.tracker.isSome ∨ (x.call.operation? bs).isSome) ∧
        (x.call.asksForBlock = true → x.Points bs) ∧ (x.call = .changeCalls none → x.OnlyDrains bs)) ∧
    (Window.fits st.capacity = false →
      ∀ x ∈ p.visits bs calls, x.after.tracker = none ∧
        ((x.call.operation? bs).isSome →
          x.before.ready.tracker = none ∧ x.returned = x.call.fallback ∧ x.after.state = x.before.state)) := by
  intro p st
  refine ⟨?_, fun hfits => ⟨?_, ?_⟩, fun hfits => ?_⟩
  · refine Process.forall_visits (I := fun _ => True) (fun _ _ _ => trivial) (fun p e _ hop => ?_) trivial calls
    rw [Process.perform_eq_aside p hop]
    exact ⟨rfl, rfl⟩
  · exact Process.visits_of_usable (fun _ => hfits) calls
  · have hwindow : p.desk.tracker.window.WellFormed := .create st.capacity_pos
    refine Process.forall_visits (I := fun p => p.Usable ∧ p.desk.tracker.window.WellFormed) ?_ ?_
      ⟨fun _ => hfits, hwindow⟩ calls
    · rintro p e ⟨hp, hw⟩
      obtain ⟨-, hdesk, husable, -⟩ := Process.perform_of_usable hp e
      exact ⟨husable, hdesk ▸ Desk.wellFormed_perform hw e⟩
    · rintro p e ⟨hp, hw⟩
      obtain ⟨-, -, -, htracker⟩ := Process.perform_of_usable hp e
      refine ⟨htracker, Visit.points_of_usable hp, ?_⟩
      rintro rfl
      exact Visit.onlyDrains_of_usable hp hw
  · have hstuck : ¬ p.Usable := fun hp => Bool.false_ne_true (hfits.symm.trans (hp rfl))
    refine Process.forall_visits (I := fun p => ¬ p.Usable) ?_ ?_ hstuck calls
    · exact fun p e hp => (Process.perform_of_not_usable hp e).2.1
    · intro p e hp
      obtain ⟨hnone, -, hcall⟩ := Process.perform_of_not_usable hp e
      refine ⟨hnone, fun hop => ?_⟩
      obtain ⟨hready, hperform⟩ := hcall hop
      exact ⟨hready, congrArg Prod.fst hperform, congrArg (fun r => r.2.state) hperform⟩

/-- The same calls of a process with two slots and of one with too many. -/
theorem calls_of_process_two_and_too_many :
    let bs : Backends (WithTables Unit Kind) (Array UInt8) :=
      ⟨fun _ => "given", .own, fun _ c s => (Handle.ofAddr? c.bytes, s)⟩
    let start (st : Settings) : Process (WithTables Unit Kind) (Array UInt8) :=
      ⟨⟨none, none⟩, some st, none, #[1, 2, 3]⟩
    let calls : List (Export Unit) :=
      [.free 0, .copy 1 2 1, .alloc 8, .alloc 0, .free 8, .free 8, .realloc 0 9, .changeCalls none, .allocCount]
    ((start ⟨2, .platform, by decide⟩).visits bs calls).map (·.returned) =
      [some 0, some 1, some 8, some 0, some 1, some 0, some 9, none, some 0] ∧
    ((start ⟨2, .platform, by decide⟩).visits bs calls).map (·.after.tracker.isSome) =
      [false, false, true, true, true, true, true, true, true] ∧
    ((start ⟨Nat.pow 2 59, .system, by decide⟩).visits bs calls).map (·.returned) =
      [some 0, some 1, some 0, some 0, some 0, some 0, some 0, none, some 0] ∧
    ∀ x ∈ (start ⟨Nat.pow 2 59, .system, by decide⟩).visits bs calls, x.after.tracker = none := by
  intro bs start calls
  refine ⟨by decide, by decide, by decide, fun x hx => ?_⟩
  obtain ⟨-, -, hlost⟩ := calls_of_process bs ⟨none, none⟩ (some ⟨Nat.pow 2 59, .system, by decide⟩) #[1, 2, 3] calls
  exact (hlost (by decide) x hx).1

end BlockTracker
