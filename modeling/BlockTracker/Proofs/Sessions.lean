import BlockTracker.Proofs.Separation

/-!
# Sessions

A client names a block by the step that answered it, and reads the handles that it is shown back as such names
(`Blocks.name?`).  In a session over separate backends the names of the blocks that the client may still use stay right
(`Named.perform`), so what a step shows hangs on the names alone, and two sessions of a client whose requests succeed
at the same steps show the same (`Session.Twins.play`).
-/

namespace BlockTracker

variable {B C σ : Type}

/-! ### Names -/

/-- The blocks that the steps of a session answered, the latest step first. -/
abbrev Blocks : Type := List (Option Handle)

namespace Blocks

variable {blocks : Blocks} {h h' : Handle} {k : Nat}

/-- The block that a step answered. -/
def at? : Blocks → Nat → Option Handle
  | [], _ => none
  | x :: xs, k => if k = xs.length then x else at? xs k

/-- The latest step that answered a block. -/
def name? : Blocks → Handle → Option Nat
  | [], _ => none
  | x :: xs, h => if x = some h then some xs.length else name? xs h

theorem name?_lt (hk : blocks.name? h = some k) : k < blocks.length := by
  induction blocks with
  | nil => cases hk
  | cons x xs ih =>
    rw [name?] at hk
    split at hk
    · cases hk
      exact Nat.lt_succ_self _
    · exact Nat.lt_succ_of_lt (ih hk)

theorem at?_of_name? (hk : blocks.name? h = some k) : blocks.at? k = some h := by
  induction blocks with
  | nil => cases hk
  | cons x xs ih =>
    rw [name?] at hk
    rw [at?]
    split at hk
    · next hx =>
      cases hk
      rw [if_pos rfl, hx]
    · rw [if_neg (Nat.ne_of_lt (name?_lt hk))]
      exact ih hk

theorem name?_inj (hk : blocks.name? h = some k) (hk' : blocks.name? h' = some k) : h = h' :=
  Option.some.inj ((at?_of_name? hk).symm.trans (at?_of_name? hk'))

theorem name?_cons_self (h : Handle) (xs : Blocks) : name? (some h :: xs) h = some xs.length := if_pos rfl

theorem name?_cons_of_ne {x : Option Handle} (hx : x ≠ some h) (xs : Blocks) : name? (x :: xs) h = name? xs h :=
  if_neg hx

/-- The names of the blocks that may still be used behind a step. -/
def usable (blocks : Blocks) (spent : List Handle) (given : Option Handle) (before : List Nat) : List Nat :=
  (before.filter fun k => ∀ h ∈ spent, blocks.name? h ≠ some k) ++ if given.isSome then [blocks.length] else []

theorem mem_usable {spent : List Handle} {given : Option Handle} {before : List Nat} :
    k ∈ blocks.usable spent given before ↔
      (k ∈ before ∧ ∀ h ∈ spent, blocks.name? h ≠ some k) ∨ (given.isSome ∧ k = blocks.length) := by
  rw [usable, List.mem_append, List.mem_filter, decide_eq_true_iff]
  split <;> simp [*]

/-- A handle that stands for the block that a step answered; blocks that no step answered share one. -/
def standIn (name : Option Nat) : Handle := ⟨name.elim 1 (· + 2), by cases name <;> simp⟩

/-- The name that a handle stands for. -/
def standsFor (h : Handle) : Option Nat := if h.addr < 2 then none else some (h.addr - 2)

theorem standsFor_standIn (name : Option Nat) : standsFor (standIn name) = name := by
  rcases name with _ | k
  · rfl
  · exact if_neg (by simp [standIn])

theorem standIn_inj {name name' : Option Nat} (h : standIn name = standIn name') : name = name' := by
  rw [← standsFor_standIn name, h, standsFor_standIn]

/-- Stand-ins for the blocks of a session. -/
def label (blocks : Blocks) (h : Handle) : Handle := standIn (blocks.name? h)

/-- A block with a name shares its stand-in with no other block. -/
theorem eq_of_label (hk : blocks.name? h = some k) (hl : blocks.label h' = blocks.label h) : h' = h :=
  name?_inj ((standIn_inj hl).trans hk) hk

end Blocks

/-! ### Orders and what they show -/

/-- An operation of a client that names blocks by the steps that answered them and exchanges all backends at once. -/
inductive Order (B : Type)
  | install
  | allocate (bytes : Nat)
  | zeroAllocate (bytes : Nat)
  | reallocate (old : Option Nat) (bytes : Nat)
  | release (block : Nat)
  | collect
  | exchange (b : B)
  | liveCount
  | isTracked (block : Nat)
  | stats

namespace Order

/-- The step whose block an order is about, if any. -/
def subject : Order B → Option Nat
  | .reallocate old _ => old
  | .release k | .isTracked k => some k
  | _ => none

/-- The step whose block an order resizes, if any. -/
def resized : Order B → Option Nat
  | .reallocate old _ => old
  | _ => none

/-- The same order with other backends. -/
def map (f : B → C) : Order B → Order C
  | .install => .install
  | .allocate bytes => .allocate bytes
  | .zeroAllocate bytes => .zeroAllocate bytes
  | .reallocate old bytes => .reallocate old bytes
  | .release k => .release k
  | .collect => .collect
  | .exchange b => .exchange (f b)
  | .liveCount => .liveCount
  | .isTracked k => .isTracked k
  | .stats => .stats

/-- The operation that an order asks for, if there is a block of the name in it. -/
def operation (block : Nat → Option Handle) : Order B → Option (Operation B)
  | .install => some .install
  | .allocate bytes => some (.allocate bytes)
  | .zeroAllocate bytes => some (.zeroAllocate bytes)
  | .reallocate none bytes => some (.reallocate none bytes)
  | .reallocate (some k) bytes => (block k).map fun h => .reallocate (some h) bytes
  | .release k => (block k).map .release
  | .collect => some .collect
  | .exchange b => some (.exchange (.all b))
  | .liveCount => some .liveCount
  | .isTracked k => (block k).map .isTracked
  | .stats => some .stats

/-- The operation that an order asks for, with stand-ins for the blocks. -/
def named (o : Order B) : Option (Operation Unit) :=
  (o.operation fun k => some (Blocks.standIn (some k))).map (Operation.relabel id)

end Order

/-- What a client sees of a tracker behind a step: its answer, and the window and the figures as they are now. -/
structure Scene where
  answer : Option (Reading (Option Nat))
  window : List (Option Nat × Nat)
  stats : Stats

namespace Scene

/-- Whether a step was answered a block. -/
def granted (sc : Scene) : Bool :=
  match sc.answer with
  | some (.block (.ok _)) => true
  | _ => false

end Scene

structure Session (B σ : Type) where
  tracker : Tracker B
  state : σ
  blocks : Blocks

namespace Session

def start (st : Settings) (s : σ) : Session B σ := ⟨.create st, s, []⟩

/-- Does an operation and tells what it was answered. -/
def perform (bs : Backends B σ) (ses : Session B σ) (op : Operation B) : Answer × Session B σ :=
  let r := ses.tracker.perform bs op ses.state
  (r.value, ⟨r.tracker, r.state, r.value.given :: ses.blocks⟩)

/-- Does an order and tells what it was answered.  An order with a name that no block has is passed over. -/
def step (bs : Backends B σ) (ses : Session B σ) (o : Order B) : Option Answer × Session B σ :=
  match o.operation ses.blocks.at? with
  | none => (none, { ses with blocks := none :: ses.blocks })
  | some op =>
    let (answer, ses) := ses.perform bs op
    (some answer, ses)

/-- What a client sees that reads handles back as names. -/
def scene (bs : Backends B σ) (ses : Session B σ) (answer : Option Answer) : Scene where
  answer := answer.map (Answer.read ses.blocks.name?)
  window := ses.tracker.window.entries.map fun e => (ses.blocks.name? e.handle, e.size)
  stats := (ses.tracker.figures bs (ses.tracker.routing bs)).anonymous

/-- What a client sees after each of its orders. -/
def play (bs : Backends B σ) (ses : Session B σ) : List (Order B) → List Scene
  | [] => []
  | o :: os =>
    let (answer, ses) := ses.step bs o
    ses.scene bs answer :: ses.play bs os

/-- The names that may still be used behind an order. -/
def usableAfter (bs : Backends B σ) (ses : Session B σ) (o : Order B) (usable : List Nat) : List Nat :=
  match o.operation ses.blocks.at? with
  | none => usable
  | some op =>
    let given := (ses.perform bs op).1.given
    ses.blocks.usable ((ses.tracker.ledger bs).spent op given) given usable

/-- What a client may order: it uses only blocks that it may still use, and resizes only live blocks of the backend in
use. -/
def Proper (bs : Backends B σ) (live : B → σ → Set Handle) (ses : Session B σ) (usable : List Nat) (o : Order B) :
    Prop :=
  (∀ k ∈ o.subject, k ∈ usable) ∧
  ∀ k ∈ o.resized, ∀ h ∈ ses.blocks.at? k, h ∈ live (ses.tracker.routing bs).target.reallocate ses.state

/-- Every order of a client is proper where it stands. -/
def Disciplined (bs : Backends B σ) (live : B → σ → Set Handle) (ses : Session B σ) (usable : List Nat) :
    List (Order B) → Prop
  | [] => True
  | o :: os =>
    ses.Proper bs live usable o ∧ (ses.step bs o).2.Disciplined bs live (ses.usableAfter bs o usable) os

instance decidableDisciplined (bs : Backends B σ) (live : B → σ → Set Handle) [∀ b s h, Decidable (h ∈ live b s)]
    (ses : Session B σ) (usable : List Nat) : (os : List (Order B)) → Decidable (ses.Disciplined bs live usable os)
  | [] => .isTrue trivial
  | o :: os =>
    have := decidableDisciplined bs live (ses.step bs o).2 (ses.usableAfter bs o usable) os
    inferInstanceAs (Decidable (((∀ k ∈ o.subject, k ∈ usable) ∧
      ∀ k ∈ o.resized, ∀ h ∈ ses.blocks.at? k, h ∈ live (ses.tracker.routing bs).target.reallocate ses.state) ∧
        (ses.step bs o).2.Disciplined bs live (ses.usableAfter bs o usable) os))

end Session

/-! ### One step -/

/-- The blocks that may still be used are live and are called by their names, and those of the window are among
them. -/
structure Named (bs : Backends B σ) (live : B → σ → Set Handle) (t : Tracker B) (s : σ) (blocks : Blocks)
    (usable : List Nat) : Prop where
  wellFormed : t.window.WellFormed
  owned : (t.ledger bs).Owned live s
  tracked : ∀ h ∈ t.window.handles, ∃ k ∈ usable, blocks.name? h = some k
  live : ∀ k ∈ usable, ∃ h b, blocks.name? h = some k ∧ h ∈ live b s

namespace Named

variable {bs : Backends B σ} {live : B → σ → Set Handle} {t : Tracker B} {s : σ} {blocks : Blocks} {usable : List Nat}
  {op : Operation B}

theorem create (bs : Backends B σ) (live : B → σ → Set Handle) (st : Settings) (s : σ) :
    Named bs live (.create st) s [] [] where
  wellFormed := .create st.capacity_pos
  owned := by
    rw [Tracker.ledger_create]
    exact ⟨_, rfl, .nil _⟩
  tracked h hm := by
    have hempty : (Tracker.create (B := B) st).window.handles = [] :=
      congrArg Ledger.handles (Tracker.ledger_create bs st)
    rw [hempty] at hm
    cases hm
  live k hk := absurd hk List.not_mem_nil

/-- Only a resize is about the block that it is answered. -/
private theorem mem_spent_of_subject {l : Ledger B} {answer : Option Handle} {h new : Handle}
    (hsubject : op.subject = some h) (hgiven : (l.reply bs op answer).given = some new) :
    h ∈ l.spent op (l.reply bs op answer).given := by
  cases op with
  | reallocate old bytes =>
    cases hsubject
    rw [hgiven]
    exact Ledger.mem_spent_moved.2 rfl
  | release block => cases hgiven
  | isTracked block => cases hgiven
  | _ => cases hsubject

/-- A live block that is answered is the one that was to be resized. -/
theorem mem_spent_of_live (hs : bs.Separate live) (hn : Named bs live t s blocks usable)
    (hg : (t.ledger bs).Guarded live s op) {h : Handle} {b : B} (hh : h ∈ live b s)
    (hgiven : (t.perform bs op s).value.given = some h) :
    h ∈ (t.ledger bs).spent op (t.perform bs op s).value.given := by
  obtain ⟨c, htarget, -⟩ := hn.owned
  rw [(Tracker.perform_spec bs hn.wellFormed op s).1] at hgiven ⊢
  rcases (Ledger.given_perform hs htarget hg hgiven).2 with hsubject | hfresh
  · exact mem_spent_of_subject hsubject hgiven
  · exact absurd hh (hfresh b)

private theorem named_perform (hs : bs.Separate live) (hn : Named bs live t s blocks usable)
    (hg : (t.ledger bs).Guarded live s op) :
    let o := t.perform bs op s
    let given := o.value.given
    Named bs live o.tracker o.state (given :: blocks) (blocks.usable ((t.ledger bs).spent op given) given usable) := by
  intro o given
  obtain ⟨b, htarget, howns⟩ := hn.owned
  have hv := Tracker.view_perform bs hn.wellFormed op s
  obtain ⟨hvalue, hledger, hstate⟩ := Tracker.perform_spec bs hn.wellFormed op s
  have hgiven : given = _ := congrArg Answer.given hvalue
  have hspent := Ledger.spent_given bs (t.ledger bs) op (bs.serveAll (t.ledger bs).target ((t.ledger bs).calls op) s).1
  have hupdate :=
    Ledger.update_given bs (t.ledger bs) op (bs.serveAll (t.ledger bs).target ((t.ledger bs).calls op) s).1
  rw [← hgiven] at hspent hupdate
  refine ⟨Tracker.wellFormed_perform hn.wellFormed op s, ?_, ?_, ?_⟩
  · have howned := (Ledger.safe_perform hs.sound hn.owned hg).owned
    rwa [← hv] at howned
  · intro h hm
    have hm : h ∈ ((t.ledger bs).update op given).handles := by
      rw [hupdate, ← hledger]
      exact hm
    by_cases hnew : given = some h
    · refine ⟨blocks.length, Blocks.mem_usable.2 (.inr ⟨by rw [hnew]; rfl, rfl⟩), ?_⟩
      rw [hnew]
      exact Blocks.name?_cons_self h blocks
    · obtain ⟨hin, hkept⟩ := (Ledger.mem_handles_update howns.nodup hm).resolve_left hnew
      obtain ⟨k, hk, hname⟩ := hn.tracked h hin
      have hnext : Blocks.name? (given :: blocks) h = some k := (Blocks.name?_cons_of_ne hnew blocks).trans hname
      refine ⟨k, Blocks.mem_usable.2 (.inl ⟨hk, fun x hx hxname => ?_⟩), hnext⟩
      exact hkept (Blocks.name?_inj hname hxname ▸ hx)
  · intro k hk
    rcases Blocks.mem_usable.1 hk with ⟨hk, hkept⟩ | ⟨hsome, rfl⟩
    · obtain ⟨h, c, hname, hlive⟩ := hn.live k hk
      have hnot : h ∉ (t.ledger bs).spent op given := fun hx => hkept h hx hname
      have hold : given ≠ some h := fun hnew => hnot (mem_spent_of_live hs hn hg hlive hnew)
      refine ⟨h, c, (Blocks.name?_cons_of_ne hold blocks).trans hname, ?_⟩
      rw [hspent] at hnot
      change h ∈ live c (t.perform bs op s).state
      rw [hstate]
      exact Ledger.live_perform hs htarget howns hg hlive hnot
    · obtain ⟨new, hnew⟩ := Option.isSome_iff_exists.1 hsome
      refine ⟨new, b, ?_, ?_⟩
      · rw [hnew]
        exact Blocks.name?_cons_self new blocks
      · change new ∈ live b (t.perform bs op s).state
        rw [hstate]
        exact (Ledger.given_perform hs htarget hg (hgiven.symm.trans hnew)).1

/-- One operation, in terms of the names alone. -/
theorem perform (hs : bs.Separate live) (hn : Named bs live t s blocks usable) (op : Operation B)
    (hg : (t.ledger bs).Guarded live s op)
    (hsubject : ∀ h, op.subject = some h → ∃ k ∈ usable, blocks.name? h = some k) :
    let o := t.perform bs op s
    let given := o.value.given
    let l := (t.ledger bs).relabel blocks.label
    let named := given.map fun _ => Blocks.standIn (some blocks.length)
    Named bs live o.tracker o.state (given :: blocks) (blocks.usable ((t.ledger bs).spent op given) given usable) ∧
      (o.tracker.ledger bs).relabel (Blocks.label (given :: blocks)) = l.update (op.relabel blocks.label) named ∧
      o.value.read (Blocks.name? (given :: blocks)) =
        (l.reply .anonymous (op.relabel blocks.label) named).read Blocks.standsFor := by
  intro o given l named
  obtain ⟨b, htarget, howns⟩ := hn.owned
  obtain ⟨hvalue, hledger, -⟩ := Tracker.perform_spec bs hn.wellFormed op s
  have hgiven : given = _ := congrArg Answer.given hvalue
  have hupdate :=
    Ledger.update_given bs (t.ledger bs) op (bs.serveAll (t.ledger bs).target ((t.ledger bs).calls op) s).1
  have hreply := Ledger.reply_given bs (t.ledger bs) op (bs.serveAll (t.ledger bs).target ((t.ledger bs).calls op) s).1
  rw [← hgiven] at hupdate hreply
  have hinj : ∀ h, op.subject = some h → ∀ x ∈ (t.ledger bs).handles, blocks.label x = blocks.label h → x = h := by
    intro h hop x _ hl
    obtain ⟨k, -, hname⟩ := hsubject h hop
    exact Blocks.eq_of_label hname hl
  have hnew (new : Handle) (h : given = some new) :
      Blocks.label (given :: blocks) new = Blocks.standIn (some blocks.length) := by
    rw [Blocks.label, h, Blocks.name?_cons_self]
  have hnamed : given.map (Blocks.label (given :: blocks)) = named := Option.map_congr hnew
  refine ⟨named_perform hs hn hg, ?_, ?_⟩
  · -- a block of the window that is answered is one that is resized, so its label may change
    have hf : ∀ x ∈ (t.ledger bs).handles, x ∉ (t.ledger bs).spent op given →
        Blocks.label (given :: blocks) x = blocks.label x := by
      intro x hx hkept
      have hold : given ≠ some x := fun h => hkept (mem_spent_of_live hs hn hg (howns.mem_live x hx) h)
      rw [Blocks.label, Blocks.name?_cons_of_ne hold, Blocks.label]
    have hrelabel := Ledger.relabel_update howns.nodup hinj hf
    rw [hnamed, hupdate, ← hledger] at hrelabel
    exact hrelabel
  · have hname (new : Handle) (_ : given = some new) :
        Blocks.name? (given :: blocks) new = Blocks.standsFor (Blocks.label (given :: blocks) new) :=
      (Blocks.standsFor_standIn _).symm
    have hread := Ledger.relabel_reply bs _ _ hname hinj
    rw [hnamed, hreply, ← hvalue] at hread
    exact hread

end Named

/-! ### Whole sessions -/

/-- An order about a block that may still be used stands for an operation on that block. -/
theorem Order.operation_of_subject {blocks : Blocks} {o : Order B}
    (hsubject : ∀ k, o.subject = some k → ∃ h, blocks.name? h = some k) :
    ∃ op, o.operation blocks.at? = some op ∧ o.named = some (op.relabel blocks.label) ∧
      ∀ h, op.subject = some h → ∃ k, o.subject = some k ∧ blocks.name? h = some k := by
  have hlabel {h : Handle} {k : Nat} (hname : blocks.name? h = some k) : Blocks.standIn (some k) = blocks.label h := by
    rw [Blocks.label, hname]
  have hidle {op : Operation B} (hop : op.subject = none) :
      ∀ h, op.subject = some h → ∃ k, o.subject = some k ∧ blocks.name? h = some k := by
    rw [hop]
    rintro _ ⟨⟩
  cases o with
  | reallocate old bytes =>
    rcases old with _ | k
    · exact ⟨.reallocate none bytes, rfl, rfl, hidle rfl⟩
    · obtain ⟨h, hname⟩ := hsubject k rfl
      refine ⟨.reallocate (some h) bytes, ?_, ?_, ?_⟩
      · rw [operation, Blocks.at?_of_name? hname, Option.map_some]
      · rw [Operation.relabel, Option.map_some, ← hlabel hname]
        rfl
      · rintro h ⟨⟩
        exact ⟨k, rfl, hname⟩
  | release k =>
    obtain ⟨h, hname⟩ := hsubject k rfl
    refine ⟨.release h, ?_, ?_, ?_⟩
    · rw [operation, Blocks.at?_of_name? hname, Option.map_some]
    · rw [Operation.relabel, ← hlabel hname]
      rfl
    · rintro h ⟨⟩
      exact ⟨k, rfl, hname⟩
  | isTracked k =>
    obtain ⟨h, hname⟩ := hsubject k rfl
    refine ⟨.isTracked h, ?_, ?_, ?_⟩
    · rw [operation, Blocks.at?_of_name? hname, Option.map_some]
    · rw [Operation.relabel, ← hlabel hname]
      rfl
    · rintro h ⟨⟩
      exact ⟨k, rfl, hname⟩
  | install => exact ⟨.install, rfl, rfl, hidle rfl⟩
  | allocate bytes => exact ⟨.allocate bytes, rfl, rfl, hidle rfl⟩
  | zeroAllocate bytes => exact ⟨.zeroAllocate bytes, rfl, rfl, hidle rfl⟩
  | collect => exact ⟨.collect, rfl, rfl, hidle rfl⟩
  | exchange b => exact ⟨.exchange (.all b), rfl, rfl, hidle rfl⟩
  | liveCount => exact ⟨.liveCount, rfl, rfl, hidle rfl⟩
  | stats => exact ⟨.stats, rfl, rfl, hidle rfl⟩

theorem Order.named_map (f : B → C) (o : Order B) : (o.map f).named = o.named := by
  cases o with
  | reallocate old bytes => cases old <;> rfl
  | _ => rfl

namespace Scene

/-- What a client sees, from the ledger of the names. -/
def ofLedger (answer : Reading (Option Nat)) (l : Ledger Unit) : Scene where
  answer := some answer
  window := l.entries.map fun e => (Blocks.standsFor e.handle, e.size)
  stats := l.figures .anonymous

private theorem granted_read (name : Handle → Option Nat) (a : Answer) (l : Ledger Unit) :
    (ofLedger (a.read name) l).granted = a.given.isSome := by
  rcases a with _ | result | _ | _ | _
  · rfl
  · cases result <;> rfl
  · rfl
  · rfl
  · rfl

end Scene

namespace Session

variable {bs : Backends B σ} {live : B → σ → Set Handle} {ses : Session B σ} {usable : List Nat}

/-- The ledger of a session with stand-ins for the blocks. -/
def reading (bs : Backends B σ) (ses : Session B σ) : Ledger Unit := (ses.tracker.ledger bs).relabel ses.blocks.label

theorem scene_eq (hw : ses.tracker.window.WellFormed) (a : Answer) :
    ses.scene bs (some a) = .ofLedger (a.read ses.blocks.name?) (ses.reading bs) := by
  have hstats : (ses.reading bs).figures .anonymous = (ses.tracker.figures bs (ses.tracker.routing bs)).anonymous := by
    rw [reading, Ledger.figures_relabel bs]
    simp only [Ledger.figures, Tracker.figures, Tracker.ledger, Routing.names, hw.length_entries]
  simp only [scene, Scene.ofLedger, hstats, Option.map_some, Scene.mk.injEq, true_and, and_true]
  rw [reading, Ledger.relabel, List.map_map]
  exact List.map_congr_left fun e _ => by
    simp only [Function.comp_apply, Blocks.label, Blocks.standsFor_standIn]

private theorem guarded_operation {o : Order B} (hp : ses.Proper bs live usable o) {op : Operation B}
    (hop : o.operation ses.blocks.at? = some op) : (ses.tracker.ledger bs).Guarded live ses.state op := by
  cases o with
  | reallocate old bytes =>
    rcases old with _ | k
    · cases hop
      trivial
    · obtain ⟨h, hat, rfl⟩ := Option.map_eq_some_iff.1 hop
      exact hp.2 k rfl h hat
  | release k =>
    obtain ⟨h, -, rfl⟩ := Option.map_eq_some_iff.1 hop
    trivial
  | isTracked k =>
    obtain ⟨h, -, rfl⟩ := Option.map_eq_some_iff.1 hop
    trivial
  | exchange b =>
    cases hop
    exact ⟨b, rfl⟩
  | _ =>
    cases hop
    trivial

/-- What a client sees of a step, and the ledger of the names behind it, hang on the names and on whether the step was
answered a block. -/
private theorem step_spec (hs : bs.Separate live) (hn : Named bs live ses.tracker ses.state ses.blocks usable)
    {o : Order B} (hp : ses.Proper bs live usable o) :
    let r := ses.step bs o
    ∃ op given,
      let answer := given.map fun _ => Blocks.standIn (some ses.blocks.length)
      o.named = some op ∧ r.2.blocks = given :: ses.blocks ∧ (r.2.scene bs r.1).granted = given.isSome ∧
        Named bs live r.2.tracker r.2.state r.2.blocks (ses.usableAfter bs o usable) ∧
        r.2.reading bs = (ses.reading bs).update op answer ∧
        r.2.scene bs r.1 =
          .ofLedger (((ses.reading bs).reply .anonymous op answer).read Blocks.standsFor) (r.2.reading bs) := by
  have hblock : ∀ k, o.subject = some k → ∃ h, ses.blocks.name? h = some k := by
    intro k hk
    obtain ⟨h, -, hname, -⟩ := hn.live k (hp.1 k hk)
    exact ⟨h, hname⟩
  obtain ⟨op, hop, hnamed, hsub⟩ := Order.operation_of_subject hblock
  have hsubject : ∀ h, op.subject = some h → ∃ k ∈ usable, ses.blocks.name? h = some k := by
    intro h hh
    obtain ⟨k, hk, hname⟩ := hsub h hh
    exact ⟨k, hp.1 k hk, hname⟩
  obtain ⟨hn', hreading, hanswer⟩ := hn.perform hs op (guarded_operation hp hop) hsubject
  have hstep : ses.step bs o = (some (ses.perform bs op).1, (ses.perform bs op).2) := by rw [step, hop]
  have husable : ses.usableAfter bs o usable =
      ses.blocks.usable ((ses.tracker.ledger bs).spent op (ses.perform bs op).1.given) (ses.perform bs op).1.given
        usable := by
    rw [usableAfter, hop]
  have hscene : (ses.perform bs op).2.scene bs (some (ses.perform bs op).1) = _ := scene_eq hn'.wellFormed _
  intro r
  refine ⟨op.relabel ses.blocks.label, (ses.perform bs op).1.given, hnamed, ?_⟩
  simp only [r, hstep, husable]
  refine ⟨rfl, ?_, hn', hreading, ?_⟩
  · rw [hscene]
    exact Scene.granted_read ..
  · rw [hscene]
    exact congrArg (Scene.ofLedger · _) hanswer

/-! ### Two sessions -/

section Pairs

variable {τ : Type} {bs₁ : Backends B σ} {bs₂ : Backends C τ} {live₁ : B → σ → Set Handle} {live₂ : C → τ → Set Handle}
  {ses₁ : Session B σ} {ses₂ : Session C τ} {usable₁ usable₂ : List Nat}

/-- Two sessions that differ in the addresses of their blocks and in their backends only. -/
structure Twins (bs₁ : Backends B σ) (live₁ : B → σ → Set Handle) (ses₁ : Session B σ) (usable₁ : List Nat)
    (bs₂ : Backends C τ) (live₂ : C → τ → Set Handle) (ses₂ : Session C τ) (usable₂ : List Nat) : Prop where
  named₁ : Named bs₁ live₁ ses₁.tracker ses₁.state ses₁.blocks usable₁
  named₂ : Named bs₂ live₂ ses₂.tracker ses₂.state ses₂.blocks usable₂
  length_eq : ses₁.blocks.length = ses₂.blocks.length
  reading_eq : ses₁.reading bs₁ = ses₂.reading bs₂

theorem Twins.start (bs₁ : Backends B σ) (live₁ : B → σ → Set Handle) (bs₂ : Backends C τ)
    (live₂ : C → τ → Set Handle) (st₁ st₂ : Settings) (hcapacity : st₁.capacity = st₂.capacity) (s₁ : σ) (s₂ : τ) :
    Twins bs₁ live₁ (.start st₁ s₁) [] bs₂ live₂ (.start st₂ s₂) [] where
  named₁ := .create bs₁ live₁ st₁ s₁
  named₂ := .create bs₂ live₂ st₂ s₂
  length_eq := rfl
  reading_eq := by
    simp only [reading, Session.start, Tracker.ledger_create, Ledger.relabel, Ledger.fresh, hcapacity]

/-- An order to both sessions that they allow and that is granted a block by both or by neither shows the same. -/
theorem Twins.step (hs₁ : bs₁.Separate live₁) (hs₂ : bs₂.Separate live₂)
    (ht : Twins bs₁ live₁ ses₁ usable₁ bs₂ live₂ ses₂ usable₂) (o₁ : Order B) (o₂ : Order C) (ho : o₁.named = o₂.named)
    (hp₁ : ses₁.Proper bs₁ live₁ usable₁ o₁) (hp₂ : ses₂.Proper bs₂ live₂ usable₂ o₂) :
    let r₁ := ses₁.step bs₁ o₁
    let r₂ := ses₂.step bs₂ o₂
    (r₁.2.scene bs₁ r₁.1).granted = (r₂.2.scene bs₂ r₂.1).granted →
      r₁.2.scene bs₁ r₁.1 = r₂.2.scene bs₂ r₂.1 ∧
        Twins bs₁ live₁ r₁.2 (ses₁.usableAfter bs₁ o₁ usable₁) bs₂ live₂ r₂.2 (ses₂.usableAfter bs₂ o₂ usable₂) := by
  intro r₁ r₂ hgranted
  obtain ⟨op, given₁, hop₁, hblocks₁, hgiven₁, hnext₁, hreading₁, hscene₁⟩ := step_spec hs₁ ht.named₁ hp₁
  obtain ⟨op', given₂, hop₂, hblocks₂, hgiven₂, hnext₂, hreading₂, hscene₂⟩ := step_spec hs₂ ht.named₂ hp₂
  obtain rfl : op = op' := Option.some.inj (hop₁.symm.trans (ho.trans hop₂))
  have hsome : given₁.isSome = given₂.isSome := hgiven₁.symm.trans (hgranted.trans hgiven₂)
  have hanswer : (given₁.map fun _ => Blocks.standIn (some ses₁.blocks.length)) =
      given₂.map fun _ => Blocks.standIn (some ses₂.blocks.length) := by
    rw [ht.length_eq]
    rcases given₁ with _ | new₁
    · rw [Option.isNone_iff_eq_none.1 (Option.isSome_eq_false_iff.1 hsome.symm)]
    · obtain ⟨new₂, rfl⟩ := Option.isSome_iff_exists.1 hsome.symm
      rfl
  have hnext : r₁.2.reading bs₁ = r₂.2.reading bs₂ := by rw [hreading₁, hreading₂, ht.reading_eq, hanswer]
  refine ⟨?_, hnext₁, hnext₂, ?_, hnext⟩
  · rw [hscene₁, hscene₂, ht.reading_eq, hanswer, hnext]
  · rw [hblocks₁, hblocks₂, List.length_cons, List.length_cons, ht.length_eq]

/-- Two sessions of one client over separate backends, whose requests succeed at the same steps, show the same. -/
theorem Twins.play (hs₁ : bs₁.Separate live₁) (hs₂ : bs₂.Separate live₂)
    (ht : Twins bs₁ live₁ ses₁ usable₁ bs₂ live₂ ses₂ usable₂) {os : List (Order (B × C))}
    (hd₁ : ses₁.Disciplined bs₁ live₁ usable₁ (os.map (.map Prod.fst)))
    (hd₂ : ses₂.Disciplined bs₂ live₂ usable₂ (os.map (.map Prod.snd)))
    (hgranted : (ses₁.play bs₁ (os.map (.map Prod.fst))).map Scene.granted =
      (ses₂.play bs₂ (os.map (.map Prod.snd))).map Scene.granted) :
    ses₁.play bs₁ (os.map (.map Prod.fst)) = ses₂.play bs₂ (os.map (.map Prod.snd)) := by
  induction os generalizing ses₁ ses₂ usable₁ usable₂ with
  | nil => rfl
  | cons o os ih =>
    obtain ⟨hp₁, hrest₁⟩ := hd₁
    obtain ⟨hp₂, hrest₂⟩ := hd₂
    have ho : (o.map Prod.fst).named = (o.map Prod.snd).named := by rw [Order.named_map, Order.named_map]
    simp only [List.map_cons, Session.play, List.cons.injEq] at hgranted ⊢
    obtain ⟨hscene, hnext⟩ := ht.step hs₁ hs₂ _ _ ho hp₁ hp₂ hgranted.1
    exact ⟨hscene, ih hnext hrest₁ hrest₂ hgranted.2⟩

end Pairs

/-- Every block of the window has a name at every step. -/
theorem isSome_of_mem_window (hs : bs.Separate live) (hn : Named bs live ses.tracker ses.state ses.blocks usable)
    {os : List (Order B)} (hd : ses.Disciplined bs live usable os) :
    ∀ sc ∈ ses.play bs os, ∀ x ∈ sc.window, x.1.isSome := by
  induction os generalizing ses usable with
  | nil => exact fun sc hsc => absurd hsc List.not_mem_nil
  | cons o os ih =>
    obtain ⟨hp, hrest⟩ := hd
    obtain ⟨op, given, -, -, -, hnext, -⟩ := step_spec hs hn hp
    intro sc hsc x hx
    rcases List.mem_cons.1 hsc with rfl | hsc
    · obtain ⟨e, he, rfl⟩ := List.mem_map.1 hx
      obtain ⟨k, -, hname⟩ := hnext.tracked e.handle (List.mem_map_of_mem he)
      exact Option.isSome_iff_exists.2 ⟨k, hname⟩
    · exact ih hnext hrest sc hsc x hx

end Session

end BlockTracker
