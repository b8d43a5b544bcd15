import BlockTracker.Backend.Table
import BlockTracker.Proofs.Accounting
import BlockTracker.Proofs.Routes
import BlockTracker.Proofs.Soundness

/-!
# Calls of C functions

What the calls of a tracker come to when some of its backends are tables of C functions.  A table is put in the place of
a primitive only if it has the function for it (`Provided`), so a call that reaches a table either calls that function,
with the size in full, or asks for more than 32 bits can say and calls nothing (`Call.ComesTo`, `comesTo_serve`).  There
is no third case, and a request that comes to nothing leaves everything as it was (`Tracker.perform_declined`).
-/

namespace BlockTracker

variable {F B σ : Type}

/-- The function that a table has for a primitive. -/
def FunctionTable.function? (t : FunctionTable F) : Primitive → Option F
  | .allocate => t.malloc
  | .zeroAllocate => t.calloc
  | .reallocate => t.realloc
  | .release => t.free

/-- A backend that is a table has the function for the primitive. -/
def WithTables.Provided (b : WithTables F B) (p : Primitive) : Prop :=
  ∀ t, b = .table t → (t.function? p).isSome

/-- A backend of one's own that was called, or a C function with its arguments. -/
inductive Invocation (F B : Type)
  | own (b : B) (c : Call)
  | malloc (f : F) (size : UInt32)
  | calloc (f : F) (count size : UInt32)
  | realloc (f : F) (addr : Nat) (size : UInt32)
  | free (f : F) (addr : Nat)
deriving DecidableEq

/-- The same backends, which note down how they are called. -/
def Backends.noted (F : Type) (bs : Backends B σ) : Backends B (σ × List (Invocation F B)) where
  name := bs.name
  builtin := bs.builtin
  serve b c s :=
    let (answer, s') := bs.serve b c s.1
    (answer, s', s.2 ++ [.own b c])

/-- The same functions, which note down how they are called. -/
def FunctionCalls.noted (B : Type) (fs : FunctionCalls F σ) : FunctionCalls F (σ × List (Invocation F B)) where
  malloc f size s :=
    let (addr, s') := fs.malloc f size s.1
    (addr, s', s.2 ++ [.malloc f size])
  calloc f count size s :=
    let (addr, s') := fs.calloc f count size s.1
    (addr, s', s.2 ++ [.calloc f count size])
  realloc f old size s :=
    let (addr, s') := fs.realloc f old size s.1
    (addr, s', s.2 ++ [.realloc f old size])
  free f addr s := (fs.free f addr s.1, s.2 ++ [.free f addr])

/-- What a call comes to when it reaches a backend.  A function gets the size in full. -/
inductive Call.ComesTo : Call → WithTables F B → List (Invocation F B) → Prop
  | own (c : Call) (b : B) : ComesTo c (.own b) [.own b c]
  | malloc {t : FunctionTable F} {f : F} (hf : t.malloc = some f) (size : UInt32) :
    ComesTo (.allocate size.toNat) (.table t) [.malloc f size]
  | calloc {t : FunctionTable F} {f : F} (hf : t.calloc = some f) (size : UInt32) :
    ComesTo (.zeroAllocate size.toNat) (.table t) [.calloc f 1 size]
  | realloc {t : FunctionTable F} {f : F} (hf : t.realloc = some f) (old : Option Handle) (size : UInt32) :
    ComesTo (.reallocate old size.toNat) (.table t) [.realloc f ((old.map (·.addr)).getD 0) size]
  | free {t : FunctionTable F} {f : F} (hf : t.free = some f) (block : Handle) :
    ComesTo (.release block) (.table t) [.free f block.addr]
  | tooLarge {c : Call} {t : FunctionTable F} (hc : Nat.pow 2 32 ≤ c.bytes) : ComesTo c (.table t) []

/-- The call that a request makes. -/
def Operation.request? : Operation B → Option Call
  | .allocate bytes => some (.allocate bytes)
  | .zeroAllocate bytes => some (.zeroAllocate bytes)
  | .reallocate old bytes => some (.reallocate old bytes)
  | _ => none

/-- An exchange puts a table in place by what it has, or brings no table at all. -/
def Operation.ByTables : Operation (WithTables F B) → Prop
  | .exchange o => (∃ t : FunctionTable F, o = t.toOverride) ∨ ∀ p b, o.get p = some b → ∃ b', b = .own b'
  | _ => True

/-! ### One call -/

theorem size32?_toNat (size : UInt32) : size32? size.toNat = some size := by
  rw [size32?, if_pos size.toNat_lt, UInt32.ofNat_toNat]

private theorem exists_size {bytes : Nat} (h : ¬ Nat.pow 2 32 ≤ bytes) : ∃ size : UInt32, size.toNat = bytes :=
  ⟨.ofNat bytes, UInt32.toNat_ofNat_of_lt' (Nat.lt_of_not_le h)⟩

theorem size32?_eq_none {bytes : Nat} (h : Nat.pow 2 32 ≤ bytes) : size32? bytes = none := if_neg (Nat.not_lt.2 h)

private theorem ne_zero_of_tooLarge {bytes : Nat} (h : Nat.pow 2 32 ≤ bytes) : bytes ≠ 0 :=
  Nat.ne_of_gt (Nat.lt_of_lt_of_le (by decide) h)

/-- A table that is asked for too much calls nothing and answers nothing. -/
theorem FunctionTable.serve_tooLarge (fs : FunctionCalls F σ) (t : FunctionTable F) {c : Call}
    (hc : Nat.pow 2 32 ≤ c.bytes) (s : σ) : t.serve fs c s = (none, s) := by
  cases c with
  | allocate bytes => simp only [serve, size32?_eq_none (show Nat.pow 2 32 ≤ bytes from hc)]
  | zeroAllocate bytes => simp only [serve, size32?_eq_none (show Nat.pow 2 32 ≤ bytes from hc)]
  | reallocate old bytes => simp only [serve, size32?_eq_none (show Nat.pow 2 32 ≤ bytes from hc)]
  | release block => exact absurd rfl (ne_zero_of_tooLarge hc)

/-- A call that reaches a table with the function for it calls the function, or asks for too much. -/
private theorem comesTo_table (fs : FunctionCalls F σ) {t : FunctionTable F} {c : Call}
    (ht : (t.function? c.primitive).isSome) (s : σ × List (Invocation F B)) :
    ∃ made, (t.serve (fs.noted B) c s).2.2 = s.2 ++ made ∧ c.ComesTo (.table t) made := by
  by_cases hc : Nat.pow 2 32 ≤ c.bytes
  · refine ⟨[], ?_, .tooLarge hc⟩
    rw [t.serve_tooLarge _ hc, List.append_nil]
  obtain ⟨f, hf⟩ := Option.isSome_iff_exists.1 ht
  cases c with
  | allocate bytes =>
    obtain ⟨size, rfl⟩ := exists_size hc
    change t.malloc = some f at hf
    refine ⟨_, ?_, .malloc hf size⟩
    simp only [FunctionTable.serve, size32?_toNat, hf]
    rfl
  | zeroAllocate bytes =>
    obtain ⟨size, rfl⟩ := exists_size hc
    change t.calloc = some f at hf
    refine ⟨_, ?_, .calloc hf size⟩
    simp only [FunctionTable.serve, size32?_toNat, hf]
    rfl
  | reallocate old bytes =>
    obtain ⟨size, rfl⟩ := exists_size hc
    change t.realloc = some f at hf
    refine ⟨_, ?_, .realloc hf old size⟩
    simp only [FunctionTable.serve, size32?_toNat, hf]
    rfl
  | release block =>
    change t.free = some f at hf
    refine ⟨_, ?_, .free hf block⟩
    simp only [FunctionTable.serve, hf]
    rfl

/-- A call is noted down as what it comes to. -/
theorem comesTo_serve (bs : Backends B σ) (fs : FunctionCalls F σ) {b : WithTables F B} {c : Call}
    (hb : b.Provided c.primitive) (s : σ × List (Invocation F B)) :
    ∃ made, (((bs.noted F).withTables (fs.noted B)).serve b c s).2.2 = s.2 ++ made ∧ c.ComesTo b made := by
  cases b with
  | own b => exact ⟨[.own b c], rfl, .own c b⟩
  | table t => exact comesTo_table fs (hb t rfl) s

/-- The calls of a list come to one list of invocations each. -/
theorem comesTo_serveAll (bs : Backends B σ) (fs : FunctionCalls F σ) {target : PerPrimitive (WithTables F B)}
    (htarget : ∀ p, (target.get p).Provided p) (cs : List Call) (s : σ × List (Invocation F B)) :
    ∃ made, (((bs.noted F).withTables (fs.noted B)).serveAll target cs s).2.2 = s.2 ++ made.flatten ∧
      List.Forall₂ (fun c is => c.ComesTo (target.get c.primitive) is) cs made := by
  induction cs generalizing s with
  | nil => exact ⟨[], (List.append_nil _).symm, .nil⟩
  | cons c cs ih =>
    obtain ⟨first, hfirst, hcomes⟩ := comesTo_serve bs fs (htarget c.primitive) s
    obtain ⟨rest, hrest, hall⟩ := ih (((bs.noted F).withTables (fs.noted B)).serve (target.get c.primitive) c s).2
    refine ⟨first :: rest, ?_, .cons hcomes hall⟩
    rw [Backends.snd_serveAll_cons, hrest, hfirst, List.flatten_cons, List.append_assoc]

/-- A release comes to one invocation. -/
theorem Call.ComesTo.length_of_release {b : WithTables F B} {c : Call} {made : List (Invocation F B)}
    (h : c.ComesTo b made) (hc : c.primitive = .release) : made.length = 1 := by
  cases h with
  | tooLarge hlarge =>
    cases c with
    | release block => exact absurd rfl (ne_zero_of_tooLarge hlarge)
    | _ => cases hc
  | _ => rfl

/-- Releases come to one invocation each. -/
private theorem length_flatten_of_releases {target : PerPrimitive (WithTables F B)} {cs : List Call}
    {made : List (List (Invocation F B))}
    (h : List.Forall₂ (fun c is => c.ComesTo (target.get c.primitive) is) cs made)
    (hcs : ∀ c ∈ cs, c.primitive = .release) : made.flatten.length = cs.length := by
  induction h with
  | nil => rfl
  | cons hc _ ih =>
    rw [List.flatten_cons, List.length_append, List.length_cons, ih fun c hc => hcs c (List.mem_cons_of_mem _ hc),
      hc.length_of_release (hcs _ List.mem_cons_self), Nat.add_comm]

/-- An operation that is not a request makes releases only. -/
theorem Ledger.release_of_mem_calls {l : Ledger B} {op : Operation B} (hop : op.request? = none) {c : Call}
    (hc : c ∈ l.calls op) : c.primitive = .release := by
  cases op with
  | allocate bytes => cases hop
  | zeroAllocate bytes => cases hop
  | reallocate old bytes => cases hop
  | release h =>
    simp only [calls] at hc
    split at hc
    · exact List.mem_singleton.1 hc ▸ rfl
    · cases hc
  | collect => obtain ⟨h, -, rfl⟩ := List.mem_map.1 hc; rfl
  | exchange o => obtain ⟨h, -, rfl⟩ := List.mem_map.1 hc; rfl
  | _ => cases hc

/-! ### Which backends are in place -/

/-- A table comes to the place of a primitive if its own function for the primitive is there. -/
theorem FunctionTable.get_toOverride (t : FunctionTable F) (p : Primitive) :
    (t.toOverride : Override (WithTables F B)).get p = (t.function? p).map fun _ => .table t := by
  cases p <;> rfl

theorem Operation.ByTables.provided {op : Operation (WithTables F B)} (hop : op.ByTables) {p : Primitive}
    {b : WithTables F B} (hb : op.places p = some b) : b.Provided p := by
  cases op with
  | exchange o =>
    change o.get p = some b at hb
    rcases hop with ⟨t, rfl⟩ | hown
    · rw [t.get_toOverride] at hb
      obtain ⟨f, hf, rfl⟩ := Option.map_eq_some_iff.1 hb
      rintro _ ⟨⟩
      exact Option.isSome_of_eq_some hf
    · obtain ⟨b', rfl⟩ := hown p b hb
      exact nofun
  | _ => cases hb

/-- Wherever a table is in place, it has the function. -/
theorem Backends.provided_placed (bs : Backends B σ) (fs : FunctionCalls F σ) (kind : Kind)
    {ops : List (Operation (WithTables F B))} (hops : ∀ op ∈ ops, op.ByTables) (p : Primitive) :
    ((bs.withTables fs).placed kind ops p).Provided p := by
  rcases h : (ops.filterMap (Operation.places p)).getLast? with _ | b
  · rw [placed, h]
    exact nofun
  · obtain ⟨op, hop, hb⟩ := List.mem_filterMap.1 (List.mem_of_getLast? h)
    rw [placed, h]
    exact (hops op hop).provided hb

namespace Tracker

/-- A call that is answered nothing and changes nothing leaves the selection as it was. -/
private theorem call_declined {bs : Backends B σ} {sel : Selection B} {r : Routing B} (hr : sel.active = some r)
    {op : Operation B} {c : Call} (hc : op.request? = some c) {s : σ}
    (hs : bs.serve (r.target.get c.primitive) c s = (none, s)) : sel.call bs c s = (none, sel, s) := by
  have hlive : Routing.liveAfter r.live c none = r.live := by
    cases op with
    | reallocate old bytes => cases hc; cases old <;> rfl
    | _ => cases hc <;> rfl
  obtain ⟨active, kind⟩ := sel
  cases hr
  simp only [Selection.call, Selection.current, Option.getD_some, Routing.call, hs, hlive, Selection.use]

/-- A request for some bytes that is answered nothing by a backend in the same state leaves everything as it was. -/
theorem perform_declined {bs : Backends B σ} {t : Tracker B} {r : Routing B} (hr : t.selection.active = some r)
    {op : Operation B} {c : Call} (hc : op.request? = some c) (hbytes : c.bytes ≠ 0) {s : σ}
    (hs : bs.serve (r.target.get c.primitive) c s = (none, s)) :
    ∃ notice, t.perform bs op s = ⟨.block (.error (.outOfMemory c.bytes)), notice, t, s⟩ := by
  have hcall := call_declined hr hc hs
  have hrequest : t.request bs c s = ⟨.error (.outOfMemory c.bytes), some (.noBlock c.primitive c.bytes), t, s⟩ := by
    simp only [request, hcall, takeIn]
  cases op with
  | allocate bytes =>
    cases hc
    exact ⟨_, congrArg (Outcome.map Answer.block) hrequest⟩
  | zeroAllocate bytes =>
    cases hc
    exact ⟨_, congrArg (Outcome.map Answer.block) hrequest⟩
  | reallocate old bytes =>
    cases hc
    rcases old with _ | old
    · exact ⟨_, congrArg (Outcome.map Answer.block) hrequest⟩
    · have hresize : t.resize bs old bytes s = ⟨.error (.outOfMemory bytes), some (.notResized old bytes), t, s⟩ := by
        simp only [resize, hcall]
        exact if_neg hbytes
      exact ⟨_, congrArg (Outcome.map Answer.block) hresize⟩
  | _ => cases hc

/-- However tables of functions, nothing and backends of one's own were put in place, a table that is in place has the
function.  So whatever comes next, each of its calls comes to one call of a backend of one's own or of the function,
with the size in full, or, if it asks a table for more than 32 bits can say, to none; a block that is taken back costs
one call.  A request to a table for more than 32 bits can say fails and leaves everything as it was. -/
theorem tables_in_contract (bs : Backends B σ) (fs : FunctionCalls F σ) (st : Settings)
    (ops : List (Operation (WithTables F B))) (s : σ) (hops : ∀ op ∈ ops, op.ByTables) :
    let all := (bs.noted F).withTables (fs.noted B)
    let now := (create st).after all ops (s, [])
    let target := (now.1.routing all).target
    (∀ p t, target.get p = .table t → (t.function? p).isSome) ∧
    ∀ op,
      let o := now.1.perform all op now.2
      (∃ made, o.state.2 = now.2.2 ++ made.flatten ∧
        List.Forall₂ (fun c is => c.ComesTo (target.get c.primitive) is) ((now.1.ledger all).calls op) made ∧
        (op.request? = none → made.flatten.length = o.value.released.toNat + op.drained o.value)) ∧
      ∀ c t, op.request? = some c → target.get c.primitive = .table t → Nat.pow 2 32 ≤ c.bytes →
        o.value = .block (.error (.outOfMemory c.bytes)) ∧ o.tracker = now.1 ∧ o.state = now.2 := by
  intro all now target
  have hw₀ : (create (B := WithTables F B) st).window.WellFormed := .create st.capacity_pos
  have hw : now.1.window.WellFormed := wellFormed_after hw₀ ops _
  have htarget (p : Primitive) : (target.get p).Provided p := by
    have hp : target.get p = all.placed st.kind ops p := target_of_run all st ops (s, []) p
    rw [hp]
    exact (bs.noted F).provided_placed (fs.noted B) st.kind hops p
  refine ⟨htarget, fun op => ?_⟩
  intro o
  refine ⟨?_, fun c t hc ht hlarge => ?_⟩
  · obtain ⟨made, hstate, hall⟩ := comesTo_serveAll bs fs htarget ((now.1.ledger all).calls op) now.2
    refine ⟨made, ?_, hall, fun hop => ?_⟩
    · have hserved : o.state = _ := (perform_spec all hw op now.2).2.2
      rw [hserved]
      exact hstate
    · have hreleases : ∀ c ∈ (now.1.ledger all).calls op, c.primitive = .release :=
        fun _ => Ledger.release_of_mem_calls hop
      have hbal := balanced_after hw₀ (balanced_create all st) ops (s, [])
      rw [length_flatten_of_releases hall hreleases,
        ← List.countP_eq_length.2 fun c hc => decide_eq_true (hreleases c hc)]
      exact (step_balance hw hbal op now.2).2.2.2
  · rcases hr : now.1.selection.active with _ | r
    · -- as long as nothing has been put in place, what would be is not a table
      have hown : target = .all (.own (bs.builtin now.1.selection.default)) := by
        simp only [target, routing, Selection.current, hr]
        rfl
      rw [hown, PerPrimitive.get_all] at ht
      cases ht
    · have hcurrent : target = r.target := by
        simp only [target, routing, Selection.current, hr, Option.getD_some]
      have hserve : all.serve (r.target.get c.primitive) c now.2 = (none, now.2) := by
        rw [← hcurrent, ht]
        exact t.serve_tooLarge (fs.noted B) hlarge now.2
      obtain ⟨notice, hperform⟩ := perform_declined hr hc (ne_zero_of_tooLarge hlarge) hserve
      have ho : o = _ := hperform
      rw [ho]
      exact ⟨rfl, rfl, rfl⟩

/-- C functions that keep their blocks on the shelves. -/
def shelfFunctions : FunctionCalls Kind Shelves where
  malloc k size s :=
    let (answer, s) := Shelves.backends.serve k (.allocate size.toNat) s
    ((answer.map (·.addr)).getD 0, s)
  calloc k count size s :=
    let (answer, s) := Shelves.backends.serve k (.zeroAllocate (count.toNat * size.toNat)) s
    ((answer.map (·.addr)).getD 0, s)
  realloc k old size s :=
    let (answer, s) := Shelves.backends.serve k (.reallocate (Handle.ofAddr? old) size.toNat) s
    ((answer.map (·.addr)).getD 0, s)
  free k addr s := ((Handle.ofAddr? addr).map fun block => (Shelves.backends.serve k (.release block) s).2).getD s

/-- Two tables, neither of which has all functions, are in place side by side.  A block of the first one was drained
through the default backend, which was still in place for releases, and the second one frees what comes later.  A resize
to more than 32 bits can say calls nothing. -/
theorem tables_in_contract_side_by_side :
    let block (n : Nat) : Handle := ⟨n + 1, Nat.succ_ne_zero n⟩
    let st : Settings := ⟨4, .platform, by decide⟩
    let first : FunctionTable Kind := ⟨some .system, none, some .system, none⟩
    let second : FunctionTable Kind := ⟨none, some .platform, none, some .platform⟩
    let ops : List (Operation (WithTables Kind Kind)) :=
      [.exchange first.toOverride, .allocate 8, .exchange .none, .exchange second.toOverride, .zeroAllocate 16,
       .allocate 24]
    let all := (Shelves.backends.noted Kind).withTables (shelfFunctions.noted Kind)
    let now := (create st).after all ops (.empty, [])
    let resized := now.1.perform all (.reallocate (some (block 1)) 5000000000) now.2
    (∀ op ∈ ops, op.ByTables) ∧
    now.2.2 = [.malloc .system 8, .own .platform (.release (block 0)), .calloc .platform 1 16, .malloc .system 24] ∧
    now.1.window.entries = [⟨block 0, 16⟩, ⟨block 1, 24⟩] ∧
    (now.1.perform all .collect now.2).state.2 = now.2.2 ++ [.free .platform 1, .free .platform 2] ∧
    resized.value = .block (.error (.outOfMemory 5000000000)) ∧ resized.tracker = now.1 ∧ resized.state = now.2 := by
  intro block st first second ops all now resized
  have hops : ∀ op ∈ ops, op.ByTables := by
    have hnone : ∀ p b, (Override.none : Override (WithTables Kind Kind)).get p = some b → ∃ b', b = .own b' :=
      fun p b hb => absurd hb (by cases p <;> exact nofun)
    intro op hop
    simp only [ops, List.mem_cons, List.not_mem_nil, or_false] at hop
    rcases hop with rfl | rfl | rfl | rfl | rfl | rfl
    · exact .inl ⟨first, rfl⟩
    · trivial
    · exact .inr hnone
    · exact .inl ⟨second, rfl⟩
    · trivial
    · trivial
  have htarget : (now.1.routing all).target.get .reallocate = .table first := by
    rw [target_of_run all st ops (.empty, [])]
    rfl
  subst resized now all
  obtain ⟨-, hstep⟩ := tables_in_contract Shelves.backends shelfFunctions st ops .empty hops
  have hresized := (hstep (.reallocate (some (block 1)) 5000000000)).2 (.reallocate (some (block 1)) 5000000000) first
    rfl htarget (by decide)
  refine ⟨hops, ?_, ?_, ?_, hresized⟩
  · decide +kernel
  · decide +kernel
  · decide +kernel

end Tracker

end BlockTracker
