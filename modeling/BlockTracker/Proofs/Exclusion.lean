import BlockTracker.Lock
import BlockTracker.Proofs.Runs
import BlockTracker.Proofs.Soundness
import BlockTracker.Workload.Clients
import Mathlib.Algebra.BigOperators.Group.Finset.Basic
import Mathlib.Data.Fintype.BigOperators

/-!
# Operations under the flag lock

Threads that share a state take turns in any order.  A thread tries the flag lock until it takes it, works through the
body of its next operation in single steps that read or write the shared state (`Body`), and clears the flag
(`Monitor.turn`).  Either nobody is inside, and the shared state is what the operations that took the lock leave when
they are done whole, one after the other; or it is the thread that took the lock last, and the rest of its body leads
from the shared state to where the whole operation leads (`Monitor.Serial`).  So whatever the schedule, the threads
see a tracker whose operations are done whole, in the order in which they took the lock (`Monitor.serialized`), and
no addition to a counter is lost (`Monitor.shared_of_done`).
-/

namespace BlockTracker

namespace FlagLock

variable {l : FlagLock}

theorem tryLock_of_held (h : l.held = true) : l.tryLock = (false, l) := by
  obtain ⟨held⟩ := l
  cases h
  rfl

theorem tryLock_of_clear (h : l.held = false) : l.tryLock = (true, ⟨true⟩) := by
  obtain ⟨held⟩ := l
  cases h
  rfl

end FlagLock

/-- What an operation does, as single steps on a shared state. -/
inductive Body (S R : Type)
  | done (result : R)
  | read (next : S → Body S R)
  | write (change : S → S) (next : Body S R)

/-- Does a body whole. -/
def Body.run {S R : Type} : Body S R → S → R × S
  | .done r, s => (r, s)
  | .read next, s => (next s).run s
  | .write change next, s => next.run (change s)

/-- A thread with the operations that it has yet to begin, what is left of the body that it is inside of, and the
results that it has got so far. -/
structure Thread (Op S R : Type) where
  todo : List Op
  inside : Option (Body S R)
  results : List R

/-- Threads around a state that a lock guards. -/
structure Monitor (ι Op S R : Type) where
  lock : FlagLock
  shared : S
  threads : ι → Thread Op S R
  /-- The operations that have taken the lock, in order, each with its thread. -/
  taken : List (ι × Op)

namespace Monitor

variable {ι Op S R : Type}

def start (s : S) (program : ι → List Op) : Monitor ι Op S R := ⟨.free, s, fun i => ⟨program i, none, []⟩, []⟩

/-- A thread has taken the lock and not cleared it yet. -/
def Inside (m : Monitor ι Op S R) (i : ι) : Prop := (m.threads i).inside.isSome = true

instance (m : Monitor ι Op S R) : DecidablePred m.Inside :=
  fun i => inferInstanceAs (Decidable ((m.threads i).inside.isSome = true))

/-- The results of operations that are done whole, one after the other, and the state that they lead to. -/
def replay (body : Op → Body S R) : List Op → S → List R × S
  | [], s => ([], s)
  | op :: ops, s =>
    let (r, s) := (body op).run s
    let (rs, s) := replay body ops s
    (r :: rs, s)

section Turns

variable [DecidableEq ι]

def put (m : Monitor ι Op S R) (i : ι) (t : Thread Op S R) : Monitor ι Op S R :=
  { m with threads := Function.update m.threads i t }

/-- A thread makes one step: it tries the lock, or goes on with the body that it is inside of, or clears the lock. -/
def turn (body : Op → Body S R) (m : Monitor ι Op S R) (i : ι) : Monitor ι Op S R :=
  let t := m.threads i
  match t.inside with
  | some (.done r) =>
    { m with lock := m.lock.unlock }.put i { t with inside := none, results := t.results ++ [r] }
  | some (.read next) => m.put i { t with inside := some (next m.shared) }
  | some (.write change next) => { m with shared := change m.shared }.put i { t with inside := some next }
  | none =>
    match t.todo with
    | [] => m
    | op :: ops =>
      let (won, l) := m.lock.tryLock
      if won then
        { m with lock := l, taken := m.taken ++ [(i, op)] }.put i { t with todo := ops, inside := some (body op) }
      else { m with lock := l }

/-- Threads take turns as a schedule says. -/
def run (body : Op → Body S R) (m : Monitor ι Op S R) (schedule : List ι) : Monitor ι Op S R :=
  schedule.foldl (turn body) m

/-- The operations of a thread among operations of several threads. -/
def opsOf (i : ι) (taken : List (ι × Op)) : List Op := (taken.filter (·.1 = i)).map (·.2)

/-- The results of a thread, given the results of all the operations. -/
def resultsOf (i : ι) (taken : List (ι × Op)) (results : List R) : List R :=
  ((taken.zip results).filter (·.1.1 = i)).map (·.2)

end Turns

/-! ### Replays -/

theorem replay_append (body : Op → Body S R) (ops ops' : List Op) (s : S) :
    replay body (ops ++ ops') s =
      let r := replay body ops s
      (r.1 ++ (replay body ops' r.2).1, (replay body ops' r.2).2) := by
  induction ops generalizing s with
  | nil => rfl
  | cons op ops ih => simp only [List.cons_append, replay, ih]

theorem length_replay (body : Op → Body S R) (ops : List Op) (s : S) : (replay body ops s).1.length = ops.length := by
  induction ops generalizing s with
  | nil => rfl
  | cons op ops ih => simp only [replay, List.length_cons, ih]

variable [DecidableEq ι]

theorem opsOf_concat (i j : ι) (op : Op) (taken : List (ι × Op)) :
    opsOf j (taken ++ [(i, op)]) = if j = i then opsOf j taken ++ [op] else opsOf j taken := by
  by_cases h : j = i
  · simp [opsOf, h]
  · simp [opsOf, h, Ne.symm h]

theorem resultsOf_concat (i j : ι) (op : Op) (r : R) {taken : List (ι × Op)} {results : List R}
    (hlen : taken.length = results.length) :
    resultsOf j (taken ++ [(i, op)]) (results ++ [r]) =
      if j = i then resultsOf j taken results ++ [r] else resultsOf j taken results := by
  rw [resultsOf, List.zip_append hlen]
  by_cases h : j = i
  · simp [resultsOf, h]
  · simp [resultsOf, h, Ne.symm h]

/-! ### The state between two turns -/

variable {body : Op → Body S R} {m : Monitor ι Op S R} {s₀ : S} {i j : ι}

/-- The results and the state that the operations of a list lead to. -/
def replayed (body : Op → Body S R) (s₀ : S) (taken : List (ι × Op)) : List R × S := replay body (taken.map (·.2)) s₀

/-- Every thread has the results of its operations in a list, as they are when all of the list is done whole. -/
def Answered (body : Op → Body S R) (s₀ : S) (m : Monitor ι Op S R) (taken : List (ι × Op)) : Prop :=
  ∀ i, (m.threads i).results = resultsOf i taken (replayed body s₀ taken).1

/-- Where the threads stand between two turns: nobody is inside and the flag is clear, or the thread that took the lock
last is, alone, and the flag is set. -/
inductive Serial (body : Op → Body S R) (s₀ : S) (m : Monitor ι Op S R) : Prop
  | free (clear : m.lock.held = false) (outside : ∀ i, (m.threads i).inside = none)
      (shared : m.shared = (replayed body s₀ m.taken).2) (answered : m.Answered body s₀ m.taken)
  | busy (i : ι) (op : Op) (before : List (ι × Op)) (rest : Body S R) (set : m.lock.held = true)
      (last : m.taken = before ++ [(i, op)]) (inside : (m.threads i).inside = some rest)
      (outside : ∀ j, j ≠ i → (m.threads j).inside = none)
      (ahead : rest.run m.shared = (body op).run (replayed body s₀ before).2) (answered : m.Answered body s₀ before)

theorem serial_start (body : Op → Body S R) (s : S) (program : ι → List Op) : Serial body s (start s program) :=
  .free rfl (fun _ => rfl) rfl fun _ => rfl

@[simp] theorem threads_put_self (m : Monitor ι Op S R) (i : ι) (t : Thread Op S R) : (m.put i t).threads i = t :=
  Function.update_self ..

theorem threads_put_of_ne (m : Monitor ι Op S R) (t : Thread Op S R) (h : j ≠ i) :
    (m.put i t).threads j = m.threads j := Function.update_of_ne h ..

theorem answered_put {before : List (ι × Op)} (h : m.Answered body s₀ before) {t : Thread Op S R}
    (ht : t.results = (m.threads i).results) : (m.put i t).Answered body s₀ before := by
  intro j
  rcases eq_or_ne j i with rfl | hj
  · rw [threads_put_self, ht]
    exact h j
  · rw [threads_put_of_ne m t hj]
    exact h j

theorem outside_put (h : ∀ j, j ≠ i → (m.threads j).inside = none) (t : Thread Op S R) :
    ∀ j, j ≠ i → ((m.put i t).threads j).inside = none := by
  intro j hj
  rw [threads_put_of_ne m t hj]
  exact h j hj

/-! ### Turns -/

/-- A thread with nothing to do leaves everything as it is. -/
theorem turn_of_idle (hout : (m.threads i).inside = none) (htodo : (m.threads i).todo = []) : m.turn body i = m := by
  simp only [turn, hout, htodo]

/-- So does a thread that finds the flag set. -/
theorem turn_of_held (hout : (m.threads i).inside = none) (hheld : m.lock.held = true) : m.turn body i = m := by
  simp only [turn, hout, FlagLock.tryLock_of_held hheld]
  split
  · rfl
  · rfl

/-- A thread that finds the flag clear takes the lock with its next operation. -/
theorem turn_of_clear {op : Op} {ops : List Op} (hout : (m.threads i).inside = none)
    (htodo : (m.threads i).todo = op :: ops) (hclear : m.lock.held = false) :
    m.turn body i =
      { m with lock := ⟨true⟩, taken := m.taken ++ [(i, op)] }.put i
        { m.threads i with todo := ops, inside := some (body op) } := by
  simp only [turn, hout, htodo, FlagLock.tryLock_of_clear hclear, ↓reduceIte]

theorem turn_done {r : R} (hin : (m.threads i).inside = some (.done r)) :
    m.turn body i =
      { m with lock := .free }.put i
        { m.threads i with inside := none, results := (m.threads i).results ++ [r] } := by
  simp only [turn, hin]
  rfl

theorem turn_read {next : S → Body S R} (hin : (m.threads i).inside = some (.read next)) :
    m.turn body i = m.put i { m.threads i with inside := some (next m.shared) } := by
  simp only [turn, hin]

theorem turn_write {change : S → S} {next : Body S R} (hin : (m.threads i).inside = some (.write change next)) :
    m.turn body i = { m with shared := change m.shared }.put i { m.threads i with inside := some next } := by
  simp only [turn, hin]

/-- The thread inside has made a step of its body and goes on with `next`. -/
private theorem serial_inside {op : Op} {before : List (ι × Op)} {next : Body S R} {shared : S}
    (set : m.lock.held = true) (last : m.taken = before ++ [(i, op)])
    (outside : ∀ j, j ≠ i → (m.threads j).inside = none)
    (ahead : next.run shared = (body op).run (replayed body s₀ before).2) (answered : m.Answered body s₀ before) :
    Serial body s₀ ({ m with shared := shared }.put i { m.threads i with inside := some next }) := by
  refine .busy i op before next set last ?_ (outside_put outside _) ahead (answered_put answered rfl)
  rw [threads_put_self]

/-- The thread inside has come to the end of its body, so all that has taken the lock is done. -/
private theorem serial_done {op : Op} {before : List (ι × Op)} {r : R} (last : m.taken = before ++ [(i, op)])
    (outside : ∀ j, j ≠ i → (m.threads j).inside = none)
    (ahead : (r, m.shared) = (body op).run (replayed body s₀ before).2) (answered : m.Answered body s₀ before) :
    Serial body s₀
      ({ m with lock := .free }.put i
        { m.threads i with inside := none, results := (m.threads i).results ++ [r] }) := by
  have hreplay : replayed body s₀ m.taken = ((replayed body s₀ before).1 ++ [r], m.shared) := by
    rw [replayed, last, List.map_append, replay_append]
    simp only [List.map_cons, List.map_nil, replay]
    rw [← replayed, ← ahead]
  have hlen : before.length = (replayed body s₀ before).1.length := by
    rw [replayed, length_replay, List.length_map]
  refine .free rfl ?_ (congrArg Prod.snd hreplay).symm ?_
  · intro j
    rcases eq_or_ne j i with rfl | hj
    · rw [threads_put_self]
    · exact outside_put outside _ j hj
  · intro j
    change _ = resultsOf j m.taken (replayed body s₀ m.taken).1
    rw [hreplay, last, resultsOf_concat i j op r hlen]
    rcases eq_or_ne j i with rfl | hj
    · rw [threads_put_self, if_pos rfl, answered j]
    · rw [threads_put_of_ne _ _ hj, if_neg hj]
      exact answered j

theorem serial_turn (h : Serial body s₀ m) (j : ι) : Serial body s₀ (m.turn body j) := by
  cases h with
  | free clear outside shared answered =>
    cases htodo : (m.threads j).todo with
    | nil =>
      rw [turn_of_idle (outside j) htodo]
      exact .free clear outside shared answered
    | cons op ops =>
      -- `j` takes the lock, and all of its body lies ahead
      rw [turn_of_clear (outside j) htodo clear]
      refine .busy j op m.taken (body op) rfl rfl ?_ (outside_put (fun k _ => outside k) _) (congrArg _ shared)
        (answered_put answered rfl)
      rw [threads_put_self]
  | busy i op before rest set last inside outside ahead answered =>
    rcases eq_or_ne j i with rfl | hj
    · cases rest with
      | done r =>
        rw [turn_done inside]
        exact serial_done last outside ahead answered
      | read next =>
        rw [turn_read inside]
        exact serial_inside set last outside ahead answered
      | write change next =>
        rw [turn_write inside]
        exact serial_inside set last outside ahead answered
    · rw [turn_of_held (outside j hj) set]
      exact .busy i op before rest set last inside outside ahead answered

theorem serial_run (h : Serial body s₀ m) (schedule : List ι) : Serial body s₀ (m.run body schedule) := by
  induction schedule generalizing m with
  | nil => exact h
  | cons i schedule ih => exact ih (serial_turn h i)

namespace Serial

theorem exclusive (h : Serial body s₀ m) (hi : m.Inside i) (hj : m.Inside j) : i = j := by
  cases h with
  | free _ outside =>
    rw [Inside, outside i] at hi
    cases hi
  | busy k _ _ _ _ _ _ outside =>
    have only {x : ι} (hx : m.Inside x) : x = k := by
      refine Decidable.byContradiction fun hne => ?_
      rw [Inside, outside x hne] at hx
      cases hx
    rw [only hi, only hj]

theorem held_iff (h : Serial body s₀ m) : m.lock.held = true ↔ ∃ i, m.Inside i := by
  cases h with
  | free clear outside => simp [Inside, clear, outside]
  | busy i _ _ _ set _ inside =>
    refine iff_of_true set ⟨i, ?_⟩
    rw [Inside, inside]
    rfl

/-- With nobody inside, all that has taken the lock is done. -/
theorem quiet (h : Serial body s₀ m) (hquiet : ∀ i, ¬ m.Inside i) :
    m.shared = (replayed body s₀ m.taken).2 ∧ m.Answered body s₀ m.taken := by
  cases h with
  | free _ _ shared answered => exact ⟨shared, answered⟩
  | busy i _ _ _ _ _ inside =>
    refine absurd ?_ (hquiet i)
    rw [Inside, inside]
    rfl

end Serial

/-- The operations that a thread has taken the lock with and those that it has yet to begin are its program. -/
def Follows (program : ι → List Op) (m : Monitor ι Op S R) : Prop :=
  ∀ i, opsOf i m.taken ++ (m.threads i).todo = program i

theorem follows_turn {program : ι → List Op} (h : m.Follows program) (i : ι) : (m.turn body i).Follows program := by
  -- no step but the one that takes the lock touches the operations
  have same (m' : Monitor ι Op S R) (hm : ∀ j, opsOf j m'.taken ++ (m'.threads j).todo = program j)
      (t : Thread Op S R) (ht : t.todo = (m'.threads i).todo) : (m'.put i t).Follows program := by
    intro j
    rw [← hm j]
    rcases eq_or_ne j i with rfl | hj
    · rw [threads_put_self, ht]
      rfl
    · rw [threads_put_of_ne _ _ hj]
      rfl
  cases hin : (m.threads i).inside with
  | some rest =>
    cases rest with
    | done r =>
      rw [turn_done hin]
      exact same _ h _ rfl
    | read next =>
      rw [turn_read hin]
      exact same _ h _ rfl
    | write change next =>
      rw [turn_write hin]
      exact same _ h _ rfl
  | none =>
    by_cases hheld : m.lock.held = true
    · rwa [turn_of_held hin hheld]
    · cases htodo : (m.threads i).todo with
      | nil => rwa [turn_of_idle hin htodo]
      | cons op ops =>
        rw [turn_of_clear hin htodo (Bool.eq_false_iff.2 hheld)]
        intro j
        change opsOf j (m.taken ++ [(i, op)]) ++ _ = _
        rw [opsOf_concat, ← h j]
        rcases eq_or_ne j i with rfl | hj
        · rw [threads_put_self, if_pos rfl, List.append_assoc, htodo]
          rfl
        · rw [threads_put_of_ne _ _ hj, if_neg hj]

theorem follows_run {program : ι → List Op} (h : m.Follows program) (schedule : List ι) :
    (m.run body schedule).Follows program := by
  induction schedule generalizing m with
  | nil => exact h
  | cons i schedule ih => exact ih (follows_turn h i)

/-! ### Counters -/

/-- The body that reads a number and then writes the next one.  Of two such bodies that run into each other, one may
be lost. -/
def addOne : Unit → Body Nat Unit := fun _ => .read fun n => .write (fun _ => n + 1) (.done ())

theorem replay_addOne (ops : List Unit) (n : Nat) : (replay addOne ops n).2 = n + ops.length := by
  induction ops generalizing n with
  | nil => rfl
  | cons op ops ih =>
    have hfirst : (replay addOne (op :: ops) n).2 = (replay addOne ops (n + 1)).2 := rfl
    rw [hfirst, ih, List.length_cons, Nat.add_assoc, Nat.add_comm 1]

/-- The operations that have taken the lock, counted thread by thread. -/
theorem sum_length_opsOf [Fintype ι] (taken : List (ι × Op)) : ∑ i, (opsOf i taken).length = taken.length := by
  have hcount (i : ι) : (opsOf i taken).length = (taken.map (·.1) : Multiset ι).count i := by
    rw [opsOf, List.length_map, ← List.countP_eq_length_filter, Multiset.coe_count, List.count, List.countP_map]
    rfl
  rw [Finset.sum_congr rfl fun i _ => hcount i, Multiset.sum_count_eq_card fun i _ => Finset.mem_univ i,
    Multiset.coe_card, List.length_map]

/-- Clients add to a counter under the lock, in turns of any order.  Once all of them are done, it shows what it shows
when they work one client after the other. -/
theorem shared_of_done {clients times : Nat} (schedule : List (Fin clients)) :
    let m := (start 0 fun _ => List.replicate times ()).run addOne schedule
    (∀ i, (m.threads i).todo = [] ∧ ¬ m.Inside i) → m.shared = Clients.countTogether clients times := by
  intro m hdone
  have hserial : Serial addOne 0 m := serial_run (serial_start addOne 0 _) schedule
  have hfollows : m.Follows fun _ => List.replicate times () := follows_run (fun i => rfl) schedule
  have hops (i : Fin clients) : (opsOf i m.taken).length = times := by
    have hprogram := hfollows i
    rw [(hdone i).1, List.append_nil] at hprogram
    rw [hprogram, List.length_replicate]
  have htaken : m.taken.length = clients * times := by
    rw [← sum_length_opsOf, Finset.sum_const_nat fun i _ => hops i, Finset.card_univ, Fintype.card_fin]
  rw [(hserial.quiet fun i => (hdone i).2).1, replayed, replay_addOne, List.length_map, htaken, Nat.zero_add,
    Clients.countTogether_eq]

-- the second client tries the lock between the read and the write of the first
example :
    let m := (start 0 fun _ => [()]).run addOne ([0, 0, 1, 0, 1, 0, 1, 1, 1, 1] : List (Fin 2))
    (∀ i, (m.threads i).todo = [] ∧ ¬ m.Inside i) ∧ m.shared = 2 := by decide

/-! ### Trackers -/

variable {B σ : Type}

/-- The bodies, each of them done whole, do what the operations of a tracker do. -/
def Performs (bs : Backends B σ) (body : Operation B → Body (Tracker B × σ) Answer) : Prop :=
  ∀ op t s,
    let o := t.perform bs op s
    (body op).run (t, s) = (o.value, o.tracker, o.state)

theorem replay_of_performs {bs : Backends B σ} {body : Operation B → Body (Tracker B × σ) Answer}
    (hbody : Performs bs body) (ops : List (Operation B)) (t : Tracker B) (s : σ) :
    replay body ops (t, s) = ((t.run bs ops s).map (·.value), t.after bs ops s) := by
  induction ops generalizing t s with
  | nil => rfl
  | cons op ops ih =>
    rw [replay, hbody op t s]
    simp only [ih, Tracker.run, Tracker.after, List.map_cons]

/-- Threads with any programs work on a tracker, whose operations are bodies of single steps, in turns of any order.  At
most one thread is inside at a time, and the flag is set just while one is.  Each thread takes the lock with the
operations of its program in their order.  Whenever nobody is inside, the tracker with its backends and the results of
the threads are those of the operations done whole, in the order in which they took the lock. -/
theorem serialized (bs : Backends B σ) (body : Operation B → Body (Tracker B × σ) Answer) (hbody : Performs bs body)
    (t : Tracker B) (s : σ) (program : ι → List (Operation B)) (schedule : List ι) :
    let m := (start (t, s) program).run body schedule
    let ops := m.taken.map (·.2)
    (∀ i j, m.Inside i → m.Inside j → i = j) ∧
    (m.lock.held = true ↔ ∃ i, m.Inside i) ∧
    (∀ i, opsOf i m.taken ++ (m.threads i).todo = program i) ∧
    ((∀ i, ¬ m.Inside i) →
      m.shared = t.after bs ops s ∧
      ∀ i, (m.threads i).results = resultsOf i m.taken ((t.run bs ops s).map (·.value))) := by
  intro m ops
  have hserial : Serial body (t, s) m := serial_run (serial_start body (t, s) program) schedule
  have hfollows : m.Follows program := follows_run (fun i => rfl) schedule
  refine ⟨fun i j => hserial.exclusive, hserial.held_iff, hfollows, fun hquiet => ?_⟩
  obtain ⟨hshared, hanswered⟩ := hserial.quiet hquiet
  rw [replayed, replay_of_performs hbody] at hshared
  refine ⟨hshared, fun i => ?_⟩
  rw [hanswered i, replayed, replay_of_performs hbody]

/-- The body that does an operation on what it has read and then writes the tracker and the backends one after the
other. -/
def apart (bs : Backends B σ) (op : Operation B) : Body (Tracker B × σ) Answer :=
  .read fun p =>
    let o := p.1.perform bs op p.2
    .write (fun q => (o.tracker, q.2)) (.write (fun q => (q.1, o.state)) (.done o.value))

theorem performs_apart (bs : Backends B σ) : Performs bs (apart bs) := fun _ _ _ => rfl

/-- Two threads, each trying the lock in vain while the other is inside. -/
theorem serialized_shelves :
    let bs := Shelves.backends
    let t := Tracker.create ⟨2, .platform, by decide⟩
    let block (n : Nat) : Handle := ⟨n + 1, Nat.succ_ne_zero n⟩
    let program : Bool → List (Operation Kind) :=
      fun i => if i then [.zeroAllocate 16, .liveCount] else [.allocate 8, .release (block 0)]
    let schedule : List Bool :=
      [false, true, false, false, true, false, false, true, false, true, true, true, true, false, true, false, false,
       false, false, true, true, true, true, true]
    let m := (start (t, Shelves.empty) program).run (apart bs) schedule
    Performs bs (apart bs) ∧
    m.taken.map (·.1) = [false, true, false, true] ∧ m.shared.1.window.handles = [block 1] ∧
    m.shared = t.after bs (m.taken.map (·.2)) Shelves.empty := by
  intro bs t block program schedule m
  refine ⟨performs_apart bs, by decide, by decide, ?_⟩
  obtain ⟨-, -, -, hquiet⟩ := serialized bs (apart bs) (performs_apart bs) t Shelves.empty program schedule
  exact (hquiet (by decide)).1

end Monitor

end BlockTracker
