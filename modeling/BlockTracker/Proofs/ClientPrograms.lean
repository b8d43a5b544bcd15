import BlockTracker.Total
import Mathlib.Data.List.FinRange
import Mathlib.Data.List.Infix

/-!
# Programs of clients

A client has a program of requests for blocks and of releases of the blocks it has got (`ClientStep`).  The blocks that
its program asks for and does not release are what is left of it (`ClientStep.kept`): a request leaves one more, and
a release takes one away, whichever it is.  So it goes for the programs of several clients, whoever of them makes the
next step (`ClientStep.outstanding`).
-/

namespace BlockTracker

/-- A step of a client: a request for a block, or a release of the block of an earlier request, told by its number. -/
inductive ClientStep
  | allocate (bytes : Nat)
  | zeroAllocate (bytes : Nat)
  | release (index : Nat)
deriving DecidableEq

namespace ClientStep

def size? : ClientStep → Option Nat
  | .allocate bytes | .zeroAllocate bytes => some bytes
  | .release _ => none

/-- The sizes that a program asks for, in order. -/
def sizes (program : List ClientStep) : List Nat := program.filterMap size?

/-- What a client may do after the steps of a list: a release is of a block that it has asked for and not released. -/
def Allowed (before : List ClientStep) : ClientStep → Prop
  | release index => index < (sizes before).length ∧ release index ∉ before
  | _ => True

instance (before : List ClientStep) : DecidablePred (Allowed before)
  | release _ => inferInstanceAs (Decidable (_ ∧ _))
  | allocate _ | zeroAllocate _ => inferInstanceAs (Decidable True)

/-- A program releases only blocks that the client has at that moment. -/
def Proper (program : List ClientStep) : Prop := ∀ i, (h : i < program.length) → Allowed (program.take i) program[i]

instance : DecidablePred Proper := fun program =>
  inferInstanceAs (Decidable (∀ i, (h : i < program.length) → Allowed (program.take i) program[i]))

/-- The requests of a program whose blocks it does not release: the size of each and its number. -/
def kept (program : List ClientStep) : List (Nat × Nat) :=
  (sizes program).zipIdx.filter fun x => release x.2 ∉ program

variable {k : Nat}

/-- The blocks that programs do not release: the client, the number of its request and the size. -/
def outstanding (programs : Fin k → List ClientStep) : List (Fin k × Nat × Nat) :=
  (List.finRange k).flatMap fun c => (kept (programs c)).map fun x => (c, x.2, x.1)

/-- All the sizes that programs ask for. -/
def requested (programs : Fin k → List ClientStep) : List Nat := (List.finRange k).flatMap fun c => sizes (programs c)

/-! ### One more step -/

variable {program : List ClientStep} {step : ClientStep} {bytes index : Nat}

theorem sizes_request (hs : step.size? = some bytes) : sizes (program ++ [step]) = sizes program ++ [bytes] := by
  simp [sizes, hs]

theorem sizes_release (program : List ClientStep) (index : Nat) :
    sizes (program ++ [release index]) = sizes program := by
  simp [sizes, size?]

theorem Proper.of_prefix {program' : List ClientStep} (h : Proper program) (hp : program' <+: program) :
    Proper program' := by
  obtain ⟨rest, rfl⟩ := hp
  intro i hi
  have hstep := h i (by rw [List.length_append]; omega)
  rwa [List.take_append_of_le_length (Nat.le_of_lt hi), List.getElem_append_left hi] at hstep

theorem Proper.last (h : Proper (program ++ [step])) : Allowed program step := by
  have hstep := h program.length (by simp)
  rwa [List.take_left, List.getElem_concat_length rfl] at hstep

theorem Proper.lt_of_mem (h : Proper program) (hm : release index ∈ program) : index < (sizes program).length := by
  obtain ⟨i, hi, hstep⟩ := List.getElem_of_mem hm
  have hallowed := h i hi
  rw [hstep] at hallowed
  exact Nat.lt_of_lt_of_le hallowed.1 ((List.take_sublist i program).filterMap size?).length_le

/-- A request leaves one more block. -/
theorem kept_request (h : Proper program) (hs : step.size? = some bytes) :
    kept (program ++ [step]) = kept program ++ [(bytes, (sizes program).length)] := by
  have hother : ∀ i, release i ∈ program ++ [step] ↔ release i ∈ program := by
    intro i
    rw [List.mem_append, List.mem_singleton]
    refine or_iff_left ?_
    rintro rfl
    cases hs
  have hnew : release (sizes program).length ∉ program := fun hm => Nat.lt_irrefl _ (h.lt_of_mem hm)
  simp only [kept, hother, sizes_request hs, List.zipIdx_append, List.filter_append, Nat.zero_add,
    List.zipIdx_singleton, List.filter_cons, hnew, not_false_eq_true, decide_true, ↓reduceIte, List.filter_nil]

theorem mem_kept {x : Nat × Nat} : x ∈ kept program ↔ (sizes program)[x.2]? = some x.1 ∧ release x.2 ∉ program := by
  rw [kept, List.mem_filter, List.mem_zipIdx_iff_getElem?, decide_eq_true_eq]

/-- A release takes one of the blocks. -/
theorem kept_release (hsize : (sizes program)[index]? = some bytes) (hnew : release index ∉ program) :
    (kept program).Perm ((bytes, index) :: kept (program ++ [release index])) := by
  have hnodup : (kept program).Nodup := by
    refine (List.Nodup.of_map Prod.snd ?_).filter _
    rw [List.zipIdx_map_snd]
    exact List.nodup_range' ..
  have hmem : (bytes, index) ∈ kept program := mem_kept.2 ⟨hsize, hnew⟩
  have hrest : kept (program ++ [release index]) = (kept program).erase (bytes, index) := by
    rw [hnodup.erase_eq_filter, kept, kept, List.filter_filter, sizes_release]
    refine List.filter_congr fun x hx => ?_
    have hx := List.mem_zipIdx_iff_getElem?.1 hx
    have hindex : x.2 = index ↔ x = (bytes, index) := by
      constructor
      · rintro rfl
        rw [hsize, Option.some_inj] at hx
        rw [hx]
      · rintro rfl
        rfl
    rw [Bool.eq_iff_iff]
    simp [hindex, and_comm]
  rw [hrest]
  exact List.perm_cons_erase hmem

/-! ### The programs of several clients -/

/-- Lists that are the same but for one more item in one of them. -/
theorem flatMap_perm_cons {α β : Type} {f g : α → List β} {c : α} {x : β} {cs : List α} (hd : cs.Nodup) (hm : c ∈ cs)
    (hc : (f c).Perm (x :: g c)) (hne : ∀ d, d ≠ c → f d = g d) : (cs.flatMap f).Perm (x :: cs.flatMap g) := by
  induction cs with
  | nil => exact absurd hm List.not_mem_nil
  | cons d cs ih =>
    obtain ⟨hnot, hd⟩ := List.nodup_cons.1 hd
    rw [List.flatMap_cons, List.flatMap_cons]
    rcases List.mem_cons.1 hm with rfl | hm
    · have hsame : cs.flatMap f = cs.flatMap g := by
        refine List.flatMap_congr fun e he => hne e ?_
        rintro rfl
        exact hnot he
      rw [hsame, ← List.cons_append]
      exact hc.append_right _
    · have hdc : d ≠ c := by
        rintro rfl
        exact hnot hm
      rw [hne d hdc]
      exact ((ih hd hm).append_left _).trans List.perm_middle

variable {programs programs' : Fin k → List ClientStep} {c : Fin k}

theorem outstanding_request (h : Proper (programs c)) (hc : programs' c = programs c ++ [step])
    (hne : ∀ d, d ≠ c → programs' d = programs d) (hs : step.size? = some bytes) :
    (outstanding programs').Perm ((c, (sizes (programs c)).length, bytes) :: outstanding programs) := by
  refine flatMap_perm_cons (List.nodup_finRange k) (List.mem_finRange c) ?_ fun d hd => by rw [hne d hd]
  rw [hc, kept_request h hs, List.map_append]
  exact List.perm_append_singleton ..

theorem outstanding_release (hc : programs' c = programs c ++ [release index])
    (hne : ∀ d, d ≠ c → programs' d = programs d) (hsize : (sizes (programs c))[index]? = some bytes)
    (hnew : release index ∉ programs c) :
    (outstanding programs).Perm ((c, index, bytes) :: outstanding programs') := by
  refine flatMap_perm_cons (List.nodup_finRange k) (List.mem_finRange c) ?_ fun d hd => by rw [hne d hd]
  rw [hc]
  exact (kept_release hsize hnew).map fun x => (c, x.2, x.1)

theorem requested_request (hc : programs' c = programs c ++ [step]) (hne : ∀ d, d ≠ c → programs' d = programs d)
    (hs : step.size? = some bytes) : (requested programs').Perm (bytes :: requested programs) := by
  refine flatMap_perm_cons (List.nodup_finRange k) (List.mem_finRange c) ?_ fun d hd => by rw [hne d hd]
  rw [hc, sizes_request hs]
  exact List.perm_append_singleton ..

theorem requested_release (hc : programs' c = programs c ++ [release index])
    (hne : ∀ d, d ≠ c → programs' d = programs d) : requested programs' = requested programs := by
  refine List.flatMap_congr fun d _ => ?_
  by_cases hd : d = c
  · rw [hd, hc, sizes_release]
  · rw [hne d hd]

theorem mem_outstanding {x : Fin k × Nat × Nat} :
    x ∈ outstanding programs ↔ (sizes (programs x.1))[x.2.1]? = some x.2.2 ∧ release x.2.1 ∉ programs x.1 := by
  obtain ⟨d, index, bytes⟩ := x
  simp only [outstanding, List.mem_flatMap, List.mem_map, Prod.mk.injEq]
  constructor
  · rintro ⟨c, -, y, hy, rfl, rfl, rfl⟩
    exact mem_kept.1 hy
  · intro h
    exact ⟨d, List.mem_finRange d, (bytes, index), mem_kept.2 h, rfl, rfl, rfl⟩

end ClientStep

end BlockTracker
