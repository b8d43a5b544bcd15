import BlockTracker.Handle

/-!
# Primitives and calls

An allocator is used through four primitives.  `PerPrimitive` is a family with one member for each, and `Call` is a
primitive with its arguments.
-/

namespace BlockTracker

inductive Primitive
  | allocate
  | zeroAllocate
  | reallocate
  | release
deriving DecidableEq, Repr

def Primitive.name : Primitive → String
  | allocate => "allocate"
  | zeroAllocate => "zero_allocate"
  | reallocate => "reallocate"
  | release => "release"

/-- One value for each primitive. -/
structure PerPrimitive (α : Type) where
  allocate : α
  zeroAllocate : α
  reallocate : α
  release : α
deriving DecidableEq

namespace PerPrimitive

variable {α β : Type}

def get (q : PerPrimitive α) : Primitive → α
  | .allocate => q.allocate
  | .zeroAllocate => q.zeroAllocate
  | .reallocate => q.reallocate
  | .release => q.release

/-- The same value for every primitive. -/
def all (a : α) : PerPrimitive α := ⟨a, a, a, a⟩

def map (f : α → β) (q : PerPrimitive α) : PerPrimitive β :=
  ⟨f q.allocate, f q.zeroAllocate, f q.reallocate, f q.release⟩

def zipWith {γ : Type} (f : α → β → γ) (q : PerPrimitive α) (r : PerPrimitive β) : PerPrimitive γ :=
  ⟨f q.allocate r.allocate, f q.zeroAllocate r.zeroAllocate, f q.reallocate r.reallocate, f q.release r.release⟩

/-- Changes the value of one primitive. -/
def modify (q : PerPrimitive α) (p : Primitive) (f : α → α) : PerPrimitive α :=
  match p with
  | .allocate => { q with allocate := f q.allocate }
  | .zeroAllocate => { q with zeroAllocate := f q.zeroAllocate }
  | .reallocate => { q with reallocate := f q.reallocate }
  | .release => { q with release := f q.release }

/-- The values with the printed names of their primitives, in order. -/
def fields (q : PerPrimitive α) : List (String × α) :=
  [(Primitive.allocate.name, q.allocate), (Primitive.zeroAllocate.name, q.zeroAllocate),
   (Primitive.reallocate.name, q.reallocate), (Primitive.release.name, q.release)]

@[simp] theorem get_all (a : α) (p : Primitive) : (all a).get p = a := by cases p <;> rfl

@[simp] theorem get_map (f : α → β) (q : PerPrimitive α) (p : Primitive) : (q.map f).get p = f (q.get p) := by
  cases p <;> rfl

@[simp] theorem get_zipWith {γ : Type} (f : α → β → γ) (q : PerPrimitive α) (r : PerPrimitive β) (p : Primitive) :
    (q.zipWith f r).get p = f (q.get p) (r.get p) := by
  cases p <;> rfl

theorem get_modify (q : PerPrimitive α) (p p' : Primitive) (f : α → α) :
    (q.modify p f).get p' = if p' = p then f (q.get p') else q.get p' := by
  cases p <;> cases p' <;> rfl

theorem ext_get {q r : PerPrimitive α} (h : ∀ p, q.get p = r.get p) : q = r := by
  obtain ⟨a, b, c, d⟩ := q
  obtain ⟨a', b', c', d'⟩ := r
  obtain ⟨rfl, rfl, rfl, rfl⟩ : a = a' ∧ b = b' ∧ c = c' ∧ d = d' :=
    ⟨h .allocate, h .zeroAllocate, h .reallocate, h .release⟩
  rfl

end PerPrimitive

/-- A primitive with its arguments.  Resizing no block is a way to allocate. -/
inductive Call
  | allocate (bytes : Nat)
  | zeroAllocate (bytes : Nat)
  | reallocate (old : Option Handle) (bytes : Nat)
  | release (block : Handle)
deriving DecidableEq

def Call.primitive : Call → Primitive
  | allocate _ => .allocate
  | zeroAllocate _ => .zeroAllocate
  | reallocate _ _ => .reallocate
  | release _ => .release

/-- The size that a call asks for. -/
def Call.bytes : Call → Nat
  | allocate bytes => bytes
  | zeroAllocate bytes => bytes
  | reallocate _ bytes => bytes
  | release _ => 0

end BlockTracker
