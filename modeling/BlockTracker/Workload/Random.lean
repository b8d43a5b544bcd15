/-!
# Random numbers

A 64-bit xorshift generator whose outputs are multiplied by an odd constant.  The state is never 0: a seed of 0
stands for 1.  A number that is drawn from a range lies in it (`le_range`, `range_le`).
-/

namespace BlockTracker

structure Xorshift where
  state : UInt64
deriving DecidableEq, Repr

namespace Xorshift

def seeded (seed : UInt64) : Xorshift := ⟨if seed = 0 then 1 else seed⟩

/-- The state that follows a state. -/
def advance (x : UInt64) : UInt64 :=
  let x := x ^^^ (x >>> 12)
  let x := x ^^^ (x <<< 25)
  x ^^^ (x >>> 27)

/-- The output for a state. -/
def scramble (x : UInt64) : UInt64 := x * 0x2545F4914F6CDD1D

def next (g : Xorshift) : UInt64 × Xorshift :=
  let x := advance g.state
  (scramble x, ⟨x⟩)

/-- A number from `low` to `high`. -/
def range (g : Xorshift) (low high : Nat) : Nat × Xorshift :=
  let (x, g) := g.next
  (low + x.toNat % (high - low + 1), g)

theorem le_range (g : Xorshift) (low high : Nat) : low ≤ (g.range low high).1 := Nat.le_add_right ..

theorem range_le (g : Xorshift) {low high : Nat} (h : low ≤ high) : (g.range low high).1 ≤ high := by
  have hmod : g.next.1.toNat % (high - low + 1) < high - low + 1 := Nat.mod_lt _ (Nat.succ_pos _)
  have hvalue : (g.range low high).1 = low + g.next.1.toNat % (high - low + 1) := rfl
  omega

end Xorshift

end BlockTracker
