import BlockTracker.Workload.Random
import BlockTracker.Workload.Spec
import Mathlib.Data.FinEnum
import Mathlib.Logic.Function.Iterate

/-!
# Streams of random numbers

A word combined with a shifted copy of itself determines the word, since a shift that is repeated leaves nothing
(`xor_injective_of_iterate`).  So the state of a generator can be told from the one that follows it
(`advance_injective`), and a word from its output (`scramble_injective`): a stream that does not start at 0 never comes
there, and two streams with different states stay apart (`streams_apart`).  The workers of a workload have different
seeds, and the only different seeds that stand for one state are 0 and 1.
-/

namespace BlockTracker

namespace Xorshift

/-! ### Words that can be told from their images -/

section Words

variable {w : Nat}

/-- Here `f` keeps differences, and repeated often enough it leaves nothing of any word. -/
theorem xor_injective_of_iterate {f : BitVec w → BitVec w} (hxor : ∀ x y, f (x ^^^ y) = f x ^^^ f y) {n : Nat}
    (hf : ∀ x, f^[n] x = 0#w) : Function.Injective fun x => x ^^^ f x := by
  intro x y h
  simp only at h
  -- the difference of the two is a word that `f` does not change
  have hfixed : f (x ^^^ y) = x ^^^ y := by
    rw [hxor, ← BitVec.xor_eq_zero_iff]
    calc f x ^^^ f y ^^^ (x ^^^ y) = (x ^^^ f x) ^^^ (y ^^^ f y) := by ac_rfl
      _ = 0#w := by rw [h, BitVec.xor_self]
  have hzero := hf (x ^^^ y)
  rw [Function.iterate_fixed hfixed] at hzero
  exact BitVec.xor_eq_zero_iff.1 hzero

theorem iterate_shiftRight (k n : Nat) (x : BitVec w) : (fun y : BitVec w => y >>> k)^[n] x = x >>> (n * k) := by
  induction n with
  | zero => rw [Function.iterate_zero_apply, Nat.zero_mul, BitVec.ushiftRight_zero]
  | succ n ih => rw [Function.iterate_succ_apply', ih, ← BitVec.shiftRight_add, Nat.succ_mul]

theorem iterate_shiftLeft (k n : Nat) (x : BitVec w) : (fun y : BitVec w => y <<< k)^[n] x = x <<< (n * k) := by
  induction n with
  | zero => rw [Function.iterate_zero_apply, Nat.zero_mul, BitVec.shiftLeft_zero]
  | succ n ih => rw [Function.iterate_succ_apply', ih, ← BitVec.shiftLeft_add, Nat.succ_mul]

theorem xor_shiftRight_injective {k : Nat} (hk : 0 < k) : Function.Injective fun x : BitVec w => x ^^^ x >>> k := by
  refine xor_injective_of_iterate (fun x y => BitVec.ushiftRight_xor_distrib x y k) (n := w) fun x => ?_
  rw [iterate_shiftRight]
  exact BitVec.ushiftRight_eq_zero (Nat.le_mul_of_pos_right w hk)

theorem xor_shiftLeft_injective {k : Nat} (hk : 0 < k) : Function.Injective fun x : BitVec w => x ^^^ x <<< k := by
  refine xor_injective_of_iterate (fun x y => BitVec.shiftLeft_xor_distrib x y k) (n := w) fun x => ?_
  rw [iterate_shiftLeft]
  exact BitVec.shiftLeft_eq_zero (Nat.le_mul_of_pos_right w hk)

/-- A factor that another one takes back. -/
theorem mul_injective {c d : UInt64} (hc : c * d = 1) : Function.Injective (· * c) := by
  intro x y h
  calc x = x * c * d := by rw [UInt64.mul_assoc, hc, UInt64.mul_one]
    _ = y * c * d := congrArg (· * d) h
    _ = y := by rw [UInt64.mul_assoc, hc, UInt64.mul_one]

end Words

theorem advance_injective : Function.Injective advance := by
  intro x y h
  have h := congrArg UInt64.toBitVec h
  exact UInt64.toBitVec_inj.1 (xor_shiftRight_injective (k := 12) (by decide)
    (xor_shiftLeft_injective (k := 25) (by decide) (xor_shiftRight_injective (k := 27) (by decide) h)))

theorem advance_zero : advance 0 = 0 := by decide

theorem scramble_injective : Function.Injective scramble := mul_injective (d := 0x59071D96D81ECD35) (by decide)

/-! ### Draws -/

/-- A generator after a number of draws. -/
def after (g : Xorshift) (draws : Nat) : Xorshift := (fun g => g.next.2)^[draws] g

variable {g g' : Xorshift}

theorem state_after (g : Xorshift) (n : Nat) : (g.after n).state = advance^[n] g.state := by
  induction n generalizing g with
  | zero => rfl
  | succ n ih => exact ih g.next.2

theorem output_after (g : Xorshift) (n : Nat) : (g.after n).next.1 = scramble (advance^[n + 1] g.state) := by
  have hnext : (g.after n).next.1 = scramble (advance (g.after n).state) := rfl
  rw [hnext, state_after, ← Function.iterate_succ_apply' advance]

theorem state_after_inj {n : Nat} : (g.after n).state = (g'.after n).state ↔ g.state = g'.state := by
  rw [state_after, state_after]
  exact (advance_injective.iterate n).eq_iff

/-- The output at a state gives the state away. -/
theorem next_inj : g.next.1 = g'.next.1 ↔ g.state = g'.state :=
  (scramble_injective.comp advance_injective).eq_iff

theorem state_seeded_ne_zero (seed : UInt64) : (seeded seed).state ≠ 0 := by
  unfold seeded
  split
  · decide
  · assumption

/-- The state 0 is only reached from itself. -/
theorem state_after_ne_zero (h : g.state ≠ 0) (n : Nat) : (g.after n).state ≠ 0 := by
  have hzero : (after ⟨0⟩ n).state = 0 := by rw [state_after, Function.iterate_fixed advance_zero]
  rw [← hzero]
  exact fun heq => h (state_after_inj.1 heq)

theorem next_ne_zero (h : g.state ≠ 0) : g.next.1 ≠ 0 := by
  have hzero : (⟨0⟩ : Xorshift).next.1 = 0 := by decide
  rw [← hzero]
  exact fun heq => h (next_inj.1 heq)

/-- Two seeds stand for one state only if they are the same or 0 and 1. -/
theorem seeded_inj {s s' : UInt64} : seeded s = seeded s' ↔ s = s' ∨ s = 0 ∧ s' = 1 ∨ s = 1 ∧ s' = 0 := by
  simp only [seeded, Xorshift.mk.injEq]
  split <;> split
  all_goals grind

end Xorshift

/-! ### Workers -/

/-- Workers that can be counted by a word have different seeds. -/
theorem WorkloadSpec.workerSeed_inj {seed : UInt64} {i j : Nat} (hi : i < 2 ^ 64) (hj : j < 2 ^ 64) :
    workerSeed seed i = workerSeed seed j ↔ i = j := by
  refine ⟨fun h => ?_, fun h => h ▸ rfl⟩
  have hfactor : Function.Injective (· * (0x9E3779B97F4A7C15 : UInt64)) :=
    Xorshift.mul_injective (d := 0xF1DE83E19937733D) (by decide)
  have hword : UInt64.ofNat i = UInt64.ofNat j := (UInt64.add_left_inj 1).1 (hfactor ((UInt64.xor_right_inj seed).1 h))
  have htoNat := congrArg UInt64.toNat hword
  rwa [UInt64.toNat_ofNat', UInt64.toNat_ofNat', Nat.mod_eq_of_lt hi, Nat.mod_eq_of_lt hj] at htoNat

open Xorshift WorkloadSpec

/-- Every state follows just one state, and 0 follows itself; a draw takes a generator to the state that follows and
puts out that state scrambled.  So the stream of a seed never comes to the state 0 and has no output 0, and generators
with different states stay in different states and put out different words at every draw.  The workers of a workload
have different seeds, whatever the seed of the workload, and two of them start with the same state only if their seeds
are 0 and 1. -/
theorem streams_apart :
    Function.Bijective advance ∧ advance 0 = 0 ∧
    (∀ (g : Xorshift) draws, (g.after draws).state = advance^[draws] g.state ∧
      (g.after draws).next.1 = scramble (advance^[draws + 1] g.state)) ∧
    (∀ seed draws, ((seeded seed).after draws).state ≠ 0 ∧ ((seeded seed).after draws).next.1 ≠ 0) ∧
    (∀ g g' : Xorshift, g.state ≠ g'.state → ∀ draws,
      (g.after draws).state ≠ (g'.after draws).state ∧ (g.after draws).next.1 ≠ (g'.after draws).next.1) ∧
    (∀ seed threads i j, threads ≤ 2 ^ 64 → i < threads → j < threads → i ≠ j →
      workerSeed seed i ≠ workerSeed seed j ∧
      (seeded (workerSeed seed i) = seeded (workerSeed seed j) ↔
        workerSeed seed i = 0 ∧ workerSeed seed j = 1 ∨ workerSeed seed i = 1 ∧ workerSeed seed j = 0)) ∧
    seeded 0 = ⟨1⟩ ∧ seeded 1 = ⟨1⟩ := by
  refine ⟨Finite.injective_iff_bijective.1 advance_injective, advance_zero,
    fun g n => ⟨state_after g n, output_after g n⟩, fun seed n => ?_, fun g g' h n => ?_, ?_, rfl, rfl⟩
  · have hstate := state_after_ne_zero (state_seeded_ne_zero seed) n
    exact ⟨hstate, next_ne_zero hstate⟩
  · have hstate : (g.after n).state ≠ (g'.after n).state := fun heq => h (state_after_inj.1 heq)
    exact ⟨hstate, fun heq => hstate (next_inj.1 heq)⟩
  · intro seed threads i j hthreads hi hj hne
    have hseeds : workerSeed seed i ≠ workerSeed seed j := fun heq =>
      hne ((workerSeed_inj (Nat.lt_of_lt_of_le hi hthreads) (Nat.lt_of_lt_of_le hj hthreads)).1 heq)
    exact ⟨hseeds, seeded_inj.trans (or_iff_right hseeds)⟩

/-- Seeds next to each other after a million draws, and the last two of the most workers that a word counts, on a seed
that turns the seed of the first worker into 0. -/
theorem streams_apart_far :
    ((seeded 1).after 1000000).next.1 ≠ ((seeded 2).after 1000000).next.1 ∧
      workerSeed 0x9E3779B97F4A7C15 0 = 0 ∧
      workerSeed 0x9E3779B97F4A7C15 (2 ^ 64 - 3) ≠ workerSeed 0x9E3779B97F4A7C15 (2 ^ 64 - 2) := by
  obtain ⟨-, -, -, -, hdraws, hworkers, -⟩ := streams_apart
  have hseeds := hworkers 0x9E3779B97F4A7C15 (2 ^ 64 - 1) (2 ^ 64 - 3) (2 ^ 64 - 2)
  exact ⟨(hdraws (seeded 1) (seeded 2) (by decide) 1000000).2, by decide,
    (hseeds (by decide) (by decide) (by decide) (by decide)).1⟩

end BlockTracker
