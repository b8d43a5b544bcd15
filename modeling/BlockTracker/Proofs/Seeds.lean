import BlockTracker.CommandLine.Seed
import BlockTracker.Proofs.Numerals

/-!
# Which texts are seeds

The blanks are taken away before the mark is looked for, and the underscores after it, so a mark with an underscore in
it is no mark.  A text is a seed if what is left without the blanks writes a number below `2 ^ 64` (`WritesSeed`,
`parseSeed_eq_ok_iff`); if it writes a larger one, `parseSeed` tells of it and does not wrap it (`parseSeed_of_writes`).
-/

namespace BlockTracker

open Numeral

/-- Without its underscores, what stands behind the mark writes `n` in hexadecimal digits, or the whole text does in
decimal digits if there is no mark. -/
def WritesSeed (t : List Char) (n : Nat) : Prop :=
  (∃ mark rest, t = '0' :: mark :: rest ∧ (mark = 'x' ∨ mark = 'X') ∧ Writes 16 (rest.filter (· ≠ '_')) n) ∨
    ((∀ mark rest, t = '0' :: mark :: rest → mark ≠ 'x' ∧ mark ≠ 'X') ∧ Writes 10 (t.filter (· ≠ '_')) n)

theorem seedRadix_of_mark {mark : Char} (h : mark = 'x' ∨ mark = 'X') (rest : List Char) :
    seedRadix ('0' :: mark :: rest) = (16, rest) := by
  rcases h with rfl | rfl <;> rfl

theorem seedRadix_of_no_mark {t : List Char} (h : ∀ mark rest, t = '0' :: mark :: rest → mark ≠ 'x' ∧ mark ≠ 'X') :
    seedRadix t = (10, t) := by
  unfold seedRadix
  split
  · exact absurd rfl (h _ _ rfl).1
  · exact absurd rfl (h _ _ rfl).2
  · rfl

/-- `seedRadix` tells the radix and the digits that `WritesSeed` asks for. -/
theorem writesSeed_iff {t : List Char} {n : Nat} :
    WritesSeed t n ↔ Writes (seedRadix t).1 (dropUnderscores (seedRadix t).2) n := by
  constructor
  · rintro (⟨mark, rest, rfl, hmark, hwrites⟩ | ⟨hmark, hwrites⟩)
    · rwa [seedRadix_of_mark hmark]
    · rwa [seedRadix_of_no_mark hmark]
  · intro h
    by_cases hmark : ∃ mark rest, t = '0' :: mark :: rest ∧ (mark = 'x' ∨ mark = 'X')
    · obtain ⟨mark, rest, rfl, hmark⟩ := hmark
      rw [seedRadix_of_mark hmark] at h
      exact .inl ⟨mark, rest, rfl, hmark, h⟩
    · have hmark (mark rest) (ht : t = '0' :: mark :: rest) : mark ≠ 'x' ∧ mark ≠ 'X' :=
        not_or.1 fun hx => hmark ⟨mark, rest, ht, hx⟩
      rw [seedRadix_of_no_mark hmark] at h
      exact .inr ⟨hmark, h⟩

theorem seedRadix_le (t : List Char) : (seedRadix t).1 ≤ 16 := by
  unfold seedRadix
  split <;> simp

variable {raw : String} {t : List Char} {n : Nat}

theorem parseSeed_of_writes (ht : Stripped raw.toList t) (h : WritesSeed t n) :
    parseSeed raw = if n < wordCount then .ok n else .error .overflow := by
  rw [writesSeed_iff, ht.eq_trim] at h
  exact read_of_writes (seedRadix_le _) h

theorem parseSeed_eq_ok_iff (ht : Stripped raw.toList t) :
    parseSeed raw = .ok n ↔ WritesSeed t n ∧ n < wordCount := by
  rw [writesSeed_iff, ht.eq_trim]
  exact read_eq_ok_iff (seedRadix_le _)

/-! ### Every way to write a number -/

theorem writesSeed_decimal {digits : List Char} (h : Writes 10 (digits.filter (· ≠ '_')) n) : WritesSeed digits n := by
  refine .inr ⟨?_, h⟩
  rintro mark rest rfl
  exact (plain_of_writes_filter (by decide) h (by simp)).2

theorem writesSeed_hexadecimal {mark : Char} {digits : List Char} (hmark : mark = 'x' ∨ mark = 'X')
    (h : Writes 16 (digits.filter (· ≠ '_')) n) : WritesSeed ('0' :: mark :: digits) n :=
  .inl ⟨mark, digits, rfl, hmark, h⟩

/-- A seed is a text that, without the blanks around it, writes a number below `2 ^ 64`, and any other text is in error.
So every number below `2 ^ 64` is the seed that each of its writings gives: in decimal digits, or in hexadecimal digits
behind `0x` or `0X`, with zeros in front, underscores behind the mark and blanks around.  A writing of a number from
`2 ^ 64` on is too large. -/
theorem parseSeed_grammar :
    (∀ raw : String, ∃ t, (∀ s, Stripped raw.toList s ↔ s = t) ∧
      (∀ n, parseSeed raw = .ok n ↔ WritesSeed t n ∧ n < 2 ^ 64) ∧
      ((∃ e, parseSeed raw = .error e) ↔ ∀ n, WritesSeed t n → 2 ^ 64 ≤ n)) ∧
    (∀ (n : Nat) (before digits after : List Char),
      (∀ c ∈ before, isBlank c = true) → (∀ c ∈ after, isBlank c = true) →
      (Writes 10 (digits.filter (· ≠ '_')) n →
        let raw := String.ofList (before ++ digits ++ after)
        (n < 2 ^ 64 → parseSeed raw = .ok n) ∧ (2 ^ 64 ≤ n → parseSeed raw = .error .overflow)) ∧
      ∀ mark, mark = 'x' ∨ mark = 'X' → Writes 16 (digits.filter (· ≠ '_')) n →
        let raw := String.ofList (before ++ ('0' :: mark :: digits) ++ after)
        (n < 2 ^ 64 → parseSeed raw = .ok n) ∧ (2 ^ 64 ≤ n → parseSeed raw = .error .overflow)) ∧
    ∀ n zeros, Writes 10 (List.replicate zeros '0' ++ Nat.toDigits 10 n) n ∧
      Writes 16 (List.replicate zeros '0' ++ Nat.toDigits 16 n) n := by
  refine ⟨fun raw => ?_, ?_, fun n zeros => ⟨writes_toDigits (by decide) .., writes_toDigits (by decide) ..⟩⟩
  · have hstripped := stripped_trim raw.toList
    refine ⟨_, fun s => stripped_iff, fun n => parseSeed_eq_ok_iff hstripped, ?_, fun hlarge => ?_⟩
    · rintro ⟨e, he⟩ n hn
      refine Nat.le_of_not_lt fun hlt => ?_
      rw [(parseSeed_eq_ok_iff hstripped).2 ⟨hn, hlt⟩] at he
      cases he
    · cases hparse : parseSeed raw with
      | error e => exact ⟨e, rfl⟩
      | ok n =>
        obtain ⟨hn, hlt⟩ := (parseSeed_eq_ok_iff hstripped).1 hparse
        exact absurd (hlarge n hn) (Nat.not_le_of_lt hlt)
  · intro n before digits after hbefore hafter
    have hresult {raw : String} {t : List Char} (ht : Stripped raw.toList t) (hn : WritesSeed t n) :
        (n < 2 ^ 64 → parseSeed raw = .ok n) ∧ (2 ^ 64 ≤ n → parseSeed raw = .error .overflow) :=
      ⟨fun hlt => (parseSeed_of_writes ht hn).trans (if_pos hlt),
        fun hle => (parseSeed_of_writes ht hn).trans (if_neg (Nat.not_lt_of_le hle))⟩
    refine ⟨fun hn => ?_, fun mark hmark hn => ?_⟩
    · refine hresult (stripped_writing hbefore hafter fun c hc => ?_) (writesSeed_decimal hn)
      exact (plain_of_writes_filter (by decide) hn hc).1
    · refine hresult (stripped_writing hbefore hafter ?_) (writesSeed_hexadecimal hmark hn)
      simp only [List.forall_mem_cons]
      refine ⟨by decide, ?_, fun c hc => (plain_of_writes_filter (by decide) hn hc).1⟩
      rcases hmark with rfl | rfl <;> decide

/-- The largest seed in hexadecimal digits of either case, and the number behind it in decimal digits. -/
theorem parseSeed_grammar_largest :
    parseSeed "\t0X__+00fFFF_ffff_FFFF_ffff " = .ok (2 ^ 64 - 1) ∧
      parseSeed "18_446_744_073_709_551_616\n" = .error .overflow := by
  obtain ⟨-, hwritten, hdigits⟩ := parseSeed_grammar
  have hlargest : Writes 16 ("__+00fFFF_ffff_FFFF_ffff".toList.filter (· ≠ '_')) (2 ^ 64 - 1) :=
    writes_of_read (by decide) (by decide)
  have hfilter : "18_446_744_073_709_551_616".toList.filter (· ≠ '_') = Nat.toDigits 10 (2 ^ 64) := by decide
  have hnext : Writes 10 ("18_446_744_073_709_551_616".toList.filter (· ≠ '_')) (2 ^ 64) := by
    rw [hfilter]
    exact (hdigits (2 ^ 64) 0).1
  have hblank {c : Char} (hc : isBlank c = true) : ∀ d ∈ [c], isBlank d = true := List.forall_mem_singleton.2 hc
  have hhexadecimal := (hwritten _ ['\t'] _ [' '] (hblank (by decide)) (hblank (by decide))).2 'X' (.inr rfl) hlargest
  have hdecimal := (hwritten _ [] _ ['\n'] nofun (hblank (by decide))).1 hnext
  exact ⟨hhexadecimal.1 (by decide), hdecimal.2 (Nat.le_refl _)⟩

end BlockTracker
