import BlockTracker.Text.Blank
import BlockTracker.Text.Numeral
import Mathlib.Data.List.DropRight
import Mathlib.Data.List.Forall2
import Mathlib.Data.Nat.Digits.Defs

/-!
# What numerals stand for

A numeral writes a number (`Writes`) if it is a run of one or more digits whose value is that number, with or without a
plus sign in front.  `Numeral.read` gives just the numbers below `2 ^ 64` that are written so (`read_eq_ok_iff`), and it
tells of a larger one that it is too large (`read_of_writes`).  What `trim` leaves of a text is told apart from the
blanks around it (`stripped_iff`).
-/

namespace BlockTracker

/-! ### Texts without the blanks at their ends -/

/-- `t` neither begins nor ends with a blank, and `cs` has only blanks more, before it and behind it. -/
structure Stripped (cs t : List Char) : Prop where
  around : ∃ before after, cs = before ++ t ++ after ∧ (∀ c ∈ before, isBlank c = true) ∧ ∀ c ∈ after, isBlank c = true
  head : ∀ c ∈ t.head?, isBlank c = false
  last : ∀ c ∈ t.getLast?, isBlank c = false

theorem trim_eq (cs : List Char) : trim cs = (cs.dropWhile isBlank).rdropWhile isBlank := rfl

theorem head_trim {cs : List Char} {c : Char} (h : (trim cs).head? = some c) : isBlank c = false := by
  obtain ⟨rest, hrest⟩ := List.rdropWhile_prefix isBlank (cs.dropWhile isBlank)
  rw [← trim_eq] at hrest
  have hhead : (cs.dropWhile isBlank).head? = some c := by rw [← hrest, List.head?_append, h, Option.some_or]
  have hnot := List.head?_dropWhile_not isBlank cs
  rw [hhead] at hnot
  simpa using hnot

theorem stripped_trim (cs : List Char) : Stripped cs (trim cs) where
  around := by
    refine ⟨cs.takeWhile isBlank, (cs.dropWhile isBlank).rtakeWhile isBlank, ?_, ?_, ?_⟩
    · rw [trim_eq, List.append_assoc, List.rdropWhile_append_rtakeWhile, List.takeWhile_append_dropWhile]
    · exact fun c => List.mem_takeWhile_imp
    · exact fun c => List.mem_rtakeWhile_imp
  head _ := head_trim
  last _ := getLast_trim

theorem Stripped.eq_trim {cs t : List Char} (h : Stripped cs t) : t = trim cs := by
  obtain ⟨⟨before, after, rfl, hbefore, hafter⟩, hhead, hlast⟩ := h
  rw [trim_eq, List.append_assoc, List.dropWhile_append_of_pos hbefore]
  rcases t with _ | ⟨c, t⟩
  · rw [List.nil_append, List.dropWhile_eq_nil_iff.2 hafter, List.rdropWhile_nil]
  · have hc : ¬ isBlank c = true := by simp [hhead c rfl]
    rw [List.cons_append, List.dropWhile_cons_of_neg hc, ← List.cons_append]
    -- from the end the same happens to the reversed text
    have hreverse : ∀ a ∈ after.reverse, isBlank a = true := fun a ha => hafter a (List.mem_reverse.1 ha)
    rw [List.rdropWhile, List.reverse_append, List.dropWhile_append_of_pos hreverse, ← List.rdropWhile]
    refine (List.rdropWhile_eq_self_iff.2 fun hne => ?_).symm
    simp [hlast _ (List.getLast?_eq_getLast_of_ne_nil hne)]

theorem stripped_of_not_blank {before t after : List Char} (hbefore : ∀ c ∈ before, isBlank c = true)
    (hafter : ∀ c ∈ after, isBlank c = true) (ht : ∀ c ∈ t, isBlank c = false) :
    Stripped (before ++ t ++ after) t where
  around := ⟨before, after, rfl, hbefore, hafter⟩
  head c hc := ht c (List.mem_of_mem_head? hc)
  last c hc := ht c (List.mem_of_mem_getLast? hc)

theorem stripped_writing {before text after : List Char} (hbefore : ∀ c ∈ before, isBlank c = true)
    (hafter : ∀ c ∈ after, isBlank c = true) (htext : ∀ c ∈ text, isBlank c = false) :
    Stripped (String.ofList (before ++ text ++ after)).toList text := by
  rw [String.toList_ofList]
  exact stripped_of_not_blank hbefore hafter htext

theorem stripped_iff {cs t : List Char} : Stripped cs t ↔ t = trim cs :=
  ⟨Stripped.eq_trim, fun h => h ▸ stripped_trim cs⟩

namespace Numeral

/-! ### Digits -/

/-- `c` is the digit of value `d` in a radix up to sixteen: the letters stand for ten and more, in either case. -/
def IsDigit (radix : Nat) (c : Char) (d : Nat) : Prop :=
  d < radix ∧ (c = d.digitChar ∨ c = d.digitChar.toUpper)

private theorem digitValue_digitChar :
    ∀ d < 16, digitValue d.digitChar = some d ∧ digitValue d.digitChar.toUpper = some d := by
  decide

private theorem digitValue_eq_none {c : Char} (hc : 128 ≤ c.toNat) : digitValue c = none := by
  have hlt {a : Char} (ha : a.toNat < 128) : ¬ c ≤ a := by
    intro hle
    have hle : c.toNat ≤ a.toNat := UInt32.le_iff_toNat_le.1 (Char.le_def.1 hle)
    omega
  rw [digitValue, if_neg fun h => hlt (by decide) h.2, if_neg fun h => hlt (by decide) h.2,
    if_neg fun h => hlt (by decide) h.2]

/-- A character with a value below sixteen is the digit of that value. -/
private theorem eq_digitChar {c : Char} {d : Nat} (h : digitValue c = some d) (hd : d < 16) :
    c = d.digitChar ∨ c = d.digitChar.toUpper := by
  have hascii : ∀ k < 128, ∀ d ∈ digitValue (Char.ofNat k), d < 16 →
      Char.ofNat k = d.digitChar ∨ Char.ofNat k = d.digitChar.toUpper := by decide
  rcases Nat.lt_or_ge c.toNat 128 with hc | hc
  · have hchar := hascii c.toNat hc
    rw [Char.ofNat_toNat] at hchar
    exact hchar d h hd
  · rw [digitValue_eq_none hc] at h
    cases h

theorem digit?_eq_some_iff {radix : Nat} (hr : radix ≤ 16) {c : Char} {d : Nat} :
    digit? radix c = some d ↔ IsDigit radix c d := by
  simp only [digit?, Option.filter_eq_some_iff, decide_eq_true_eq]
  constructor
  · rintro ⟨hvalue, hd⟩
    exact ⟨hd, eq_digitChar hvalue (Nat.lt_of_lt_of_le hd hr)⟩
  · rintro ⟨hd, rfl | rfl⟩
    · exact ⟨(digitValue_digitChar d (Nat.lt_of_lt_of_le hd hr)).1, hd⟩
    · exact ⟨(digitValue_digitChar d (Nat.lt_of_lt_of_le hd hr)).2, hd⟩

theorem IsDigit.plain {radix : Nat} (hr : radix ≤ 16) {c : Char} {d : Nat} (h : IsDigit radix c d) :
    isBlank c = false ∧ c ∉ ['+', '_', 'x', 'X'] := by
  have hall : ∀ d < 16, (isBlank d.digitChar = false ∧ d.digitChar ∉ ['+', '_', 'x', 'X']) ∧
      isBlank d.digitChar.toUpper = false ∧ d.digitChar.toUpper ∉ ['+', '_', 'x', 'X'] := by decide
  obtain ⟨hd, rfl | rfl⟩ := h
  · exact (hall d (Nat.lt_of_lt_of_le hd hr)).1
  · exact (hall d (Nat.lt_of_lt_of_le hd hr)).2

/-! ### Numerals -/

/-- Digits that write `n`, the highest first, with or without a plus sign in front. -/
def Writes (radix : Nat) (cs : List Char) (n : Nat) : Prop :=
  ∃ digits ds, (cs = digits ∨ cs = '+' :: digits) ∧ digits ≠ [] ∧ List.Forall₂ (IsDigit radix) digits ds ∧
    n = Nat.ofDigits radix ds.reverse

/-- The value of digits behind those that gave `acc`. -/
def valueFrom (radix acc : Nat) (ds : List Nat) : Nat := ds.foldl (fun a d => a * radix + d) acc

theorem valueFrom_zero (radix : Nat) (ds : List Nat) : valueFrom radix 0 ds = Nat.ofDigits radix ds.reverse := by
  rw [Nat.ofDigits_eq_foldr, List.foldr_reverse, valueFrom]
  simp only [Nat.cast_id, Nat.mul_comm radix, Nat.add_comm]

theorem le_valueFrom {radix : Nat} (hr : 0 < radix) (acc : Nat) (ds : List Nat) : acc ≤ valueFrom radix acc ds := by
  induction ds generalizing acc with
  | nil => exact Nat.le_refl acc
  | cons d ds ih =>
    calc acc ≤ acc * radix := Nat.le_mul_of_pos_right acc hr
      _ ≤ acc * radix + d := Nat.le_add_right ..
      _ ≤ valueFrom radix (acc * radix + d) ds := ih _

variable {radix : Nat} {cs : List Char} {ds : List Nat} {acc n : Nat}

/-- Once a value has left the range, the digits behind it do not bring it back. -/
theorem readDigits_of_digits (hr : radix ≤ 16) (hcs : List.Forall₂ (IsDigit radix) cs ds) (hacc : acc < wordCount) :
    readDigits radix acc cs =
      if valueFrom radix acc ds < wordCount then .ok (valueFrom radix acc ds) else .error .overflow := by
  induction hcs generalizing acc with
  | nil => rw [valueFrom, List.foldl_nil, if_pos hacc, readDigits]
  | @cons c d cs ds hc _ ih =>
    have hvalue : valueFrom radix acc (d :: ds) = valueFrom radix (acc * radix + d) ds := rfl
    rw [readDigits, (digit?_eq_some_iff hr).2 hc, hvalue]
    by_cases hnext : acc * radix + d < wordCount
    · exact (if_pos hnext).trans (ih hnext)
    · have hle := le_valueFrom (Nat.zero_lt_of_lt hc.1) (acc * radix + d) ds
      exact (if_neg hnext).trans (if_neg fun hlt => hnext (Nat.lt_of_le_of_lt hle hlt)).symm

/-- What is read to the end is digits. -/
theorem digits_of_readDigits (hr : radix ≤ 16) (h : readDigits radix acc cs = .ok n) :
    ∃ ds, List.Forall₂ (IsDigit radix) cs ds := by
  induction cs generalizing acc with
  | nil => exact ⟨[], .nil⟩
  | cons c cs ih =>
    rw [readDigits] at h
    split at h
    · cases h
    · next d hd =>
      split at h
      · obtain ⟨ds, hds⟩ := ih h
        exact ⟨d :: ds, .cons ((digit?_eq_some_iff hr).1 hd) hds⟩
      · cases h

theorem read_plus (hcs : cs ≠ []) : read radix ('+' :: cs) = readDigits radix 0 cs := by
  rcases cs with _ | ⟨c, cs⟩
  · exact absurd rfl hcs
  · rfl

theorem read_of_ne_plus (hcs : cs ≠ []) (hplus : cs.head? ≠ some '+') : read radix cs = readDigits radix 0 cs := by
  unfold read
  split
  · exact absurd rfl hcs
  · exact absurd rfl hplus
  · exact absurd rfl hplus
  · rfl

/-- A numeral has no blanks in it, and no mark of another radix. -/
theorem Writes.plain (hr : radix ≤ 16) (h : Writes radix cs n) {c : Char} (hc : c ∈ cs) :
    isBlank c = false ∧ c ∉ ['_', 'x', 'X'] := by
  obtain ⟨digits, ds, hcs, -, hdigits, -⟩ := h
  have hdigit (hmem : c ∈ digits) : isBlank c = false ∧ c ∉ ['_', 'x', 'X'] := by
    obtain ⟨i, hi, rfl⟩ := List.getElem_of_mem hmem
    have hplain := (hdigits.get hi (hdigits.length_eq ▸ hi)).plain hr
    exact ⟨hplain.1, fun hmark => hplain.2 (List.mem_cons_of_mem _ hmark)⟩
  rcases hcs with rfl | rfl
  · exact hdigit hc
  · rcases List.mem_cons.1 hc with rfl | hmem
    · decide
    · exact hdigit hmem

/-- With underscores in it, a numeral still has no blanks and no mark. -/
theorem plain_of_writes_filter {digits : List Char} (hr : radix ≤ 16) (h : Writes radix (digits.filter (· ≠ '_')) n)
    {c : Char} (hc : c ∈ digits) : isBlank c = false ∧ c ≠ 'x' ∧ c ≠ 'X' := by
  by_cases hunderscore : c = '_'
  · subst hunderscore
    decide
  · obtain ⟨hblank, hmark⟩ := h.plain hr (List.mem_filter.2 ⟨hc, decide_eq_true hunderscore⟩)
    exact ⟨hblank, fun hx => hmark (by simp [hx]), fun hx => hmark (by simp [hx])⟩

/-- A written number below `2 ^ 64` is read, and a larger one is too large. -/
theorem read_of_writes (hr : radix ≤ 16) (h : Writes radix cs n) :
    read radix cs = if n < wordCount then .ok n else .error .overflow := by
  obtain ⟨digits, ds, hcs, hne, hdigits, rfl⟩ := h
  rw [← valueFrom_zero, ← readDigits_of_digits hr hdigits (by decide)]
  rcases hcs with rfl | rfl
  · refine read_of_ne_plus hne fun hplus => ?_
    rcases hdigits with _ | ⟨hc, _⟩
    · cases hplus
    · refine (hc.plain hr).2 ?_
      rw [Option.some.inj hplus]
      decide
  · exact read_plus hne

theorem writes_of_read (hr : radix ≤ 16) (h : read radix cs = .ok n) : Writes radix cs n := by
  obtain ⟨digits, hcs, hne, hread⟩ :
      ∃ digits, (cs = digits ∨ cs = '+' :: digits) ∧ digits ≠ [] ∧ readDigits radix 0 digits = .ok n := by
    rcases cs with _ | ⟨c, cs⟩
    · cases h
    by_cases hc : c = '+'
    · subst hc
      have hne : cs ≠ [] := by
        rintro rfl
        cases h
      exact ⟨cs, .inr rfl, hne, by rwa [read_plus hne] at h⟩
    · refine ⟨c :: cs, .inl rfl, List.cons_ne_nil c cs, ?_⟩
      rwa [read_of_ne_plus (List.cons_ne_nil c cs) fun hplus => hc (Option.some.inj hplus)] at h
  obtain ⟨ds, hds⟩ := digits_of_readDigits hr hread
  refine ⟨digits, ds, hcs, hne, hds, ?_⟩
  rw [readDigits_of_digits hr hds (by decide), valueFrom_zero] at hread
  split at hread
  · exact (Except.ok.inj hread).symm
  · cases hread

/-- `read` gives just the numbers below `2 ^ 64` that are written. -/
theorem read_eq_ok_iff (hr : radix ≤ 16) : read radix cs = .ok n ↔ Writes radix cs n ∧ n < wordCount := by
  constructor
  · intro h
    have hwrites := writes_of_read hr h
    refine ⟨hwrites, Decidable.byContradiction fun hlarge => ?_⟩
    rw [read_of_writes hr hwrites, if_neg hlarge] at h
    cases h
  · rintro ⟨hwrites, hn⟩
    rw [read_of_writes hr hwrites, if_pos hn]

/-! ### Every number is written -/

theorem digits_toDigits (hr : 1 < radix) (n : Nat) :
    ∃ ds, List.Forall₂ (IsDigit radix) (Nat.toDigits radix n) ds ∧ Nat.ofDigits radix ds.reverse = n := by
  induction n using Nat.base_induction radix hr with
  | single d hd =>
    rw [Nat.toDigits_of_lt_base hd]
    exact ⟨[d], .cons ⟨hd, .inl rfl⟩ .nil, by simp⟩
  | digit n d hd hn ih =>
    obtain ⟨ds, hds, hvalue⟩ := ih
    rw [← Nat.toDigits_append_toDigits hr hn hd, Nat.toDigits_of_lt_base hd]
    refine ⟨ds ++ [d], List.rel_append hds (.cons ⟨hd, .inl rfl⟩ .nil), ?_⟩
    rw [List.reverse_append, List.reverse_singleton, List.singleton_append, Nat.ofDigits_cons, hvalue, Nat.add_comm]

/-- The digits of a number write it, behind any number of zeros. -/
theorem writes_toDigits (hr : 1 < radix) (zeros n : Nat) :
    Writes radix (List.replicate zeros '0' ++ Nat.toDigits radix n) n := by
  obtain ⟨ds, hds, hvalue⟩ := digits_toDigits hr n
  have hzero : IsDigit radix '0' 0 := ⟨Nat.zero_lt_of_lt hr, .inl rfl⟩
  have hzeros : List.Forall₂ (IsDigit radix) (List.replicate zeros '0') (List.replicate zeros 0) := by
    induction zeros with
    | zero => exact .nil
    | succ zeros ih => exact .cons hzero ih
  refine ⟨_, List.replicate zeros 0 ++ ds, .inl rfl, ?_, List.rel_append hzeros hds, ?_⟩
  · exact fun h => Nat.toDigits_ne_nil (List.append_eq_nil_iff.1 h).2
  · rw [List.reverse_append, List.reverse_replicate, Nat.ofDigits_append_replicate_zero, hvalue]

end Numeral

end BlockTracker
