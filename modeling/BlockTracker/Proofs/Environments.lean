import BlockTracker.Proofs.Numerals
import BlockTracker.Settings

/-!
# What an environment asks for

A variable asks for a number of slots if its text, without blanks around it and without underscores, writes a positive
number below `2 ^ 64` (`WritesCapacity`), and for a kind if its text is one of the names of that kind (`NamesKind`).
The settings of an environment hold what each variable asks for, and the default where it asks for nothing
(`capacity_ofEnvironment_iff`, `kind_ofEnvironment_iff`), so neither variable decides what the other one stands for.
Settings that come from there, by any changes, have the positive numbers below `2 ^ 64` for their slots and no others
(`obtained_iff`).
-/

namespace BlockTracker

open Numeral

/-! ### Names of kinds -/

/-- A text that is one of the names of `kind`, with blanks around it and in letters of either case. -/
def NamesKind (raw : String) (kind : Kind) : Prop :=
  ∃ t, Stripped raw.toList t ∧ ∃ name ∈ kind.aliases, t.map Char.toLower = name.toList

theorem namesKind_iff {raw : String} {kind : Kind} :
    NamesKind raw kind ↔ String.ofList ((trim raw.toList).map Char.toLower) ∈ kind.aliases := by
  constructor
  · rintro ⟨t, ht, name, hname, hword⟩
    rwa [← ht.eq_trim, hword, String.ofList_toList]
  · exact fun h => ⟨_, stripped_trim _, _, h, String.toList_ofList.symm⟩

/-- No name stands for two kinds. -/
theorem eq_of_mem_aliases {name : String} {k k' : Kind} (h : name ∈ k.aliases) (h' : name ∈ k'.aliases) : k = k' := by
  have hdisjoint : ∀ a ∈ Kind.platform.aliases, a ∉ Kind.system.aliases := by decide
  cases k <;> cases k'
  · rfl
  · exact absurd h' (hdisjoint name h)
  · exact absurd h (hdisjoint name h')
  · rfl

theorem parseKind_eq_ok_iff {raw : String} {kind : Kind} : Kind.parse raw = .ok kind ↔ NamesKind raw kind := by
  rw [namesKind_iff, Kind.parse]
  generalize String.ofList ((trim raw.toList).map Char.toLower) = word
  by_cases hp : word ∈ Kind.platform.aliases
  · simp only [hp, ↓reduceIte, Except.ok.injEq]
    exact ⟨fun h => h ▸ hp, eq_of_mem_aliases hp⟩
  by_cases hs : word ∈ Kind.system.aliases
  · simp only [hp, hs, ↓reduceIte, Except.ok.injEq]
    exact ⟨fun h => h ▸ hs, eq_of_mem_aliases hs⟩
  · simp only [hp, hs, ↓reduceIte]
    refine ⟨nofun, fun h => ?_⟩
    cases kind
    · exact absurd h hp
    · exact absurd h hs

namespace Settings

/-! ### Numbers of slots -/

/-- A text that writes `n` in decimal digits, with blanks around it and underscores anywhere in it. -/
def WritesCapacity (raw : String) (n : Nat) : Prop :=
  ∃ t, Stripped raw.toList t ∧ Writes 10 (t.filter (· ≠ '_')) n

/-- A written number is read if it is positive and below `2 ^ 64`. -/
theorem parseCapacity_of_writes {raw : String} {n : Nat} (h : WritesCapacity raw n) :
    (parseCapacity raw).map (·.val) = if 1 ≤ n ∧ n < 2 ^ 64 then some n else none := by
  obtain ⟨t, ht, hwrites⟩ := h
  have hread := read_of_writes (by decide) hwrites
  rw [ht.eq_trim] at hread
  unfold parseCapacity
  rw [dropUnderscores, hread]
  by_cases hn : n < wordCount
  · have hlt : n < 2 ^ 64 := hn
    by_cases hpos : 0 < n
    · have hin : 1 ≤ n ∧ n < 2 ^ 64 := ⟨hpos, hlt⟩
      simp only [hn, hpos, hin, and_self, ↓reduceIte, ↓reduceDIte, Option.map_some]
    · have hout : ¬ (1 ≤ n ∧ n < 2 ^ 64) := fun h => hpos h.1
      simp only [hn, hpos, hout, ↓reduceIte, ↓reduceDIte, Option.map_none]
  · have hout : ¬ (1 ≤ n ∧ n < 2 ^ 64) := fun h => hn h.2
    simp only [hn, hout, ↓reduceIte, Option.map_none]

theorem writes_of_parseCapacity {raw : String} {n : { n : Nat // 0 < n }} (h : parseCapacity raw = some n) :
    WritesCapacity raw n := by
  unfold parseCapacity at h
  split at h
  · next m hread =>
    split at h
    · cases h
      exact ⟨_, stripped_trim _, writes_of_read (by decide) hread⟩
    · cases h
  · cases h

theorem parseCapacity_eq_some_iff {raw : String} {n : Nat} :
    (parseCapacity raw).map (·.val) = some n ↔ WritesCapacity raw n ∧ 1 ≤ n ∧ n < 2 ^ 64 := by
  constructor
  · intro h
    obtain ⟨m, hm, rfl⟩ := Option.map_eq_some_iff.1 h
    have hwrites := writes_of_parseCapacity hm
    rw [parseCapacity_of_writes hwrites] at h
    exact ⟨hwrites, (Option.ite_none_right_eq_some.1 h).1⟩
  · rintro ⟨hwrites, hin⟩
    rw [parseCapacity_of_writes hwrites, if_pos hin]

/-- A text is read unless it writes no positive number below `2 ^ 64`. -/
theorem parseCapacity_eq_none_iff {raw : String} :
    parseCapacity raw = none ↔ ∀ n, WritesCapacity raw n → n = 0 ∨ 2 ^ 64 ≤ n := by
  constructor
  · intro h n hwrites
    have hnone := parseCapacity_of_writes hwrites
    rw [h, Option.map_none] at hnone
    by_contra hin
    rw [if_pos (by omega)] at hnone
    cases hnone
  · intro h
    refine Option.eq_none_iff_forall_ne_some.2 fun n hn => ?_
    obtain ⟨hwrites, hin⟩ := parseCapacity_eq_some_iff.1 (congrArg (Option.map (·.val)) hn)
    have := h _ hwrites
    omega

/-- Digits with underscores among them and blanks around them. -/
theorem writesCapacity_padded {before digits after : List Char} {n : Nat} (hbefore : ∀ c ∈ before, isBlank c = true)
    (hafter : ∀ c ∈ after, isBlank c = true) (h : Writes 10 (digits.filter (· ≠ '_')) n) :
    WritesCapacity (String.ofList (before ++ digits ++ after)) n := by
  refine ⟨digits, stripped_writing hbefore hafter fun c hc => ?_, h⟩
  exact (plain_of_writes_filter (by decide) h hc).1

/-! ### The two variables -/

theorem textOf_eq_some_iff {value : Option ByteArray} {raw : String} :
    textOf value = some raw ↔ value = some raw.toUTF8 := by
  rw [textOf, Option.bind_eq_some_iff]
  constructor
  · rintro ⟨bytes, rfl, h⟩
    unfold String.fromUTF8? at h
    split at h
    · rw [← Option.some.inj h]
      rfl
    · cases h
  · rintro rfl
    exact ⟨_, rfl, dif_pos raw.isValidUTF8⟩

/-- `x` is what the text of a variable stands for, or else, if it stands for nothing, `x` is the default. -/
def Asked {α : Type} (Stands : String → α → Prop) (value : Option ByteArray) (default x : α) : Prop :=
  (∃ raw, value = some raw.toUTF8 ∧ Stands raw x) ∨
    (∀ raw y, value = some raw.toUTF8 → ¬ Stands raw y) ∧ x = default

/-- A variable whose texts are read by `read`. -/
theorem getD_textOf_iff {α : Type} {Stands : String → α → Prop} {read : String → Option α}
    (hread : ∀ raw x, read raw = some x ↔ Stands raw x) (value : Option ByteArray) (default x : α) :
    ((textOf value).bind read).getD default = x ↔ Asked Stands value default x := by
  have hbind (y : α) : (textOf value).bind read = some y ↔ ∃ raw, value = some raw.toUTF8 ∧ Stands raw y := by
    simp only [Option.bind_eq_some_iff, textOf_eq_some_iff, hread]
  rw [Asked, ← hbind]
  cases hvalue : (textOf value).bind read with
  | none =>
    have hnothing (raw y) (hraw : value = some raw.toUTF8) : ¬ Stands raw y := by
      intro hy
      have := (hbind y).2 ⟨raw, hraw, hy⟩
      rw [hvalue] at this
      cases this
    exact ⟨fun h => .inr ⟨hnothing, h.symm⟩, fun h => (h.resolve_left nofun).2.symm⟩
  | some y =>
    obtain ⟨raw, hraw, hy⟩ := (hbind y).1 hvalue
    exact ⟨fun h => .inl (congrArg some h), fun h => Option.some.inj (h.resolve_right fun hn => hn.1 raw y hraw hy)⟩

/-- A text that writes a positive number below `2 ^ 64`. -/
def StandsForCapacity (raw : String) (n : Nat) : Prop := WritesCapacity raw n ∧ 1 ≤ n ∧ n < 2 ^ 64

theorem capacity_ofEnvironment_iff {env : Environment} {n : Nat} :
    (ofEnvironment env).capacity = n ↔ Asked StandsForCapacity env.capacity defaultCapacity n := by
  have hread (raw : String) (n : Nat) : (parseCapacity raw).map (·.val) = some n ↔ StandsForCapacity raw n :=
    parseCapacity_eq_some_iff
  rw [← getD_textOf_iff hread]
  have hmap : (textOf env.capacity).bind (fun raw => (parseCapacity raw).map (·.val)) =
      ((textOf env.capacity).bind parseCapacity).map (·.val) := Option.map_bind.symm
  have hcapacity : (ofEnvironment env).capacity =
      (((textOf env.capacity).bind parseCapacity).map (·.val)).getD defaultCapacity :=
    (Option.getD_map (·.val) (⟨default.capacity, default.capacity_pos⟩ : { n : Nat // 0 < n }) _).symm
  rw [hmap, hcapacity]

theorem kind_ofEnvironment_iff {env : Environment} {kind : Kind} :
    (ofEnvironment env).kind = kind ↔ Asked NamesKind env.backend .platform kind := by
  have hread (raw : String) (k : Kind) : (Kind.parse raw).toOption = some k ↔ NamesKind raw k := by
    rw [← parseKind_eq_ok_iff]
    cases Kind.parse raw <;> simp [Except.toOption]
  rw [← getD_textOf_iff hread]
  rfl

/-! ### Settings that can be had -/

/-- Settings that the defaults or an environment give, or that are made from others by a change that was not refused.
The numbers of slots that a caller can ask for are words. -/
inductive Obtained : Settings → Prop
  | default : Obtained default
  | ofEnvironment (env : Environment) : Obtained (ofEnvironment env)
  | withCapacity {st st' : Settings} {n : Nat} : Obtained st → n < 2 ^ 64 → st.withCapacity n = .ok st' → Obtained st'
  | withKind {st : Settings} (kind : Kind) : Obtained st → Obtained (st.withKind kind)

theorem withCapacity_eq_ok_iff {st st' : Settings} {n : Nat} :
    st.withCapacity n = .ok st' ↔ 0 < n ∧ st'.capacity = n ∧ st'.kind = st.kind := by
  rw [withCapacity]
  split
  · next h =>
    rw [Except.ok.injEq]
    constructor
    · rintro rfl
      exact ⟨h, rfl, rfl⟩
    · rintro ⟨-, hcapacity, hkind⟩
      cases st'
      simp only at hcapacity hkind
      simp only [hcapacity, hkind]
  · next h => exact ⟨nofun, fun hn => absurd hn.1 h⟩

theorem capacity_ofEnvironment_lt (env : Environment) : (ofEnvironment env).capacity < 2 ^ 64 := by
  rcases capacity_ofEnvironment_iff.1 (Eq.refl (ofEnvironment env).capacity) with ⟨raw, -, -, -, hlt⟩ | ⟨-, hdefault⟩
  · exact hlt
  · rw [hdefault]
    decide

/-- Just the positive words are numbers of slots that settings can have. -/
theorem obtained_iff {st : Settings} : Obtained st ↔ 0 < st.capacity ∧ st.capacity < 2 ^ 64 := by
  constructor
  · intro h
    refine ⟨st.capacity_pos, ?_⟩
    induction h with
    | default => decide
    | ofEnvironment env => exact capacity_ofEnvironment_lt env
    | withCapacity _ hlt hst _ => rwa [(withCapacity_eq_ok_iff.1 hst).2.1]
    | withKind kind _ ih => exact ih
  · rintro ⟨hpos, hlt⟩
    have hst : (Settings.default.withKind st.kind).withCapacity st.capacity = .ok st :=
      withCapacity_eq_ok_iff.2 ⟨hpos, rfl, rfl⟩
    exact .withCapacity (.withKind st.kind .default) hlt hst

/-- A number of slots is read from the texts that, without the blanks around them and without underscores, write it in
decimal digits, if it is positive and below `2 ^ 64`; each such number is read from all of its writings, and other texts
give nothing.  An environment gives what its two variables stand for, each by itself and with its own default.  Whatever
is made from there has at least one slot, since a change to none is refused. -/
theorem ofEnvironment_grammar :
    (∀ raw n, (parseCapacity raw).map (·.val) = some n ↔ WritesCapacity raw n ∧ 1 ≤ n ∧ n < 2 ^ 64) ∧
    (∀ raw, parseCapacity raw = none ↔ ∀ n, WritesCapacity raw n → n = 0 ∨ 2 ^ 64 ≤ n) ∧
    (∀ (n : Nat) (before digits after : List Char),
      (∀ c ∈ before, isBlank c = true) → (∀ c ∈ after, isBlank c = true) → Writes 10 (digits.filter (· ≠ '_')) n →
      (parseCapacity (String.ofList (before ++ digits ++ after))).map (·.val) =
        if 1 ≤ n ∧ n < 2 ^ 64 then some n else none) ∧
    (∀ n zeros, Writes 10 (List.replicate zeros '0' ++ Nat.toDigits 10 n) n) ∧
    (∀ env, (∀ n, (ofEnvironment env).capacity = n ↔ Asked StandsForCapacity env.capacity 1024 n) ∧
      ∀ kind, (ofEnvironment env).kind = kind ↔ Asked NamesKind env.backend .platform kind) ∧
    (∀ capacity capacity' backend backend',
      (ofEnvironment ⟨capacity, backend⟩).capacity = (ofEnvironment ⟨capacity, backend'⟩).capacity ∧
      (ofEnvironment ⟨capacity, backend⟩).kind = (ofEnvironment ⟨capacity', backend⟩).kind) ∧
    (∀ st, Obtained st ↔ 0 < st.capacity ∧ st.capacity < 2 ^ 64) ∧
    ∀ st : Settings, st.withCapacity 0 = .error (.invalidCapacity 0) := by
  refine ⟨fun raw n => parseCapacity_eq_some_iff, fun raw => parseCapacity_eq_none_iff, ?_,
    fun n zeros => writes_toDigits (by decide) .., ?_, fun _ _ _ _ => ⟨rfl, rfl⟩, fun st => obtained_iff, fun st => rfl⟩
  · exact fun n before digits after hbefore hafter h => parseCapacity_of_writes (writesCapacity_padded hbefore hafter h)
  · exact fun env => ⟨fun n => capacity_ofEnvironment_iff, fun kind => kind_ofEnvironment_iff⟩

/-- The largest number of slots with underscores and blanks, the number behind it, and an environment that names a kind
but no number. -/
theorem ofEnvironment_grammar_largest :
    (parseCapacity "\t__18_446_744_073_709_551_615_ ").map (·.val) = some (2 ^ 64 - 1) ∧
      (parseCapacity "0018446744073709551616\u3000").map (·.val) = none ∧
      (ofEnvironment ⟨none, some " MALLOC\n".toUTF8⟩).capacity = 1024 ∧
      (ofEnvironment ⟨none, some " Rust\n".toUTF8⟩).kind = .system := by
  obtain ⟨-, -, hwritten, hdigits, henv, -⟩ := ofEnvironment_grammar
  have hblank {c : Char} (hc : isBlank c = true) : ∀ d ∈ [c], isBlank d = true := List.forall_mem_singleton.2 hc
  have hlargest : Writes 10 ("__18_446_744_073_709_551_615_".toList.filter (· ≠ '_')) (2 ^ 64 - 1) := by
    have hfilter : "__18_446_744_073_709_551_615_".toList.filter (· ≠ '_') = Nat.toDigits 10 (2 ^ 64 - 1) := by decide
    rw [hfilter]
    exact hdigits (2 ^ 64 - 1) 0
  have hnext : Writes 10 ("0018446744073709551616".toList.filter (· ≠ '_')) (2 ^ 64) := by
    have hfilter : "0018446744073709551616".toList.filter (· ≠ '_') =
        List.replicate 2 '0' ++ Nat.toDigits 10 (2 ^ 64) := by decide
    rw [hfilter]
    exact hdigits (2 ^ 64) 2
  have hrust : NamesKind " Rust\n" .system := namesKind_iff.2 (by decide)
  refine ⟨?_, ?_, ((henv _).1 1024).2 (.inr ⟨nofun, rfl⟩), ((henv _).2 .system).2 (.inl ⟨_, rfl, hrust⟩)⟩
  · exact (hwritten _ ['\t'] _ [' '] (hblank (by decide)) (hblank (by decide)) hlargest).trans (if_pos (by decide))
  · exact (hwritten _ [] _ ['\u3000'] nofun (hblank (by decide)) hnext).trans (if_neg (by decide))

end Settings

end BlockTracker
