import Mathlib.Data.List.Induction
import KernelProbe.Proofs.Text.Digits
import KernelProbe.Proofs.Text.Search
import KernelProbe.Text.Blank

/-!
# Numbers read from any digits

A `Numeral` is a row of digits with its value in a base, however it is spelled: with zeros in front,
in capital or in small letters. A number below a limit is read from these rows, with a plus sign in
front or without one (`PlusNumeral`), and from no other text (`readNumber_eq_ok_iff`,
`readWord64_eq_ok_iff`). A row whose value reaches the limit is refused for that
(`appendDigits_of_le`, `readWord64_of_le`).

A row has one value (`Numeral.unique`), and a number that is written, filled up with zeros or not,
is a row with its value (`exists_paddedHex`).
-/

namespace KernelProbe.Text

variable {base limit value n m d : Nat} {ds s t : List Char} {a : UInt64} {c : Char}

/-! ## Digits -/

/-- A digit is one of three rows of characters. -/
theorem digitValue?_cases (h : digitValue? c = some d) :
    (48 ≤ c.toNat ∧ c.toNat ≤ 57 ∧ d = c.toNat - 48) ∨
      (97 ≤ c.toNat ∧ c.toNat ≤ 102 ∧ d = c.toNat - 97 + 10) ∨
      (65 ≤ c.toNat ∧ c.toNat ≤ 70 ∧ d = c.toNat - 65 + 10) := by
  rw [digitValue?] at h
  split at h
  · next hc => exact .inl ⟨hc.1, hc.2, (Option.some.inj h).symm⟩
  split at h
  · next hc => exact .inr (.inl ⟨hc.1, hc.2, (Option.some.inj h).symm⟩)
  split at h
  · next hc => exact .inr (.inr ⟨hc.1, hc.2, (Option.some.inj h).symm⟩)
  · cases h

theorem isBlank_of_isHexDigit (h : isHexDigit c) : isBlank c = false := by
  obtain ⟨d, hd⟩ := Option.isSome_iff_exists.1 h
  rw [Bool.eq_false_iff]
  intro hb
  simp only [isBlank, Bool.or_eq_true, Bool.and_eq_true, decide_eq_true_eq, beq_iff_eq] at hb
  rcases digitValue?_cases hd with h | h | h <;> omega

theorem digit?_plus (base : Nat) : digit? base '+' = none := by
  have h : digitValue? '+' = none := by decide
  rw [digit?, h, Option.filter_none]

/-! ## Rows of digits -/

/-- A row of digits of a base, and its value. -/
inductive Numeral (base : Nat) : List Char → Nat → Prop
  | digit {c : Char} {d : Nat} : digit? base c = some d → Numeral base [c] d
  /-- One digit more. -/
  | snoc {ds : List Char} {c : Char} {n d : Nat} :
      Numeral base ds n → digit? base c = some d → Numeral base (ds ++ [c]) (n * base + d)

theorem Numeral.ne_nil (h : Numeral base ds n) : ds ≠ [] := by
  cases h <;> simp

theorem Numeral.digit_of_mem (h : Numeral base ds n) : ∀ c ∈ ds, ∃ d, digit? base c = some d := by
  induction h with
  | digit hc => exact List.forall_mem_singleton.2 ⟨_, hc⟩
  | snoc _ hc ih => exact List.forall_mem_append.2 ⟨ih, List.forall_mem_singleton.2 ⟨_, hc⟩⟩

theorem Numeral.isHexDigit (h : Numeral base ds n) : ∀ c ∈ ds, isHexDigit c := by
  intro c hc
  obtain ⟨d, hd⟩ := h.digit_of_mem c hc
  exact Option.isSome_iff_exists.2 ⟨d, (Option.filter_eq_some_iff.1 hd).1⟩

theorem Numeral.not_mem (h : Numeral base ds n) (hc : digit? base c = none) : c ∉ ds := by
  intro hm
  obtain ⟨d, hd⟩ := h.digit_of_mem c hm
  rw [hc] at hd
  cases hd

theorem Numeral.plus_not_mem (h : Numeral base ds n) : '+' ∉ ds :=
  h.not_mem (digit?_plus base)

/-- A row of digits, with a plus sign in front or without one. -/
def PlusNumeral (base : Nat) (s : List Char) (n : Nat) : Prop :=
  ∃ ds, (s = ds ∨ s = '+' :: ds) ∧ Numeral base ds n

theorem PlusNumeral.not_mem (h : PlusNumeral base s n) (hc : digit? base c = none) (hp : c ≠ '+') :
    c ∉ s := by
  obtain ⟨ds, rfl | rfl, hn⟩ := h
  · exact hn.not_mem hc
  · exact List.not_mem_cons_of_ne_of_not_mem hp (hn.not_mem hc)

theorem PlusNumeral.ne_nil (h : PlusNumeral base s n) : s ≠ [] := by
  obtain ⟨ds, rfl | rfl, hn⟩ := h
  · exact hn.ne_nil
  · exact List.cons_ne_nil _ _

theorem Numeral.isBlank_eq_false (h : Numeral base ds n) : ∀ c ∈ ds, isBlank c = false := fun c hc =>
  isBlank_of_isHexDigit (h.isHexDigit c hc)

theorem PlusNumeral.isBlank_eq_false (h : PlusNumeral base s n) :
    ∀ c ∈ s, isBlank c = false := by
  obtain ⟨ds, rfl | rfl, hn⟩ := h
  · exact hn.isBlank_eq_false
  · exact List.forall_mem_cons.2 ⟨by decide, hn.isBlank_eq_false⟩

theorem numeral_concat_iff : Numeral base (s ++ [c]) n ↔
    (s = [] ∧ digit? base c = some n) ∨
      ∃ m d, Numeral base s m ∧ digit? base c = some d ∧ n = m * base + d := by
  constructor
  · intro h
    generalize ht : s ++ [c] = t at h
    cases h with
    | digit hc =>
      obtain ⟨rfl, hcs⟩ := List.append_inj' (ht.trans (List.nil_append _).symm) rfl
      cases hcs
      exact .inl ⟨rfl, hc⟩
    | snoc hm hd =>
      obtain ⟨rfl, hcs⟩ := List.append_inj' ht rfl
      cases hcs
      exact .inr ⟨_, _, hm, hd, rfl⟩
  · rintro (⟨rfl, hc⟩ | ⟨m, d, hm, hd, rfl⟩)
    · exact .digit hc
    · exact .snoc hm hd

/-! ## Reading -/

theorem appendDigits_singleton :
    appendDigits base limit value [c] = .ok n ↔
      ∃ d, digit? base c = some d ∧ n = value * base + d ∧ n < limit := by
  rw [appendDigits]
  cases digit? base c with
  | none => simp
  | some d =>
    simp only [appendDigits, Option.some.injEq, exists_eq_left']
    split
    · next h =>
      rw [Except.ok.injEq, eq_comm, iff_self_and]
      rintro rfl
      exact h
    · next h =>
      simp only [reduceCtorEq, false_iff]
      rintro ⟨rfl, hn⟩
      exact h hn

theorem appendDigits_concat :
    appendDigits base limit value (s ++ [c]) = .ok n ↔
      ∃ v, appendDigits base limit value s = .ok v ∧ appendDigits base limit v [c] = .ok n := by
  rw [appendDigits_append]
  cases appendDigits base limit value s with
  | error e => simp [Except.bind]
  | ok v => simp [Except.bind]

/-- Digits are read as their value. The value of the first ones is no greater, so the limit that the
    last one keeps was never reached before. -/
theorem appendDigits_eq_ok_iff (hb : 0 < base) (hs : s ≠ []) :
    appendDigits base limit 0 s = .ok n ↔ Numeral base s n ∧ n < limit := by
  induction s using List.reverseRecOn generalizing n with
  | nil => exact absurd rfl hs
  | append_singleton s c ih =>
    rw [appendDigits_concat, numeral_concat_iff]
    simp only [appendDigits_singleton]
    by_cases hs : s = []
    · subst hs
      constructor
      · rintro ⟨_, ⟨⟩, d, hd, rfl, hn⟩
        rw [Nat.zero_mul, Nat.zero_add] at hn ⊢
        exact ⟨.inl ⟨rfl, hd⟩, hn⟩
      · rintro ⟨⟨-, hd⟩ | ⟨m, d, hm, -⟩, hn⟩
        · exact ⟨0, rfl, n, hd, by rw [Nat.zero_mul, Nat.zero_add], hn⟩
        · exact absurd rfl hm.ne_nil
    · constructor
      · rintro ⟨v, hv, d, hd, rfl, hn⟩
        exact ⟨.inr ⟨v, d, ((ih hs).1 hv).1, hd, rfl⟩, hn⟩
      · rintro ⟨⟨hnil, -⟩ | ⟨m, d, hm, hd, rfl⟩, hn⟩
        · exact absurd hnil hs
        · have hle : m ≤ m * base := Nat.le_mul_of_pos_right m hb
          exact ⟨m, (ih hs).2 ⟨hm, by omega⟩, d, hd, rfl, hn⟩

/-- Digits whose value reaches the limit are refused for that: all of them are digits. -/
theorem appendDigits_of_le (hb : 0 < base) (h : Numeral base s n) (hn : limit ≤ n) :
    appendDigits base limit 0 s = .error .tooLarge := by
  induction h with
  | @digit c d hc =>
    rw [appendDigits, hc]
    exact if_neg (by omega)
  | @snoc ds c m d hm hc ih =>
    rw [appendDigits_append]
    rcases Nat.lt_or_ge m limit with hlt | hle
    · rw [(appendDigits_eq_ok_iff hb hm.ne_nil).2 ⟨hm, hlt⟩, Except.bind, appendDigits, hc]
      exact if_neg (Nat.not_lt.2 hn)
    · rw [ih hle, Except.bind]

/-- Digits are read alike with a plus sign and without one. -/
theorem readNumber_of_numeral (h : Numeral base ds n) (hs : s = ds ∨ s = '+' :: ds) :
    readNumber base limit s = appendDigits base limit 0 ds := by
  obtain ⟨c, r, rfl⟩ := List.exists_cons_of_ne_nil h.ne_nil
  rcases hs with rfl | rfl
  · exact readNumber_cons (fun hc => h.plus_not_mem (hc ▸ List.mem_cons_self)) r
  · rw [readNumber]

theorem readNumber_eq_ok_iff (hb : 0 < base) :
    readNumber base limit s = .ok n ↔ PlusNumeral base s n ∧ n < limit := by
  constructor
  · intro h
    unfold readNumber at h
    split at h
    · cases h
    · next c r =>
      obtain ⟨hn, hlt⟩ := (appendDigits_eq_ok_iff hb (by simp)).1 h
      exact ⟨⟨_, .inr rfl, hn⟩, hlt⟩
    · next hs _ =>
      obtain ⟨hn, hlt⟩ := (appendDigits_eq_ok_iff hb hs).1 h
      exact ⟨⟨s, .inl rfl, hn⟩, hlt⟩
  · rintro ⟨⟨ds, hs, hn⟩, hlt⟩
    rw [readNumber_of_numeral hn hs]
    exact (appendDigits_eq_ok_iff hb hn.ne_nil).2 ⟨hn, hlt⟩

theorem toOption_eq_some_iff {ε α : Type} {e : Except ε α} {x : α} :
    e.toOption = some x ↔ e = .ok x := by
  cases e <;> simp [Except.toOption]

theorem readWord64_eq_ok_iff (hb : 0 < base) :
    readWord64 base s = .ok a ↔ PlusNumeral base s a.toNat := by
  have hread : readWord64 base s = .ok a ↔ readNumber base UInt64.size s = .ok a.toNat := by
    rw [readWord64]
    cases hs : readNumber base UInt64.size s with
    | error e => simp [Except.map]
    | ok n =>
      obtain ⟨-, hn⟩ := (readNumber_eq_ok_iff hb).1 hs
      simp only [Except.map, Except.ok.injEq]
      exact ⟨fun h => h ▸ (UInt64.toNat_ofNat_of_lt' hn).symm, fun h => h ▸ UInt64.ofNat_toNat⟩
  rw [hread, readNumber_eq_ok_iff hb, and_iff_left a.toNat_lt]

theorem readWord64_of_le (hb : 0 < base) (h : PlusNumeral base s n) (hn : UInt64.size ≤ n) :
    readWord64 base s = .error .tooLarge := by
  obtain ⟨ds, hs, h⟩ := h
  rw [readWord64, readNumber_of_numeral h hs, appendDigits_of_le hb h hn]
  rfl

/-! ## Writing -/

/-- A row of digits has one value. -/
theorem Numeral.unique (hb : 0 < base) (h : Numeral base s n) (h' : Numeral base s m) : n = m := by
  have hn := (appendDigits_eq_ok_iff hb h.ne_nil).2 ⟨h, (by omega : n < n + m + 1)⟩
  have hm := (appendDigits_eq_ok_iff hb h.ne_nil).2 ⟨h', (by omega : m < n + m + 1)⟩
  exact Except.ok.inj (hn.symm.trans hm)

theorem numeral_digits (hb : 2 ≤ base) (hb' : base ≤ 16) (n : Nat) :
    Numeral base (digits base n) n :=
  ((appendDigits_eq_ok_iff (by omega) (digits_ne_nil hb n)).1
    (appendDigits_digits hb hb' (Nat.lt_succ_self n))).1

/-- A zero in front changes no value. -/
theorem Numeral.zero_cons (hb : 0 < base) (h : Numeral base ds n) : Numeral base ('0' :: ds) n := by
  have h0 : digit? base '0' = some 0 := by
    rw [digit?, show digitValue? '0' = some 0 by decide]
    simp [hb]
  induction h with
  | digit hc => simpa using Numeral.snoc (.digit h0) hc
  | snoc _ hc ih => exact .snoc ih hc

theorem Numeral.zeros_append (hb : 0 < base) (h : Numeral base ds n) (k : Nat) :
    Numeral base (List.replicate k '0' ++ ds) n := by
  induction k with
  | zero => exact h
  | succ k ih => exact ih.zero_cons hb

/-- Behind `0x`, a number that is filled up with zeros is a row of digits with its value. -/
theorem exists_paddedHex (width n : Nat) :
    ∃ ds, (paddedHex width n).toList = '0' :: 'x' :: ds ∧ Numeral 16 ds n := by
  refine ⟨_, ?_, (numeral_digits (by decide) (by decide) n).zeros_append (by decide)
    (width - (digits 16 n).length)⟩
  simp only [paddedHex, String.toList_append, String.toList_ofList]
  rfl

theorem paddedHex_zero (n : Nat) : paddedHex 0 n = hex n := by
  simp only [paddedHex, hex, Nat.zero_sub, List.replicate_zero, List.nil_append]

theorem hex_injective : Function.Injective hex := by
  intro n m h
  rw [hex, hex, String.append_right_inj, String.ofList_inj] at h
  exact digits_injective (by decide) (by decide) h

/-- Two texts that go on behind such a number with the same character that is no digit have the
    same number and go on alike. -/
theorem paddedHex_append_inj {width : Nat} (hc : isHexDigit c = false)
    (h : (paddedHex width n).toList ++ c :: s = (paddedHex width m).toList ++ c :: t) :
    n = m ∧ s = t := by
  obtain ⟨ds, hds, hn⟩ := exists_paddedHex width n
  obtain ⟨ds', hds', hm⟩ := exists_paddedHex width m
  rw [hds, hds', List.cons_append, List.cons_append, List.cons_append, List.cons_append,
    List.cons_inj_right, List.cons_inj_right] at h
  have hmem {ds : List Char} {n : Nat} (hn : Numeral 16 ds n) : c ∉ ds := fun hm =>
    absurd (hn.isHexDigit c hm) (by rw [hc]; decide)
  have hs := splitAt?_append (hmem hn) s
  rw [h, splitAt?_append (hmem hm)] at hs
  cases hs
  exact ⟨hn.unique (by decide) hm, rfl⟩

end KernelProbe.Text
