import Mathlib.Algebra.Order.Ring.Nat
import KernelProbe.Text.Digits

/-!
# Numbers read back from their digits

The digits of a number are read back as the number, in every base from 2 to 16 and under every
limit above it.
-/

namespace KernelProbe.Text

variable {base limit n : Nat}

theorem digits_of_lt (h : n < base) : digits base n = [digitChar n] := by
  rw [digits, if_pos (.inr h)]

theorem digits_of_le (hb : 2 ≤ base) (h : base ≤ n) :
    digits base n = digits base (n / base) ++ [digitChar (n % base)] := by
  rw [digits, if_neg (by omega)]

/-- Induction on the digits of a number, from the first to the last. -/
theorem digits_induction {P : Nat → Prop} (hb : 2 ≤ base) (small : ∀ n < base, P n)
    (large : ∀ n, base ≤ n → P (n / base) → P n) (n : Nat) : P n := by
  induction n using Nat.strongRecOn with
  | ind n ih =>
    rcases Nat.lt_or_ge n base with h | h
    · exact small n h
    · exact large n h (ih _ (Nat.div_lt_self (by omega) (by omega)))

theorem digits_ne_nil (hb : 2 ≤ base) (n : Nat) : digits base n ≠ [] := by
  rcases Nat.lt_or_ge n base with h | h
  · rw [digits_of_lt h]
    exact List.cons_ne_nil _ _
  · rw [digits_of_le hb h]
    exact List.append_ne_nil_of_right_ne_nil _ (List.cons_ne_nil _ _)

theorem exists_of_mem_digits (hb : 2 ≤ base) {c : Char} (hc : c ∈ digits base n) :
    ∃ d < base, c = digitChar d := by
  induction n using digits_induction hb with
  | small n h =>
    rw [digits_of_lt h, List.mem_singleton] at hc
    exact ⟨n, h, hc⟩
  | large n h ih =>
    rw [digits_of_le hb h, List.mem_append, List.mem_singleton] at hc
    rcases hc with hc | rfl
    · exact ih hc
    · exact ⟨n % base, Nat.mod_lt _ (by omega), rfl⟩

/-- A number is below the power of the base that has as many digits as it. -/
theorem lt_pow_length_digits (hb : 2 ≤ base) (n : Nat) : n < base ^ (digits base n).length := by
  induction n using digits_induction hb with
  | small n h => simpa [digits_of_lt h] using h
  | large n h ih =>
    rw [digits_of_le hb h, List.length_append, List.length_singleton, Nat.pow_succ]
    exact (Nat.div_lt_iff_lt_mul (by omega)).1 ih

theorem isHexDigit_of_mem_digits (hb : 2 ≤ base) (hb' : base ≤ 16) {c : Char}
    (hc : c ∈ digits base n) : isHexDigit c := by
  obtain ⟨d, hd, rfl⟩ := exists_of_mem_digits hb hc
  rw [isHexDigit, digitValue?_digitChar (by omega), Option.isSome_some]

theorem isDecimalDigit_of_mem_digits {c : Char} (hc : c ∈ digits 10 n) : isDecimalDigit c := by
  obtain ⟨d, hd, rfl⟩ := exists_of_mem_digits (by decide) hc
  have all : ∀ d < 10, isDecimalDigit (digitChar d) := by decide
  exact all d hd

theorem appendDigits_append (value : Nat) (s t : List Char) :
    appendDigits base limit value (s ++ t) =
      (appendDigits base limit value s).bind fun v => appendDigits base limit v t := by
  induction s generalizing value with
  | nil => rfl
  | cons c r ih =>
    simp only [List.cons_append, appendDigits]
    split
    · rfl
    · split
      · exact ih _
      · rfl

theorem appendDigits_digits (hb : 2 ≤ base) (hb' : base ≤ 16) (h : n < limit) :
    appendDigits base limit 0 (digits base n) = .ok n := by
  induction n using digits_induction hb with
  | small n hn =>
    simp [digits_of_lt hn, appendDigits, digit?_digitChar hb' hn, h]
  | large n hn ih =>
    have hm : n % base < base := Nat.mod_lt _ (by omega)
    have hd : n / base * base + n % base = n := Nat.div_add_mod' n base
    rw [digits_of_le hb hn, appendDigits_append, ih (Nat.lt_of_le_of_lt (Nat.div_le_self _ _) h)]
    simp [Except.bind, appendDigits, digit?_digitChar hb' hm, hd, h]

/-- A text whose first character is no plus sign is read digit by digit. -/
theorem readNumber_cons {c : Char} (hc : c ≠ '+') (r : List Char) :
    readNumber base limit (c :: r) = appendDigits base limit 0 (c :: r) := by
  rw [readNumber]
  · simp
  · intro d s hs
    cases hs
    exact hc rfl

theorem digitChar_ne_plus {d : Nat} (h : d < 16) : digitChar d ≠ '+' := by
  have all : ∀ d < 16, digitChar d ≠ '+' := by decide
  exact all d h

theorem readNumber_digits (hb : 2 ≤ base) (hb' : base ≤ 16) (h : n < limit) :
    readNumber base limit (digits base n) = .ok n := by
  cases hs : digits base n with
  | nil => exact absurd hs (digits_ne_nil hb n)
  | cons c r =>
    obtain ⟨d, hd, rfl⟩ := exists_of_mem_digits hb (hs ▸ List.mem_cons_self)
    rw [readNumber_cons (digitChar_ne_plus (by omega)), ← hs, appendDigits_digits hb hb' h]

/-- Numbers with the same digits are the same. -/
theorem digits_injective (hb : 2 ≤ base) (hb' : base ≤ 16) :
    Function.Injective (digits base) := by
  intro n m h
  have hn : n < n + m + 1 := by omega
  have hm : m < n + m + 1 := by omega
  have hr := readNumber_digits hb hb' hn
  rw [h, readNumber_digits hb hb' hm] at hr
  exact (Except.ok.inj hr).symm

theorem readWord64_digits (hb : 2 ≤ base) (hb' : base ≤ 16) (v : UInt64) :
    readWord64 base (digits base v.toNat) = .ok v := by
  rw [readWord64, readNumber_digits hb hb' v.toNat_lt]
  exact congrArg Except.ok (UInt64.ofNat_toNat)

end KernelProbe.Text
