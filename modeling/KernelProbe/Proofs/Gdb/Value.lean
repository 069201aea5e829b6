import KernelProbe.Gdb.Value
import KernelProbe.Proofs.Text.Blank
import KernelProbe.Proofs.Text.Numerals

/-!
# Displayed values

A debugger displays a number behind its type and in front of what it knows about it, such as a symbol
or a text. The type stands in parentheses and may have others inside (`IsType`); the number has digits
of base 16 or 10, and may be negative (`Denotes`).

* `afterClosing?_balanced`, `exists_of_afterClosing?`: counting the open parentheses leads to the
  partner of the first one, and nowhere else;
* `readNumber?_eq_some_iff`: a word is read as a number exactly if it denotes it;
* `values_read_exactly`: the number in a display is found, however it is displayed, and apart from
  the two truth values nothing else is taken for one.
-/

namespace KernelProbe.Gdb

open Text

variable {s p w r t ds : List Char} {v : UInt64} {c : Char}

/-! ## Types -/

/-- A text in which every parenthesis has its partner. -/
inductive Balanced : List Char → Prop
  | nil : Balanced []
  | other {c : Char} {s : List Char} : c ≠ '(' → c ≠ ')' → Balanced s → Balanced (c :: s)
  | group {s t : List Char} : Balanced s → Balanced t → Balanced ('(' :: (s ++ ')' :: t))

/-- A type in front of a value: the partner of its first parenthesis is its last character. -/
def IsType (p : List Char) : Prop :=
  ∃ s, p = '(' :: (s ++ [')']) ∧ Balanced s

/-- Where parentheses have their partners, as many are open behind them as in front. -/
theorem afterClosing?_balanced (h : Balanced s) {depth : Nat} (hd : 1 ≤ depth) (r : List Char) :
    afterClosing? depth (s ++ r) = afterClosing? depth r := by
  induction h generalizing depth r with
  | nil => rfl
  | @other c s ho hc _ ih =>
    rw [List.cons_append, afterClosing?, ih hd]
    · exact fun h => ho h
    · exact fun h => hc h
  | @group s t _ _ ihs iht =>
    rw [List.cons_append, List.append_assoc, List.cons_append, afterClosing?,
      ihs (Nat.le_add_left 1 depth), afterClosing?, if_neg (by omega), Nat.add_sub_cancel, iht hd]

/-- The partner of the innermost open parenthesis comes first, behind a text in which every
    parenthesis has its own. -/
theorem exists_of_afterClosing? {depth : Nat} (h : afterClosing? (depth + 1) s = some r) :
    ∃ a behind, s = a ++ ')' :: behind ∧ Balanced a ∧
      if depth = 0 then behind = r else afterClosing? depth behind = some r := by
  -- By induction on the length: a group in front takes two steps, over its inside and behind it.
  induction hn : s.length using Nat.strongRecOn generalizing s depth with
  | ind n ih =>
    cases s with
    | nil => cases h
    | cons c s =>
      by_cases ho : c = '('
      · subst ho
        rw [afterClosing?] at h
        obtain ⟨a, u, rfl, ha, hu⟩ := ih s.length (by simp [← hn]) h rfl
        rw [if_neg (Nat.succ_ne_zero depth)] at hu
        obtain ⟨b, behind, rfl, hb, hr⟩ := ih u.length (by simp [← hn]; omega) hu rfl
        exact ⟨'(' :: (a ++ ')' :: b), behind, by simp, .group ha hb, hr⟩
      by_cases hc : c = ')'
      · subst hc
        refine ⟨[], s, rfl, .nil, ?_⟩
        rw [afterClosing?] at h
        split
        · next hd =>
          rw [if_pos (by omega)] at h
          exact Option.some.inj h
        · next hd =>
          rw [if_neg (by omega), Nat.add_sub_cancel] at h
          exact h
      · rw [afterClosing?] at h
        · obtain ⟨a, behind, rfl, ha, hr⟩ := ih s.length (by simp [← hn]) h rfl
          exact ⟨c :: a, behind, rfl, .other ho hc ha, hr⟩
        · exact fun h => ho h
        · exact fun h => hc h

/-- A type in front is taken away, and all of it. -/
theorem afterType?_eq_some_iff : afterType? s = some r ↔
    (s.head? ≠ some '(' ∧ s = r) ∨ ∃ p, IsType p ∧ s = p ++ r := by
  constructor
  · intro h
    unfold afterType? at h
    split at h
    · next s =>
      obtain ⟨a, behind, rfl, ha, hr⟩ := exists_of_afterClosing? h
      rw [if_pos rfl] at hr
      subst hr
      exact .inr ⟨'(' :: (a ++ [')']), ⟨a, rfl, ha⟩, by simp⟩
    · next hs =>
      refine .inl ⟨fun hh => ?_, Option.some.inj h⟩
      obtain ⟨s, rfl⟩ := List.head?_eq_some_iff.1 hh
      exact hs s rfl
  · rintro (⟨hs, rfl⟩ | ⟨_, ⟨a, rfl, ha⟩, rfl⟩)
    · rw [afterType?]
      rintro s rfl
      exact hs rfl
    · rw [List.cons_append, List.append_assoc, List.singleton_append, afterType?,
        afterClosing?_balanced ha (Nat.le_refl 1), afterClosing?, if_pos (Nat.le_refl 1)]

/-! ## Numbers -/

/-- The words that are read as a number. Among them are some that a debugger does not write: a plus
    sign in front of the digits, and a minus sign in front of zero. -/
inductive Denotes (v : UInt64) : List Char → Prop
  | hexadecimal {digits : List Char} : PlusNumeral 16 digits v.toNat →
      Denotes v ('0' :: 'x' :: digits)
  | decimal {digits : List Char} : PlusNumeral 10 digits v.toNat → Denotes v digits
  /-- The upper half of the words is displayed by the distance from the limit. -/
  | negative {ds : List Char} : 2 ^ 63 ≤ v.toNat → Numeral 10 ds (2 ^ 64 - v.toNat) →
      Denotes v ('-' :: ds)
  | minusZero {ds : List Char} : v = 0 → Numeral 10 ds 0 → Denotes v ('-' :: ds)

/-- The numbers up to half the limit, taken from the limit, are the upper half of the words. -/
theorem zero_sub_eq_iff {n : Nat} (hn : n ≤ 2 ^ 63) : 0 - UInt64.ofNat n = v ↔
    (v = 0 ∧ n = 0) ∨ (2 ^ 63 ≤ v.toNat ∧ n = 2 ^ 64 - v.toNat) := by
  have hlt := v.toNat_lt
  have hsub : (0 - UInt64.ofNat n).toNat = (2 ^ 64 - n) % 2 ^ 64 := by
    rw [UInt64.toNat_sub, UInt64.toNat_ofNat_of_lt' (by rw [UInt64.size]; omega), UInt64.toNat_zero,
      Nat.add_zero]
  rw [← UInt64.toNat_inj, ← UInt64.toNat_inj, hsub, UInt64.toNat_zero]
  omega

theorem readNegative64_eq_ok_iff : readNegative64 ds = .ok v ↔
    (v = 0 ∧ Numeral 10 ds 0) ∨ (2 ^ 63 ≤ v.toNat ∧ Numeral 10 ds (2 ^ 64 - v.toNat)) := by
  have hread (hds : ds ≠ []) {n : Nat} : appendDigits 10 (UInt64.size / 2 + 1) 0 ds = .ok n ↔
      Numeral 10 ds n ∧ n ≤ 2 ^ 63 := by
    rw [appendDigits_eq_ok_iff (by decide) hds]
    exact and_congr_right fun _ => Nat.lt_succ_iff
  constructor
  · intro h
    unfold readNegative64 at h
    split at h
    · cases h
    · next hds =>
      cases ha : appendDigits 10 (UInt64.size / 2 + 1) 0 ds with
      | error e =>
        rw [ha] at h
        cases h
      | ok n =>
        rw [ha] at h
        obtain ⟨hn, hle⟩ := (hread hds).1 ha
        rcases (zero_sub_eq_iff hle).1 (Except.ok.inj h) with ⟨hv, rfl⟩ | ⟨hv, rfl⟩
        · exact .inl ⟨hv, hn⟩
        · exact .inr ⟨hv, hn⟩
  · intro h
    obtain ⟨n, hn, hle, hv⟩ : ∃ n, Numeral 10 ds n ∧ n ≤ 2 ^ 63 ∧ 0 - UInt64.ofNat n = v := by
      rcases h with ⟨hv, hn⟩ | ⟨hv, hn⟩
      · exact ⟨0, hn, by omega, (zero_sub_eq_iff (by omega)).2 (.inl ⟨hv, rfl⟩)⟩
      · exact ⟨_, hn, by omega, (zero_sub_eq_iff (by omega)).2 (.inr ⟨hv, rfl⟩)⟩
    rw [readNegative64, (hread hn.ne_nil).2 ⟨hn, hle⟩, Except.map, hv]
    exact fun hds => hn.ne_nil hds

theorem readNumber?_eq_some_iff : readNumber? r = some v ↔ Denotes v r := by
  constructor
  · intro h
    unfold readNumber? at h
    split at h
    · exact .hexadecimal ((readWord64_eq_ok_iff (by decide)).1 (toOption_eq_some_iff.1 h))
    · rcases readNegative64_eq_ok_iff.1 (toOption_eq_some_iff.1 h) with ⟨hv, hn⟩ | ⟨hv, hn⟩
      · exact .minusZero hv hn
      · exact .negative hv hn
    · exact .decimal ((readWord64_eq_ok_iff (by decide)).1 (toOption_eq_some_iff.1 h))
  · intro h
    cases h with
    | hexadecimal hn => exact toOption_eq_some_iff.2 ((readWord64_eq_ok_iff (by decide)).2 hn)
    | decimal hn =>
      -- No digit of base 10 is an `x` or a minus sign.
      rw [readNumber?, toOption_eq_some_iff]
      · exact (readWord64_eq_ok_iff (by decide)).2 hn
      · rintro ds rfl
        exact hn.not_mem (c := 'x') (by decide) (by decide) (by simp)
      · rintro ds rfl
        exact hn.not_mem (c := '-') (by decide) (by decide) (by simp)
    | negative hv hn =>
      exact toOption_eq_some_iff.2 (readNegative64_eq_ok_iff.2 (.inr ⟨hv, hn⟩))
    | minusZero hv hn =>
      exact toOption_eq_some_iff.2 (readNegative64_eq_ok_iff.2 (.inl ⟨hv, hn⟩))

namespace Denotes

theorem isBlank_eq_false (h : Denotes v r) : ∀ c ∈ r, isBlank c = false := by
  cases h with
  | hexadecimal hn => simpa using ⟨by decide, by decide, hn.isBlank_eq_false⟩
  | decimal hn => exact hn.isBlank_eq_false
  | negative _ hn => exact List.forall_mem_cons.2 ⟨by decide, hn.isBlank_eq_false⟩
  | minusZero _ hn => exact List.forall_mem_cons.2 ⟨by decide, hn.isBlank_eq_false⟩

/-- A number does not begin as a type does. -/
theorem head (h : Denotes v r) : ∃ c s, r = c :: s ∧ c ≠ '(' := by
  cases h with
  | hexadecimal _ => exact ⟨'0', _, rfl, by decide⟩
  | decimal hn =>
    obtain ⟨c, s, rfl⟩ := List.exists_cons_of_ne_nil hn.ne_nil
    refine ⟨c, s, rfl, ?_⟩
    rintro rfl
    exact hn.not_mem (by decide) (by decide) List.mem_cons_self
  | negative _ _ => exact ⟨'-', _, rfl, by decide⟩
  | minusZero _ _ => exact ⟨'-', _, rfl, by decide⟩

end Denotes

/-! ## Displays -/

/-- A display of a number: blanks or none, its type or none, blanks or none, the number, and then
    nothing, or a blank and any text. -/
def IsDisplay (s : List Char) (v : UInt64) : Prop :=
  ∃ w p w' r t, s = w ++ p ++ w' ++ r ++ t ∧ (∀ c ∈ w, isBlank c) ∧ (p = [] ∨ IsType p) ∧
    (∀ c ∈ w', isBlank c) ∧ Denotes v r ∧ EndsWord t

/-- Without the blanks at its ends, a display begins with the type, or with the number. -/
theorem IsDisplay.trim_eq (h : IsDisplay s v) : ∃ p w r t, trim s = p ++ (w ++ (r ++ t)) ∧
    ((p = [] ∧ w = []) ∨ IsType p) ∧ (∀ c ∈ w, isBlank c) ∧ Denotes v r ∧ EndsWord t := by
  obtain ⟨w, p, w', r, t, rfl, hw, hp, hw', hr, ht⟩ := h
  obtain ⟨c, s, rfl, -⟩ := hr.head
  have hblank : isBlank c = false := hr.isBlank_eq_false c List.mem_cons_self
  have hend : NoBlankEnd (c :: s) := fun d hd => hr.isBlank_eq_false d (List.mem_of_getLast? hd)
  rcases hp with rfl | ⟨q, rfl, hq⟩
  · have htrim := trim_append (t := t) (List.forall_mem_append.2 ⟨hw, hw'⟩) hblank hend
    refine ⟨[], [], c :: s, trimEnd t, ?_, .inl ⟨rfl, rfl⟩, by simp, hr, ht.trimEnd⟩
    rw [List.append_nil, List.append_assoc, htrim, List.nil_append, List.nil_append]
  · have hend : NoBlankEnd ('(' :: (q ++ [')'] ++ (w' ++ c :: s))) := by
      rw [← List.cons_append, ← List.append_assoc]
      exact (noBlankEnd_append (List.cons_ne_nil c s)).2 hend
    have htrim := trim_append (t := t) hw (by decide) hend
    refine ⟨_, w', c :: s, trimEnd t, ?_, .inr ⟨q, rfl, hq⟩, hw', hr, ht.trimEnd⟩
    simpa only [List.cons_append, List.append_assoc] using htrim

/-- A display is what has a number for the first word behind its type. -/
theorem isDisplay_iff : IsDisplay s v ↔
    ∃ behind r, afterType? (trim s) = some behind ∧ firstWord? behind = some r ∧ Denotes v r := by
  constructor
  · intro h
    obtain ⟨p, w, r, t, htrim, hp, hw, hr, ht⟩ := h.trim_eq
    obtain ⟨c, r, rfl, hparen⟩ := hr.head
    refine ⟨w ++ (c :: r ++ t), c :: r, afterType?_eq_some_iff.2 ?_, ?_, hr⟩
    · rcases hp with ⟨rfl, rfl⟩ | hp
      · exact .inl ⟨by rw [htrim]; simpa using hparen, htrim⟩
      · exact .inr ⟨p, hp, htrim⟩
    · exact firstWord?_eq_some_iff.2
        ⟨w, t, rfl, hw, List.cons_ne_nil c r, hr.isBlank_eq_false, ht⟩
  · rintro ⟨behind, r, htype, hword, hr⟩
    obtain ⟨w, u, hs, hw, hu⟩ := exists_append_trim s
    obtain ⟨w', t, rfl, hw', -, -, ht⟩ := firstWord?_eq_some_iff.1 hword
    obtain ⟨p, hp, htrim⟩ : ∃ p, (p = [] ∨ IsType p) ∧ trim s = p ++ (w' ++ (r ++ t)) := by
      rcases afterType?_eq_some_iff.1 htype with ⟨-, htrim⟩ | ⟨p, hp, htrim⟩
      · exact ⟨[], .inl rfl, htrim⟩
      · exact ⟨p, .inr hp, htrim⟩
    exact ⟨w, p, w', r, t ++ u, by rw [hs, htrim]; simp, hw, hp, hw', hr, ht.append hu⟩

/-- Neither truth value is the display of a number. -/
theorem not_isDisplay (h : trim s = "true".toList ∨ trim s = "false".toList) : ¬IsDisplay s v := by
  rw [isDisplay_iff]
  rintro ⟨behind, r, htype, hword, hr⟩
  rw [← readNumber?_eq_some_iff] at hr
  rcases h with h | h <;>
  · rw [h] at htype
    cases htype
    cases hword
    cases hr

/-- A text is read as a number exactly if it is a display of it: its type in parentheses, however
    nested, is passed over whole, and so is what follows behind a blank. The two truth values are
    read as numbers, too. -/
theorem values_read_exactly (text : String) (v : UInt64) : readValue? text = some v ↔
    IsDisplay text.toList v ∨ (trim text.toList = "true".toList ∧ v = 1) ∨
      (trim text.toList = "false".toList ∧ v = 0) := by
  rw [readValue?]
  split
  · next h => simp [h, not_isDisplay (.inl h), eq_comm]
  split
  · next h => simp [h, not_isDisplay (.inr h), eq_comm]
  · next htrue hfalse =>
    have hnumber : ¬((trim text.toList = "true".toList ∧ v = 1) ∨
        (trim text.toList = "false".toList ∧ v = 0)) :=
      fun h => h.elim (fun h => htrue h.1) fun h => hfalse h.1
    rw [or_iff_left hnumber, isDisplay_iff]
    simp only [Option.bind_eq_bind, Option.bind_eq_some_iff, readNumber?_eq_some_iff,
      exists_and_left]

example : readValue? " (int (*)(int)) 0xFFFF800000001000 <OnKernelMainHook+4>" =
    some 0xffff800000001000 := by
  decide +kernel

end KernelProbe.Gdb
