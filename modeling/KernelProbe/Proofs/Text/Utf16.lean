import KernelProbe.Text.Utf16

/-!
# UTF-16 read back

Code units are the encoding of a text exactly if every surrogate among them belongs to a pair
(`paired_iff`). They are then decoded as this text (`decode?_eq_some_iff`), and otherwise not at
all (`decode?_eq_none_iff`).
-/

namespace KernelProbe.Text.Utf16

/-- Every surrogate belongs to a pair of a high and a low one. -/
inductive Paired : List UInt16 → Prop
  | nil : Paired []
  /-- A unit that is no surrogate. -/
  | unit {u r} : isHigh u = false → isLow u = false → Paired r → Paired (u :: r)
  | pair {u v r} : isHigh u = true → isLow v = true → Paired r → Paired (u :: v :: r)

variable {u v : UInt16} {r units : List UInt16} {s : List Char}

theorem isHigh_iff : isHigh u = true ↔ 0xD800 ≤ u.toNat ∧ u.toNat < 0xDC00 := by
  simp [isHigh]

theorem isLow_iff : isLow u = true ↔ 0xDC00 ≤ u.toNat ∧ u.toNat < 0xE000 := by
  simp [isLow]

/-! ## One character -/

theorem toNat_toUInt16 {n : Nat} (h : n < 0x10000) : n.toUInt16.toNat = n :=
  UInt16.toNat_ofNat_of_lt' h

theorem toUInt16_toNat (u : UInt16) : u.toNat.toUInt16 = u :=
  UInt16.ofNat_toNat

/-- The code of a character that is none of the surrogates. -/
theorem toNat_ofNat {n : Nat} (h : n < 0xD800 ∨ (0xDFFF < n ∧ n < 0x110000)) :
    (Char.ofNat n).toNat = n := by
  rw [Char.ofNat, dif_pos h]
  rfl

/-- The units of a character: one that is no surrogate, or a pair. -/
theorem encodeChar_cases (c : Char) :
    (∃ u, encodeChar c = [u] ∧ isHigh u = false ∧ isLow u = false ∧ u.toNat = c.toNat) ∨
      ∃ u v, encodeChar c = [u, v] ∧ isHigh u = true ∧ isLow v = true ∧ pair u v = c := by
  have hv : c.toNat < 0xD800 ∨ (0xDFFF < c.toNat ∧ c.toNat < 0x110000) := c.valid
  have hc : Char.ofNat c.toNat = c := Char.ofNat_toNat c
  generalize hn : c.toNat = n at hv hc
  unfold encodeChar
  rw [hn]
  dsimp only
  split
  · next h =>
    refine .inl ⟨_, rfl, ?_, ?_, toNat_toUInt16 h⟩
    · rw [Bool.eq_false_iff, Ne, isHigh_iff, toNat_toUInt16 h]
      omega
    · rw [Bool.eq_false_iff, Ne, isLow_iff, toNat_toUInt16 h]
      omega
  · next h =>
    refine .inr ⟨_, _, rfl, ?_, ?_, ?_⟩
    · rw [isHigh_iff, toNat_toUInt16 (by omega)]
      omega
    · rw [isLow_iff, toNat_toUInt16 (by omega)]
      omega
    · have hs : 0x10000 + (n - 0x10000) / 0x400 * 0x400 + (n - 0x10000) % 0x400 = n := by omega
      rw [pair, toNat_toUInt16 (by omega), toNat_toUInt16 (by omega), Nat.add_sub_cancel_left,
        Nat.add_sub_cancel_left, hs, hc]

theorem encodeChar_unit (hh : isHigh u = false) (hl : isLow u = false) :
    encodeChar (Char.ofNat u.toNat) = [u] := by
  rw [Bool.eq_false_iff, Ne, isHigh_iff] at hh
  rw [Bool.eq_false_iff, Ne, isLow_iff] at hl
  have hu : u.toNat < 0x10000 := u.toNat_lt
  unfold encodeChar
  rw [toNat_ofNat (by omega)]
  dsimp only
  rw [if_pos hu, toUInt16_toNat]

theorem encodeChar_pair (hh : isHigh u = true) (hl : isLow v = true) :
    encodeChar (pair u v) = [u, v] := by
  rw [isHigh_iff] at hh
  rw [isLow_iff] at hl
  have h₁ : 0xD800 + (0x10000 + (u.toNat - 0xD800) * 0x400 + (v.toNat - 0xDC00) - 0x10000) / 0x400
      = u.toNat := by omega
  have h₂ : 0xDC00 + (0x10000 + (u.toNat - 0xD800) * 0x400 + (v.toNat - 0xDC00) - 0x10000) % 0x400
      = v.toNat := by omega
  unfold encodeChar
  rw [pair, toNat_ofNat (by omega)]
  dsimp only
  rw [if_neg (by omega), h₁, h₂, toUInt16_toNat, toUInt16_toNat]

/-! ## Texts -/

theorem encode_cons (c : Char) (s : List Char) : encode (c :: s) = encodeChar c ++ encode s :=
  List.flatMap_cons

theorem decode?_unit (hh : isHigh u = false) (hl : isLow u = false) (r : List UInt16) :
    decode? (u :: r) = (decode? r).map (Char.ofNat u.toNat :: ·) := by
  rw [decode?.eq_def]
  simp only [hh, hl]
  rfl

theorem decode?_pair (hh : isHigh u = true) (hl : isLow v = true) (r : List UInt16) :
    decode? (u :: v :: r) = (decode? r).map (pair u v :: ·) := by
  rw [decode?, hh, hl]
  rfl

theorem decode?_encode (s : List Char) : decode? (encode s) = some s := by
  induction s with
  | nil => rfl
  | cons c s ih =>
    rw [encode_cons]
    rcases encodeChar_cases c with ⟨u, hc, hh, hl, hu⟩ | ⟨u, v, hc, hh, hl, hp⟩
    · rw [hc, List.singleton_append, decode?_unit hh hl, ih, hu, Char.ofNat_toNat]
      rfl
    · rw [hc, List.cons_append, List.singleton_append, decode?_pair hh hl, ih, hp]
      rfl

theorem paired_encode (s : List Char) : Paired (encode s) := by
  induction s with
  | nil => exact .nil
  | cons c s ih =>
    rw [encode_cons]
    rcases encodeChar_cases c with ⟨u, hc, hh, hl, -⟩ | ⟨u, v, hc, hh, hl, -⟩
    · rw [hc]
      exact .unit hh hl ih
    · rw [hc]
      exact .pair hh hl ih

theorem Paired.exists_encode (h : Paired units) : ∃ s, encode s = units := by
  induction h with
  | nil => exact ⟨[], rfl⟩
  | @unit u r hh hl _ ih =>
    obtain ⟨s, rfl⟩ := ih
    exact ⟨Char.ofNat u.toNat :: s, by rw [encode_cons, encodeChar_unit hh hl]; rfl⟩
  | @pair u v r hh hl _ ih =>
    obtain ⟨s, rfl⟩ := ih
    exact ⟨Utf16.pair u v :: s, by rw [encode_cons, encodeChar_pair hh hl]; rfl⟩

/-- Units in which every surrogate is paired are those of a text. -/
theorem paired_iff : Paired units ↔ ∃ s, encode s = units := by
  constructor
  · exact Paired.exists_encode
  · rintro ⟨s, rfl⟩
    exact paired_encode s

theorem paired_of_decode? (h : decode? units = some s) : Paired units := by
  fun_induction decode? units generalizing s with
  | case1 => exact .nil
  | case2 u hh => cases h
  | case3 u hh v r hl ih =>
    obtain ⟨t, ht, -⟩ := Option.map_eq_some_iff.1 h
    exact .pair hh hl (ih ht)
  | case4 u hh v r hl => cases h
  | case5 u r hh hl => cases h
  | case6 u r hh hl ih =>
    obtain ⟨t, ht, -⟩ := Option.map_eq_some_iff.1 h
    exact .unit (Bool.eq_false_iff.2 hh) (Bool.eq_false_iff.2 hl) (ih ht)

theorem decode?_eq_some_iff : decode? units = some s ↔ encode s = units := by
  constructor
  · intro h
    obtain ⟨t, rfl⟩ := (paired_of_decode? h).exists_encode
    rw [decode?_encode] at h
    rw [Option.some.inj h]
  · rintro rfl
    exact decode?_encode s

theorem decode?_eq_none_iff : decode? units = none ↔ ¬Paired units := by
  rw [Option.eq_none_iff_forall_ne_some, paired_iff, not_exists]
  exact forall_congr' fun s => not_congr decode?_eq_some_iff

/-- Of all characters only U+0000 has a unit that is zero. -/
theorem zero_not_mem_encode (h : '\x00' ∉ s) : 0 ∉ encode s := by
  induction s with
  | nil => exact List.not_mem_nil
  | cons c s ih =>
    rw [List.mem_cons, not_or] at h
    rw [encode_cons, List.mem_append, not_or]
    refine ⟨?_, ih h.2⟩
    rcases encodeChar_cases c with ⟨u, hc, -, -, hu⟩ | ⟨u, v, hc, hh, hl, -⟩
    · rw [hc, List.mem_singleton]
      rintro rfl
      exact h.1 (Char.toNat_inj.1 hu)
    · rw [isHigh_iff] at hh
      rw [isLow_iff] at hl
      rw [hc, List.mem_cons, List.mem_singleton, not_or]
      constructor
      · rintro rfl
        exact absurd hh.1 (by decide)
      · rintro rfl
        exact absurd hl.1 (by decide)

end KernelProbe.Text.Utf16
