import KernelProbe.Text.Utf8

/-!
# UTF-8 read back

The bytes of a text are read as this text, without flaws (`scan_encode`). One character at a
time: its leading byte announces as many bytes as follow it, and each of them lies between the
bounds for its place.
-/

namespace KernelProbe.Text.Utf8

/-- The code of a character lies below the surrogates, or above them and below the limit. -/
theorem toNat_lt_or (c : Char) :
    c.toNat < 0xD800 ∨ (0xDFFF < c.toNat ∧ c.toNat < 0x110000) :=
  c.valid

theorem toNat_toUInt8 {n : Nat} (h : n < 256) : n.toUInt8.toNat = n :=
  UInt8.toNat_ofNat_of_lt' h

/-- A byte within its bounds adds six bits to the value. -/
theorem follow_cons {k value least greatest n : Nat} (hn : n < 0x40) (hl : least ≤ 0x80 + n)
    (hg : 0x80 + n ≤ greatest) (r : List UInt8) :
    follow (k + 1) value least greatest ((0x80 + n).toUInt8 :: r) =
      follow k (value * 0x40 + n) 0x80 0xBF r := by
  rw [follow, toNat_toUInt8 (by omega), if_pos ⟨hl, hg⟩, Nat.add_sub_cancel_left]

theorem scan_cons_of_lead? {b : UInt8} {l : Lead} {r : List UInt8} (hb : ¬b.toNat < 0x80)
    (hl : lead? b = some l) {c : Char} {rest : List UInt8}
    (hf : follow l.following l.value l.least l.greatest r = (some c, rest)) :
    scan (b :: r) = some c :: scan rest := by
  rw [scan, if_neg hb, hl]
  dsimp only
  rw [hf]

theorem lead?_two {n : Nat} (h : 0x80 ≤ n) (h' : n < 0x800) :
    lead? (0xC0 + n / 0x40).toUInt8 = some ⟨1, n / 0x40, 0x80, 0xBF⟩ := by
  rw [lead?, toNat_toUInt8 (by omega), if_pos (by omega), Nat.add_sub_cancel_left]

/-- The bounds of the second of three bytes leave out shorter spellings and surrogates. -/
theorem lead?_three {n : Nat} (h : 0x800 ≤ n) (h' : n < 0x10000)
    (hs : n < 0xD800 ∨ 0xDFFF < n) : ∃ least greatest,
    lead? (0xE0 + n / 0x1000).toUInt8 = some ⟨2, n / 0x1000, least, greatest⟩ ∧
      least ≤ 0x80 + n / 0x40 % 0x40 ∧ 0x80 + n / 0x40 % 0x40 ≤ greatest := by
  rw [lead?, toNat_toUInt8 (by omega), if_neg (by omega)]
  by_cases h₁ : n / 0x1000 = 0
  · exact ⟨0xA0, 0xBF, by rw [h₁, if_pos (by rfl)], by omega, by omega⟩
  by_cases h₂ : n / 0x1000 = 0xD
  · exact ⟨0x80, 0x9F, by rw [h₂, if_neg (by omega), if_pos (by rfl)], by omega, by omega⟩
  · refine ⟨0x80, 0xBF, ?_, by omega, by omega⟩
    rw [if_neg (by omega), if_neg (by omega), if_pos (by omega), Nat.add_sub_cancel_left]

/-- The bounds of the second of four bytes leave out shorter spellings and what is above the
    limit. -/
theorem lead?_four {n : Nat} (h : 0x10000 ≤ n) (h' : n < 0x110000) : ∃ least greatest,
    lead? (0xF0 + n / 0x40000).toUInt8 = some ⟨3, n / 0x40000, least, greatest⟩ ∧
      least ≤ 0x80 + n / 0x1000 % 0x40 ∧ 0x80 + n / 0x1000 % 0x40 ≤ greatest := by
  rw [lead?, toNat_toUInt8 (by omega), if_neg (by omega), if_neg (by omega), if_neg (by omega),
    if_neg (by omega)]
  by_cases h₁ : n / 0x40000 = 0
  · exact ⟨0x90, 0xBF, by rw [h₁, if_pos (by rfl)], by omega, by omega⟩
  by_cases h₂ : n / 0x40000 = 4
  · refine ⟨0x80, 0x8F, ?_, by omega, by omega⟩
    rw [h₂, if_neg (by omega), if_neg (by omega), if_pos (by rfl)]
  · refine ⟨0x80, 0xBF, ?_, by omega, by omega⟩
    rw [if_neg (by omega), if_pos (by omega), Nat.add_sub_cancel_left]

theorem scan_encodeChar (c : Char) (r : List UInt8) :
    scan (encodeChar c ++ r) = some c :: scan r := by
  have hv := toNat_lt_or c
  have hc : Char.ofNat c.toNat = c := Char.ofNat_toNat c
  -- From here on, only the code matters: one case for each count of bytes.
  generalize hn : c.toNat = n at hv hc
  unfold encodeChar
  rw [hn]
  dsimp only
  split
  · next h =>
    rw [List.singleton_append, scan, toNat_toUInt8 (by omega), if_pos h, hc]
  split
  · next h =>
    refine scan_cons_of_lead? (r := _ :: r) ?_ (lead?_two (by omega) h) ?_
    · rw [toNat_toUInt8 (by omega)]
      omega
    · dsimp only
      rw [follow_cons (by omega) (by omega) (by omega), follow, Nat.div_add_mod', hc]
  split
  · next h =>
    obtain ⟨least, greatest, hl, h₁, h₂⟩ := lead?_three (n := n) (by omega) h (by omega)
    refine scan_cons_of_lead? (r := _ :: _ :: r) ?_ hl ?_
    · rw [toNat_toUInt8 (by omega)]
      omega
    · have hs : (n / 0x1000 * 0x40 + n / 0x40 % 0x40) * 0x40 + n % 0x40 = n := by omega
      rw [follow_cons (by omega) h₁ h₂, follow_cons (by omega) (by omega) (by omega), follow,
        hs, hc]
  · obtain ⟨least, greatest, hl, h₁, h₂⟩ := lead?_four (n := n) (by omega) (by omega)
    refine scan_cons_of_lead? (r := _ :: _ :: _ :: r) ?_ hl ?_
    · rw [toNat_toUInt8 (by omega)]
      omega
    · have hs : ((n / 0x40000 * 0x40 + n / 0x1000 % 0x40) * 0x40 + n / 0x40 % 0x40) * 0x40 +
          n % 0x40 = n := by omega
      rw [follow_cons (by omega) h₁ h₂, follow_cons (by omega) (by omega) (by omega),
        follow_cons (by omega) (by omega) (by omega), follow, hs, hc]

theorem scan_encode (s : List Char) : scan (encode s) = s.map some := by
  induction s with
  | nil => rw [encode, List.flatMap_nil, scan, List.map_nil]
  | cons c r ih => rw [encode, List.flatMap_cons, scan_encodeChar, ← encode, ih, List.map_cons]

/-- The bytes of a text are read as the text. -/
theorem decodeLossy_encode (s : List Char) : decodeLossy (encode s) = s := by
  rw [decodeLossy, scan_encode, List.map_map]
  exact List.map_id s

end KernelProbe.Text.Utf8
