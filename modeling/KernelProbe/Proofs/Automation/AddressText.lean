import KernelProbe.Automation.TranslateAddress
import KernelProbe.Proofs.Text.Numerals

/-!
# Texts that are addresses

A text stands for a number as an address if it has digits of base 16 behind `0x` or `0X`, or digits
of base 10 and no such mark (`IsAddress`). The number has no limit there; what is read is limited to
words.

* `exists_readWord64`: the mark decides how the text is read and what its refusal says;
* `addresses_read_exactly`: a text is read exactly if it stands for a number below the limit of a
  word, and one that stands for a greater number is refused for that, however long it is.
-/

namespace KernelProbe.Automation

open Text

variable {text : String} {s digits : List Char} {n : Nat} {v : UInt64}

/-- The marks of digits of base 16. -/
def hexMarks : List (List Char) := [['0', 'x'], ['0', 'X']]

/-- The number that a text without blanks at its ends stands for as an address. -/
inductive IsAddress : List Char → Nat → Prop
  | hexadecimal {mark digits : List Char} {n : Nat} : mark ∈ hexMarks → PlusNumeral 16 digits n →
      IsAddress (mark ++ digits) n
  | decimal {digits : List Char} {n : Nat} : (∀ mark ∈ hexMarks, ¬mark <+: digits) →
      PlusNumeral 10 digits n → IsAddress digits n

theorem length_of_mem_hexMarks {mark : List Char} (h : mark ∈ hexMarks) : mark.length = 2 := by
  simp only [hexMarks, List.mem_cons, List.not_mem_nil, or_false] at h
  rcases h with rfl | rfl <;> rfl

theorem isAddress_mark_iff {mark : List Char} (hm : mark ∈ hexMarks) :
    IsAddress (mark ++ digits) n ↔ PlusNumeral 16 digits n := by
  refine ⟨fun h => ?_, .hexadecimal hm⟩
  generalize ht : mark ++ digits = t at h
  cases h with
  | hexadecimal hm' hn =>
    have hl := (length_of_mem_hexMarks hm).trans (length_of_mem_hexMarks hm').symm
    obtain ⟨-, rfl⟩ := List.append_inj ht hl
    exact hn
  | decimal hno _ => exact absurd ⟨digits, ht⟩ (hno mark hm)

theorem isAddress_iff_of_no_mark (h : ∀ mark ∈ hexMarks, ¬mark <+: s) :
    IsAddress s n ↔ PlusNumeral 10 s n := by
  refine ⟨fun ha => ?_, .decimal h⟩
  cases ha with
  | @hexadecimal mark digits _ hm _ => exact absurd (List.prefix_append mark digits) (h mark hm)
  | decimal _ hn => exact hn

/-! ## Reading -/

theorem readAddress_mark {mark : List Char} (hm : mark ∈ hexMarks)
    (ht : trim text.toList = mark ++ digits) :
    readAddress text = (readWord64 16 digits).mapError (.hexadecimal (trimmed text)) := by
  simp only [hexMarks, List.mem_cons, List.not_mem_nil, or_false] at hm
  rw [readAddress, trimmed, ht]
  rcases hm with rfl | rfl <;> cases hd : readWord64 16 digits <;> simp [hd, Except.mapError]

theorem readAddress_of_no_mark (h : ∀ mark ∈ hexMarks, ¬mark <+: trim text.toList) :
    readAddress text =
      (readWord64 10 (trim text.toList)).mapError (.decimal (trimmed text)) := by
  unfold readAddress trimmed
  dsimp only
  split
  · next ds ht => exact absurd ⟨ds, ht.symm⟩ (h ['0', 'x'] (by decide))
  · next ds ht => exact absurd ⟨ds, ht.symm⟩ (h ['0', 'X'] (by decide))
  · cases readWord64 10 (trim text.toList) <;> rfl

/-- Every text is read as a word in the base that its mark says, and a refusal says that too. -/
theorem exists_readWord64 (text : String) :
    ∃ base digits, ∃ refuse ∈ [AddressError.hexadecimal, .decimal], 0 < base ∧
      readAddress text = (readWord64 base digits).mapError (refuse (trimmed text)) ∧
      ∀ n, IsAddress (trim text.toList) n ↔ PlusNumeral base digits n := by
  by_cases h : ∀ mark ∈ hexMarks, ¬mark <+: trim text.toList
  · exact ⟨10, trim text.toList, .decimal, by simp, by decide, readAddress_of_no_mark h,
      fun n => isAddress_iff_of_no_mark h⟩
  · push Not at h
    obtain ⟨mark, hm, digits, ht⟩ := h
    exact ⟨16, digits, .hexadecimal, by simp, by decide, readAddress_mark hm ht.symm,
      fun n => ht ▸ isAddress_mark_iff hm⟩

theorem readAddress_eq_ok_iff : readAddress text = .ok v ↔ IsAddress (trim text.toList) v.toNat := by
  obtain ⟨base, digits, refuse, -, hb, hr, ha⟩ := exists_readWord64 text
  rw [ha, ← readWord64_eq_ok_iff hb, hr]
  cases readWord64 base digits <;> simp [Except.mapError]

/-- A text is read as an address exactly if it stands for a number below the limit of a word, and as
    this number; there is an error for every other text. For a number from the limit on, the error
    says that it is too large. -/
theorem addresses_read_exactly (text : String) :
    (∀ v : UInt64, readAddress text = .ok v ↔ IsAddress (trim text.toList) v.toNat) ∧
    ((∃ e, readAddress text = .error e) ↔ ∀ n < UInt64.size, ¬IsAddress (trim text.toList) n) ∧
    ∀ n, IsAddress (trim text.toList) n → UInt64.size ≤ n →
      ∃ refuse ∈ [AddressError.hexadecimal, .decimal],
        readAddress text = .error (refuse (trimmed text) .tooLarge) := by
  refine ⟨fun v => readAddress_eq_ok_iff, ?_, fun n hn hle => ?_⟩
  · constructor
    · rintro ⟨e, he⟩ n hn ha
      have hv : readAddress text = .ok (UInt64.ofNat n) :=
        readAddress_eq_ok_iff.2 (by rwa [UInt64.toNat_ofNat_of_lt' hn])
      rw [he] at hv
      cases hv
    · intro h
      cases hr : readAddress text with
      | ok v => exact absurd (readAddress_eq_ok_iff.1 hr) (h v.toNat v.toNat_lt)
      | error e => exact ⟨e, rfl⟩
  · obtain ⟨base, digits, refuse, hmem, hb, hr, ha⟩ := exists_readWord64 text
    refine ⟨refuse, hmem, ?_⟩
    rw [hr, readWord64_of_le hb ((ha n).1 hn) hle]
    rfl

/-- The first number that is no word any more, behind a zero and in front of a blank. -/
theorem addresses_read_exactly_at_limit :
    IsAddress (trim "0X010000000000000000 ".toList) UInt64.size ∧ UInt64.size ≤ UInt64.size ∧
      ∃ refuse ∈ [AddressError.hexadecimal, .decimal],
        readAddress "0X010000000000000000 " =
          .error (refuse (trimmed "0X010000000000000000 ") .tooLarge) := by
  have hread : appendDigits 16 (UInt64.size + 1) 0 "010000000000000000".toList =
      .ok UInt64.size := rfl
  have h : IsAddress (trim "0X010000000000000000 ".toList) UInt64.size :=
    @IsAddress.hexadecimal ['0', 'X'] _ _ (by decide)
      ⟨_, .inl rfl, ((appendDigits_eq_ok_iff (by decide) (by decide)).1 hread).1⟩
  exact ⟨h, Nat.le_refl _, (addresses_read_exactly _).2.2 _ h (Nat.le_refl _)⟩

end KernelProbe.Automation
