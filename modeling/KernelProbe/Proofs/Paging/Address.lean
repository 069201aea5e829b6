import Mathlib.Algebra.Group.Nat.Defs
import KernelProbe.Paging.Walk

/-!
# Addresses on a walk

The masks and shifts of a walk in terms of division and remainder. A table lies at a multiple of
4096 below 2^52 (`physicalBase`), and the entry for a virtual address lies in the table's page
(`entryPlace`), so that no address on a walk wraps around.
-/

namespace KernelProbe.Paging

/-- Bits 12 to 51 of an entry or of the root register: the physical base in it. -/
def physicalBase (word : UInt64) : Nat :=
  word.toNat / 2 ^ 12 % 2 ^ 40 * 2 ^ 12

/-- The first of the nine bits of a virtual address that pick the entry on a level. -/
def firstBit : Level → Nat
  | .pml4 => 39
  | .pdpt => 30
  | .pdt => 21
  | .pt => 12

/-- The place of the entry for `va` in the table whose base is in `word`. -/
def entryPlace (level : Level) (word va : UInt64) : Nat :=
  physicalBase word + 8 * (va.toNat / 2 ^ firstBit level % 512)

variable (level : Level) (word va : UInt64)

theorem toNat_and_baseMask : (word &&& baseMask).toNat = physicalBase word := by
  rw [UInt64.toNat_and, show baseMask.toNat = (2 ^ 40 - 1) * 2 ^ 12 by decide, physicalBase]
  -- Bit by bit: both sides have the bits 12 to 51 of the word.
  apply Nat.eq_of_testBit_eq
  intro i
  simp only [Nat.testBit_and, Nat.testBit_mul_two_pow, Nat.testBit_mod_two_pow,
    Nat.testBit_div_two_pow, Nat.testBit_two_pow_sub_one]
  by_cases h : 12 ≤ i
  · simp [h, Bool.and_comm]
  · simp [h]

theorem physicalBase_mod : physicalBase word % 4096 = 0 :=
  Nat.mul_mod_left _ _

theorem physicalBase_lt : physicalBase word < 2 ^ 52 := by
  unfold physicalBase
  omega

/-- Flags outside bits 12 to 51 do not change the base. -/
theorem physicalBase_or {flags : UInt64} (h : physicalBase flags = 0) :
    physicalBase (word ||| flags) = physicalBase word := by
  have hf : flags.toNat / 2 ^ 12 % 2 ^ 40 = 0 := by
    unfold physicalBase at h
    omega
  rw [physicalBase, UInt64.toNat_or, Nat.or_div_two_pow, Nat.or_mod_two_pow, hf, Nat.or_zero,
    physicalBase]

theorem toNat_or_mod_two (flags : UInt64) : (word ||| flags).toNat % 2 = 1 ↔
    word.toNat % 2 = 1 ∨ flags.toNat % 2 = 1 := by
  rw [UInt64.toNat_or, Nat.or_mod_two_eq_one]

theorem toNat_index : (level.index va).toNat = va.toNat / 2 ^ firstBit level % 512 := by
  have hs : level.shift.toUInt64.toNat % 64 = firstBit level := by cases level <;> rfl
  rw [Level.index, UInt64.toNat_and, UInt64.toNat_shiftRight, hs, Nat.shiftRight_eq_div_pow]
  exact Nat.and_two_pow_sub_one_eq_mod _ 9

theorem entryPlace_mod : entryPlace level word va % 8 = 0 := by
  have := physicalBase_mod word
  unfold entryPlace
  omega

theorem entryPlace_div : entryPlace level word va / 4096 = physicalBase word / 4096 := by
  have := physicalBase_mod word
  unfold entryPlace
  omega

theorem entryPlace_lt : entryPlace level word va < 2 ^ 52 := by
  have h₁ := entryPlace_div level word va
  have h₂ := physicalBase_lt word
  omega

theorem toNat_entryAddress :
    (entryAddress level (word &&& baseMask) va).toNat = entryPlace level word va := by
  have h := entryPlace_lt level word va
  have hi := toNat_index level va
  rw [entryAddress, UInt64.toNat_add, UInt64.toNat_mul, hi, toNat_and_baseMask]
  unfold entryPlace at h ⊢
  rw [show (8 : UInt64).toNat = 8 from rfl]
  omega

theorem toNat_pageAddress :
    (pageAddress (word &&& baseMask) va).toNat = physicalBase word + va.toNat % 4096 := by
  have hm : va.toNat &&& 4095 = va.toNat % 4096 := Nat.and_two_pow_sub_one_eq_mod _ 12
  -- The base has no bit below 12, so that the two parts do not meet.
  have hb : physicalBase word = 2 ^ 12 * (word.toNat / 2 ^ 12 % 2 ^ 40) := Nat.mul_comm _ _
  rw [pageAddress, UInt64.toNat_or, toNat_and_baseMask, UInt64.toNat_and,
    show (0xFFF : UInt64).toNat = 4095 from rfl, hm, hb,
    Nat.two_pow_add_eq_or_of_lt (Nat.mod_lt _ (by decide))]

theorem page_lt : physicalBase word + va.toNat % 4096 < 2 ^ 52 := by
  have h₁ := physicalBase_mod word
  have h₂ := physicalBase_lt word
  omega

/-- An entry is present if its lowest bit is set. -/
theorem present_iff : (Entry.mk word).present ↔ word.toNat % 2 = 1 := by
  have hm : Flag.present.mask = 1 := by decide
  have h1 : (word &&& 1).toNat = word.toNat % 2 := by
    rw [UInt64.toNat_and]
    exact Nat.and_one_is_mod _
  rw [Entry.present, Entry.has, hm, bne_iff_ne, ne_eq, ← UInt64.toNat_inj, h1]
  simp

end KernelProbe.Paging
