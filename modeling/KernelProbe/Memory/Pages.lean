import KernelProbe.Interaction.Dict
import KernelProbe.Memory.LittleEndian
import KernelProbe.Text.Utf16

/-!
# Sparse memory

A target has two address spaces. Memory is a set of pages of 4096 bytes in each; a write
allocates the pages it touches, filled with zeros, and a read succeeds only where every byte
lies in an allocated page below the end of the address space.
-/

namespace KernelProbe

/-- The two address spaces of a target. -/
inductive AddressSpace
  /-- Addresses that go through the page tables of the moment. -/
  | virtual
  /-- Addresses of the memory itself. -/
  | physical
  deriving DecidableEq, Repr

/-- The name of an address space in messages. -/
def AddressSpace.name : AddressSpace → String
  | .virtual => "Virtual"
  | .physical => "Physical"

/-- The contents of a page. -/
abbrev Page := Vector UInt8 4096

/-- The allocated pages, by address space and page number. -/
structure Memory where
  /-- The pages with their contents. -/
  pages : Dict (AddressSpace × Nat) Page

namespace Memory

/-- Memory without a page. -/
def empty : Memory := ⟨.empty⟩

/-- The byte at an address, if its page is allocated. -/
def byte? (m : Memory) (space : AddressSpace) (a : Nat) : Option UInt8 :=
  (m.pages.find? (space, a / 4096)).map fun page =>
    getElem page (a % 4096) (Nat.mod_lt a (by decide))

/-- The memory with one byte stored. -/
def store (m : Memory) (space : AddressSpace) (a : Nat) (b : UInt8) : Memory :=
  let page := (m.pages.find? (space, a / 4096)).getD (Vector.replicate 4096 0)
  ⟨m.pages.insert (space, a / 4096) (page.set (a % 4096) b (Nat.mod_lt a (by decide)))⟩

/-- The memory with bytes stored from an address on. -/
def write (m : Memory) (space : AddressSpace) (a : Nat) : List UInt8 → Memory
  | [] => m
  | b :: r => write (m.store space a b) space (a + 1) r

/-- The `size` bytes from an address on, if all of them can be read. Any size may be asked for:
    that there may be no room for so many bytes is left out. -/
def read (m : Memory) (space : AddressSpace) (a : Nat) : (size : Nat) → Option (List UInt8)
  | 0 => some []
  | size + 1 => do
    if UInt64.size ≤ a then none
    else
      let b ← m.byte? space a
      let r ← read m space (a + 1) size
      some (b :: r)

/-- The memory with a number of 64 bits stored at an address. -/
def writeWord64 (m : Memory) (space : AddressSpace) (a : Nat) (v : UInt64) : Memory :=
  m.write space a (LittleEndian.bytes 8 v.toNat)

/-- The memory with a text stored as UTF-16 with a zero unit behind it. -/
def writeUtf16 (m : Memory) (space : AddressSpace) (a : Nat) (text : String) : Memory :=
  m.write space a
    ((Text.Utf16.encode text.toList ++ [0]).flatMap fun (u : UInt16) =>
      LittleEndian.bytes 2 u.toNat)

theorem byte?_store (m : Memory) (space space' : AddressSpace) (a x : Nat) (b : UInt8) :
    (m.store space a b).byte? space' x =
      if space' = space ∧ x = a then some b
      else if space' = space ∧ x / 4096 = a / 4096 then some ((m.byte? space x).getD 0)
      else m.byte? space' x := by
  unfold byte? store
  rw [Dict.find?_insert]
  by_cases hs : space' = space
  · subst hs
    by_cases hp : x / 4096 = a / 4096
    · by_cases hx : x = a
      · subst hx; simp
      · have hm : a % 4096 ≠ x % 4096 := by omega
        simp only [hp, if_true, true_and, hx, if_false, Option.map_some]
        rw [Vector.getElem_set, if_neg hm]
        cases m.pages.find? (space', a / 4096) <;> simp
    · have hx : x ≠ a := fun h => hp (h ▸ rfl)
      have hk : (space', a / 4096) ≠ (space', x / 4096) := by simp [Ne.symm hp]
      simp [hp, hx, hk]
  · have hk : (space, a / 4096) ≠ (space', x / 4096) := by simp [Ne.symm hs]
    simp [hs, hk]

end Memory

end KernelProbe
