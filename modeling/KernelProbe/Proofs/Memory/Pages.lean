import KernelProbe.Memory.Pages

/-!
# What a read of memory gives

A read gives the bytes that can be read in its range, in the order of their addresses, if they are
as many as asked for (`read_eq`).
-/

namespace KernelProbe.Memory

/-- The byte at an address, if it can be read: its page is allocated, and the address lies below
    the end of the address space. -/
def readable? (m : Memory) (space : AddressSpace) (a : Nat) : Option UInt8 :=
  if a < UInt64.size then m.byte? space a else none

/-- The bytes of a range that can be read, in the order of their addresses. -/
def readableBytes (m : Memory) (space : AddressSpace) (a size : Nat) : List UInt8 :=
  (List.range' a size).filterMap (m.readable? space)

variable (m : Memory) (space : AddressSpace)

theorem length_readableBytes_le (a size : Nat) : (m.readableBytes space a size).length ≤ size :=
  Nat.le_trans (List.length_filterMap_le _ _) (Nat.le_of_eq List.length_range')

theorem readableBytes_succ (a size : Nat) : m.readableBytes space a (size + 1) =
    (m.readable? space a).toList ++ m.readableBytes space (a + 1) size := by
  rw [readableBytes, List.range'_succ, List.filterMap_cons, readableBytes]
  cases m.readable? space a <;> rfl

theorem read_succ (a size : Nat) : m.read space a (size + 1) =
    (m.readable? space a).bind fun b => (m.read space (a + 1) size).map (b :: ·) := by
  rw [read, readable?]
  by_cases ha : UInt64.size ≤ a
  · rw [if_pos ha, if_neg (Nat.not_lt.2 ha)]
    rfl
  · rw [if_neg ha, if_pos (Nat.not_le.1 ha)]
    cases m.byte? space a with
    | none => rfl
    | some b => cases m.read space (a + 1) size <;> rfl

theorem read_eq (a size : Nat) : m.read space a size =
    if (m.readableBytes space a size).length = size then some (m.readableBytes space a size)
    else none := by
  induction size generalizing a with
  | zero => rfl
  | succ size ih =>
    rw [read_succ, ih, readableBytes_succ]
    cases m.readable? space a with
    | none =>
      -- One byte is missing, so that the others are too few.
      have := m.length_readableBytes_le space (a + 1) size
      exact (if_neg (by simp; omega)).symm
    | some b =>
      simp only [Option.bind_some, Option.toList_some, List.singleton_append, List.length_cons,
        Nat.add_right_cancel_iff]
      split <;> rfl

end KernelProbe.Memory
