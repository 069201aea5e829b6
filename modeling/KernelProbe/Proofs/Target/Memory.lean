import KernelProbe.Proofs.Debugger.Script
import KernelProbe.Proofs.Memory.Writes
import KernelProbe.Target.Simulated

/-!
# The memory of a simulated target

A target answers a read out of its memory, and no read changes the memory.

* `answer_read_of_holds`: bytes that the memory holds are the answer to a read of as many;
* `run_readWord64`: a number that the memory holds, lowest byte first, is read as what it is;
* `exists_reads`: a script that only reads leaves the target as it is but for the history of reads;
* `reads_follow_writes`: what a read gives behind a write, for any two ranges in any two spaces.
-/

namespace KernelProbe.Target

open Debugger Memory Program

variable {t : Simulated} {space : AddressSpace} {address v : UInt64} {data : List UInt8}

namespace Simulated

theorem answer_read_of_holds (h : t.memory.Holds space address.toNat data) :
    (answer (.read space address data.length) t).1 = .ok data := by
  rw [Memory.Holds] at h
  simp only [answer, h]

theorem memory_answer_read (t : Simulated) (space : AddressSpace) (address : UInt64) (size : Nat) :
    (answer (.read space address size) t).2.memory = t.memory :=
  rfl

theorem run_readWord64
    (h : t.memory.Holds space address.toNat (LittleEndian.bytes 8 v.toNat)) :
    (t.run (readWord64 space address)).1 = .ok v := by
  have hr := answer_read_of_holds h
  rw [LittleEndian.length_bytes] at hr
  rw [run, readWord64_eq]
  exact (congrArg word64Of hr).trans (word64Of_bytes v)

theorem memory_run_readWord64 (t : Simulated) (space : AddressSpace) (address : UInt64) :
    (t.run (readWord64 space address)).2.memory = t.memory := by
  rw [run, readWord64_eq]
  rfl

/-! ## Scripts that only read -/

/-- A read, with the reply that the memory of the target gives. -/
def replied (t : Simulated) (r : Read) : Exchange (interface Handler) :=
  ⟨.read r.space r.address r.size, (answer (.read r.space r.address r.size) t).1⟩

/-- A script that only reads adds to the history of reads and changes nothing else, and each read is
    answered out of the memory. -/
theorem exists_reads {α : Type} (s : Script Handler α) (t : Simulated)
    (h : ∀ e ∈ trace answer s t, ∃ space address size, e.call = .read space address size) :
    ∃ reads, (t.run s).2 = { t with reads := t.reads ++ reads } ∧
      trace answer s t = reads.map t.replied := by
  induction s generalizing t with
  | done a => exact ⟨[], by rw [List.append_nil]; rfl, rfl⟩
  | call c next ih =>
    rw [trace, List.forall_mem_cons] at h
    obtain ⟨⟨space, address, size, rfl⟩, hrest⟩ := h
    -- The replies do not depend on the history, to which this read is added.
    obtain ⟨reads, ht, hl⟩ := ih _ _ hrest
    refine ⟨⟨space, address, size⟩ :: reads, ?_, ?_⟩
    · refine Eq.trans ht ?_
      rw [List.append_cons]
      rfl
    · rw [trace, hl, List.map_cons]
      rfl

end Simulated

/-! ## Reads behind a write -/

/-- What is read behind a write. The read fails if it is not empty and goes past the end of the
    address space, or into a page that was not allocated and that the write does not touch.
    Otherwise it gives the bytes that were written, in the range of the write, and elsewhere the
    bytes from before, which are zero in a page that is new. So the other space stays as it is, and
    a number of 64 bits is read back as what was written. -/
theorem reads_follow_writes (m : Memory) (space space' : AddressSpace) (a a' size : Nat)
    (data : List UInt8) :
    ((m.write space a data).read space' a' size = none ↔
      0 < size ∧ (UInt64.size < a' + size ∨ ∃ x, a' ≤ x ∧ x < a' + size ∧
        ¬m.Allocated space' (x / 4096) ∧
        ¬(space' = space ∧ Touches a data.length (x / 4096)))) ∧
    (∀ bytes, (m.write space a data).read space' a' size = some bytes →
      bytes.length = size ∧ ∀ x, a' ≤ x → x < a' + size →
        bytes[x - a']? =
          if space' = space ∧ a ≤ x ∧ x < a + data.length then data[x - a]?
          else some ((m.byte? space' x).getD 0)) ∧
    (space' ≠ space → (m.write space a data).read space' a' size = m.read space' a' size) ∧
    ∀ (t : Simulated) (address v : UInt64),
      t.memory = m.writeWord64 space address.toNat v → address.toNat + 8 ≤ UInt64.size →
      t.memory.read space address.toNat 8 = some (LittleEndian.bytes 8 v.toNat) ∧
        (t.run (readWord64 space address)).1 = .ok v := by
  refine ⟨?_, fun bytes h => ⟨length_of_read h, fun x hl hr => ?_⟩,
    read_write_other_space m data a a' size, fun t address v ht h => ?_⟩
  · simp only [read_eq_none_iff, allocated_write, not_or]
  · rw [byte_of_read h hl hr, value_write]
    split
    · next hx => rw [List.getElem?_eq_getElem (by omega), Option.getD_some]
    · rfl
  · have hw : t.memory.Holds space address.toNat (LittleEndian.bytes 8 v.toNat) :=
      ht ▸ holds_writeWord64 m space h
    refine ⟨?_, Simulated.run_readWord64 hw⟩
    rwa [Holds, LittleEndian.length_bytes] at hw

/-- Four bytes over the end of a page into the next one, read with two bytes on each side that are
    new, and a number that ends where the address space does. -/
theorem reads_follow_writes_across_pages :
    (∃ bytes,
      (Memory.empty.write .virtual 0xFFE [1, 2, 3, 4]).read .virtual 0xFFC 8 = some bytes ∧
      bytes.length = 8 ∧ bytes[1]? = some 0 ∧ bytes[2]? = some 1 ∧ bytes[5]? = some 4 ∧
      bytes[6]? = some 0) ∧
    (Memory.empty.write .virtual 0xFFE [1, 2, 3, 4]).read .physical 0xFFC 8 = none ∧
    ({ Simulated.new with memory := Memory.empty.writeWord64 .virtual 0xFFFFFFFFFFFFFFF8 42 }.run
      (readWord64 .virtual 0xFFFFFFFFFFFFFFF8)).1 = .ok 42 := by
  obtain ⟨hn, hb, -, hw⟩ :=
    reads_follow_writes .empty .virtual .virtual 0xFFE 0xFFC 8 [1, 2, 3, 4]
  obtain ⟨-, -, ho, -⟩ :=
    reads_follow_writes .empty .virtual .physical 0xFFE 0xFFC 8 [1, 2, 3, 4]
  have hsome : (Memory.empty.write .virtual 0xFFE [1, 2, 3, 4]).read .virtual 0xFFC 8 ≠ none := by
    rw [Ne, hn]
    rintro ⟨-, h | ⟨x, hl, hr, -, h⟩⟩
    · exact absurd h (by decide)
    · -- Both pages of the range are touched.
      refine h ⟨rfl, ?_⟩
      by_cases hp : x < 0x1000
      · exact ⟨0xFFE, by decide, by decide, by omega⟩
      · exact ⟨0x1000, by decide, by decide, by omega⟩
  obtain ⟨bytes, hr⟩ := Option.ne_none_iff_exists'.1 hsome
  obtain ⟨hl, hx⟩ := hb bytes hr
  exact ⟨⟨bytes, hr, hl, hx 0xFFD (by decide) (by decide), hx 0xFFE (by decide) (by decide),
    hx 0x1001 (by decide) (by decide), hx 0x1002 (by decide) (by decide)⟩,
    ho (by decide), (hw _ 0xFFFFFFFFFFFFFFF8 42 rfl (by decide)).2⟩

end KernelProbe.Target
