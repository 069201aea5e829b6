import KernelProbe.Proofs.Debugger.Script
import KernelProbe.Proofs.Paging.Address

/-!
# What a walk takes no notice of

Of the root register a walk takes bits 12 to 51, of an entry these and bit 0, and of the virtual
address bits 12 to 47 on the way and bits 0 to 11 in the end. Two walks that agree on these bits go
the same way, whatever the other bits are (`walks_alike`).

The memories are such that a read has the same reply whenever it is made. What a walk does in one is
told level by level (`course_cons`), and the two walks are compared along the levels
(`course_alike`).
-/

namespace KernelProbe.Paging

open Debugger Program

variable {H : Type}

/-! ## Walks in a steady memory -/

/-- What answers a request in the same way whenever it is made. -/
abbrev Steady (H : Type) := (c : Request H) → c.Answer

namespace Steady

/-- A steady memory as surroundings of a script. -/
def answer (memory : Steady H) (c : Request H) (s : Unit) : c.Answer × Unit :=
  (memory c, s)

/-- The entry at a physical address, or why a walk cannot read it. -/
def entryAt (memory : Steady H) (address : UInt64) : Except Error UInt64 :=
  word64Of (memory (.read .physical address 8))

/-- The reads of a walk, in order. -/
def reads (memory : Steady H) (cr3 va : UInt64) : List (Request H) :=
  (trace memory.answer (walk cr3 va) ()).map (·.call)

/-- The outcome of a walk. -/
def outcome (memory : Steady H) (cr3 va : UInt64) : Except Failure UInt64 :=
  (run memory.answer (walk cr3 va) ()).1.outcome

/-- The reads and the outcome of a walk through the given levels. -/
def course (memory : Steady H) (va : UInt64) (levels : List Level) (base : UInt64) :
    List (Request H) × Except Failure UInt64 :=
  ((trace memory.answer (walkLevels va levels base) ()).map (·.call),
    (run memory.answer (walkLevels va levels base) ()).1.2)

end Steady

variable {cr3 cr3' va va' word word' : UInt64}

theorem course_walk (memory : Steady H) (cr3 va : UInt64) :
    memory.course va Level.walkOrder (rootBase cr3) =
      (memory.reads cr3 va, memory.outcome cr3 va) := by
  rw [Steady.reads, Steady.outcome, walk, bind_eq, trace_bind, run_bind]
  simp only [trace, pure_eq, List.append_nil]
  rfl

theorem course_cons (memory : Steady H) (va : UInt64) (level : Level) (below : List Level)
    (base : UInt64) : memory.course va (level :: below) base =
      match memory.entryAt (entryAddress level base va) with
      | .error cause => ([.read .physical (entryAddress level base va) 8],
          .error (.unreadable level (entryAddress level base va) cause))
      | .ok entry =>
        if entry.toNat % 2 = 1 then
          (.read .physical (entryAddress level base va) 8 ::
              (memory.course va below (entry &&& baseMask)).1,
            (memory.course va below (entry &&& baseMask)).2)
        else ([.read .physical (entryAddress level base va) 8], .error (.notMapped level)) := by
  have hr : run memory.answer (readWord64 .physical (entryAddress level base va)) () =
      (memory.entryAt (entryAddress level base va), ()) := by
    rw [readWord64_eq]
    rfl
  have ht : (trace memory.answer (readWord64 .physical (entryAddress level base va)) ()).map
      (·.call) = [.read .physical (entryAddress level base va) 8] := by
    rw [readWord64_eq]
    rfl
  rw [Steady.course, walkLevels, bind_eq, trace_bind, run_bind, hr, List.map_append, ht]
  cases memory.entryAt (entryAddress level base va) with
  | error cause => rfl
  | ok entry =>
    dsimp only
    simp only [present_iff]
    split
    · simp only [bind_eq, trace_bind, run_bind, pure_eq, trace, run, List.append_nil]
      rfl
    · rfl

/-! ## Two walks -/

/-- The virtual addresses agree on bits 12 to 47. -/
def SamePage (va va' : UInt64) : Prop :=
  va.toNat / 2 ^ 12 % 2 ^ 36 = va'.toNat / 2 ^ 12 % 2 ^ 36

/-- Two entries that a walk does not tell apart: neither can be read, or they agree on bit 0 and on
    bits 12 to 51. -/
inductive SameEntry : Except Error UInt64 → Except Error UInt64 → Prop
  | unreadable {cause cause' : Error} : SameEntry (.error cause) (.error cause')
  | readable {entry entry' : UInt64} : entry.toNat % 2 = entry'.toNat % 2 →
      physicalBase entry = physicalBase entry' → SameEntry (.ok entry) (.ok entry')

/-- The outcomes of walks for two virtual addresses that go the same way: they end at the same
    entry and for the same reason, or in the same page, each at the place of its address. -/
inductive SameOutcome (va va' : UInt64) : Except Failure UInt64 → Except Failure UInt64 → Prop
  | unreadable {level : Level} {address : UInt64} {cause cause' : Error} :
      SameOutcome va va' (.error (.unreadable level address cause))
        (.error (.unreadable level address cause'))
  | notMapped {level : Level} :
      SameOutcome va va' (.error (.notMapped level)) (.error (.notMapped level))
  | mapped {p p' : UInt64} : p.toNat / 4096 = p'.toNat / 4096 →
      p.toNat % 4096 = va.toNat % 4096 → p'.toNat % 4096 = va'.toNat % 4096 →
      SameOutcome va va' (.ok p) (.ok p')

theorem SamePage.index_eq (h : SamePage va va') (level : Level) :
    level.index va = level.index va' := by
  rw [← UInt64.toNat_inj, toNat_index, toNat_index]
  unfold SamePage at h
  cases level <;> simp only [firstBit] <;> omega

theorem and_baseMask_eq (h : physicalBase word = physicalBase word') :
    word &&& baseMask = word' &&& baseMask := by
  rw [← UInt64.toNat_inj, toNat_and_baseMask, toNat_and_baseMask, h]

theorem sameOutcome_page (va va' word : UInt64) : SameOutcome va va'
    (.ok (pageAddress (word &&& baseMask) va)) (.ok (pageAddress (word &&& baseMask) va')) := by
  have hb := physicalBase_mod word
  refine .mapped ?_ ?_ ?_ <;> simp only [toNat_pageAddress] <;> omega

/-- Level by level, two walks from the same table go the same way, as long as they do not tell the
    entries apart that the first of them reads. -/
theorem course_alike (memory memory' : Steady H) (levels : List Level)
    (hi : ∀ level : Level, level.index va = level.index va') {base : UInt64}
    (hb : base &&& baseMask = base)
    (hs : ∀ a, .read .physical a 8 ∈ (memory.course va levels base).1 →
      SameEntry (memory.entryAt a) (memory'.entryAt a)) :
    (memory'.course va' levels base).1 = (memory.course va levels base).1 ∧
      SameOutcome va va' (memory.course va levels base).2 (memory'.course va' levels base).2 := by
  -- The base is the same in both walks at every level: what differs in two entries falls away when
  -- it is taken from them.
  induction levels generalizing base with
  | nil =>
    rw [← hb]
    exact ⟨rfl, sameOutcome_page va va' base⟩
  | cons level below ih =>
    have ha : entryAddress level base va' = entryAddress level base va := by
      rw [entryAddress, entryAddress, hi level]
    rw [course_cons] at hs
    rw [course_cons memory, course_cons memory', ha]
    generalize entryAddress level base va = a at hs ⊢
    -- The first walk reads this entry, whatever it goes on with.
    have hsame : SameEntry (memory.entryAt a) (memory'.entryAt a) := by
      refine hs a ?_
      cases memory.entryAt a with
      | error cause => exact List.mem_cons_self
      | ok entry =>
        dsimp only
        split <;> exact List.mem_cons_self
    generalize memory.entryAt a = found at hsame hs ⊢
    generalize memory'.entryAt a = found' at hsame ⊢
    cases hsame with
    | unreadable => exact ⟨rfl, .unreadable⟩
    | @readable entry entry' hbit hbase =>
      dsimp only at hs ⊢
      rw [← hbit, ← and_baseMask_eq hbase]
      by_cases hp : entry.toNat % 2 = 1
      · rw [if_pos hp] at hs
        obtain ⟨hr, ho⟩ := ih (by rw [UInt64.and_assoc, UInt64.and_self]) fun a ha =>
          hs a (List.mem_cons_of_mem _ ha)
        rw [if_pos hp, if_pos hp]
        exact ⟨congrArg (_ :: ·) hr, ho⟩
      · rw [if_neg hp, if_neg hp]
        exact ⟨rfl, .notMapped⟩

/-- Two walks whose root registers agree on bits 12 to 51, whose virtual addresses agree on bits 12
    to 47, and whose memories do not differ for a walk at the entries that the first one reads: the
    second one makes the same reads and ends at the same level for the same reason, or in the same
    page, each at the place of its virtual address. -/
theorem walks_alike (memory memory' : Steady H) (hcr3 : physicalBase cr3 = physicalBase cr3')
    (hva : SamePage va va')
    (hs : ∀ a, .read .physical a 8 ∈ memory.reads cr3 va →
      SameEntry (memory.entryAt a) (memory'.entryAt a)) :
    memory'.reads cr3' va' = memory.reads cr3 va ∧
      SameOutcome va va' (memory.outcome cr3 va) (memory'.outcome cr3' va') := by
  have hroot : rootBase cr3' = rootBase cr3 := and_baseMask_eq hcr3.symm
  have hb : rootBase cr3 &&& baseMask = rootBase cr3 := by
    rw [rootBase, UInt64.and_assoc, UInt64.and_self]
  have hc := course_walk memory cr3 va
  have hc' := course_walk memory' cr3' va'
  rw [hroot] at hc'
  have h := course_alike memory memory' Level.walkOrder hva.index_eq hb (by rwa [hc])
  rwa [hc, hc'] at h

/-- Tables in one page behind the other, each of them with the same flags in its entries. -/
def chained (flags : UInt64) : Steady Empty
  | .read _ address _ =>
    .ok (LittleEndian.bytes 8 ((address + 0x1000) ||| flags).toNat)
  | .evaluate expression => .error (.invalidExpression expression)
  | .execute command => .error (.commandFailed command)
  | .setBreakpoint _ => .error .pastLastAddress
  | .frameValue frame name => .error (.unknownFrameValue frame name)
  | .print _ => ()

theorem entryAt_chained (flags a : UInt64) :
    (chained flags).entryAt a = .ok ((a + 0x1000) ||| flags) :=
  word64Of_bytes _

/-- All bits that a walk takes no notice of are set in the second root register, in its entries and
    above bit 47 of its virtual address. -/
theorem walks_alike_ignored_bits :
    (chained 0xFFF0000000000FFF).reads 0xFFF0000000001FFF 0xFFFF000000000123 =
        (chained 1).reads 0x1000 0x7FF ∧
      (chained 1).outcome 0x1000 0x7FF = .ok 0x57FF ∧
      (chained 0xFFF0000000000FFF).outcome 0xFFF0000000001FFF 0xFFFF000000000123 =
        .ok 0x5123 := by
  have hs (a : UInt64) : SameEntry ((chained 1).entryAt a)
      ((chained 0xFFF0000000000FFF).entryAt a) := by
    rw [entryAt_chained, entryAt_chained]
    refine .readable ?_ ?_
    · rw [(toNat_or_mod_two _ _).2 (.inr (by decide)), (toNat_or_mod_two _ _).2 (.inr (by decide))]
    · rw [physicalBase_or _ (by decide), physicalBase_or _ (by decide)]
  have hva : SamePage 0x7FF 0xFFFF000000000123 := by
    unfold SamePage
    decide
  have hcr3 : physicalBase 0x1000 = physicalBase 0xFFF0000000001FFF := by
    decide
  obtain ⟨hr, ho⟩ := walks_alike (chained 1) (chained 0xFFF0000000000FFF) hcr3 hva fun a _ => hs a
  have h1 : (chained 1).outcome 0x1000 0x7FF = .ok 0x57FF := by
    rfl
  refine ⟨hr, h1, ?_⟩
  rw [h1] at ho
  generalize (chained 0xFFF0000000000FFF).outcome 0xFFF0000000001FFF 0xFFFF000000000123 = found
    at ho ⊢
  cases ho with
  | @mapped _ p hpage _ hplace =>
    have hp : p.toNat = (0x5123 : UInt64).toNat := by
      simp at hpage hplace ⊢
      omega
    rw [UInt64.toNat_inj.1 hp]

end KernelProbe.Paging
