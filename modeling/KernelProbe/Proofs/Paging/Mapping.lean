import Mathlib.Data.List.OfFn
import KernelProbe.Proofs.Paging.Address
import KernelProbe.Proofs.Target.Memory

/-!
# Tables that are written

Tables in four pages (`Layout`) map a region of 2 MiB: an entry in each of the first three tables
leads to the last one, whose 512 entries are those of the region's pages. Where they are written,
in any memory, a translation finds them again (`translate_written`), because the words do not meet
(`Layout.pairwise_words`) and because the entry for an address is where the layout has it
(`Layout.entryPlace_eq`).

What a walk finds in a memory that holds its entries is said by `Leads`.
-/

namespace KernelProbe.Paging

open Debugger Memory Program Target

/-! ## Walks through held entries -/

/-- The entries that a memory holds lead from the table whose base is in a word through the given
    levels to an outcome. -/
inductive Leads (m : Memory) (va : UInt64) :
    List Level → (word : UInt64) → Except Failure UInt64 → Prop
  | page {word p : UInt64} : p.toNat = physicalBase word + va.toNat % 4096 →
      Leads m va [] word (.ok p)
  | notMapped {level : Level} {below : List Level} {word entry : UInt64} :
      m.Holds .physical (entryPlace level word va) (LittleEndian.bytes 8 entry.toNat) →
      entry.toNat % 2 = 0 → Leads m va (level :: below) word (.error (.notMapped level))
  | mapped {level : Level} {below : List Level} {word entry : UInt64}
      {outcome : Except Failure UInt64} :
      m.Holds .physical (entryPlace level word va) (LittleEndian.bytes 8 entry.toNat) →
      entry.toNat % 2 = 1 → Leads m va below entry outcome →
      Leads m va (level :: below) word outcome

/-- An entry that is held is read, and the walk goes on with it in the same memory. -/
theorem run_walkLevels_of_holds {t : Simulated} {level : Level} {below : List Level}
    {va word entry : UInt64}
    (h : t.memory.Holds .physical (entryPlace level word va)
      (LittleEndian.bytes 8 entry.toNat)) :
    ∃ t' : Simulated, t'.memory = t.memory ∧
      (t.run (walkLevels va (level :: below) (word &&& baseMask))).1.2 =
        if entry.toNat % 2 = 1 then (t'.run (walkLevels va below (entry &&& baseMask))).1.2
        else .error (.notMapped level) := by
  rw [← toNat_entryAddress] at h
  have hr := Simulated.run_readWord64 h
  refine ⟨(t.run (readWord64 .physical (entryAddress level (word &&& baseMask) va))).2,
    Simulated.memory_run_readWord64 _ _ _, ?_⟩
  rw [Simulated.run] at hr ⊢
  rw [walkLevels, bind_eq, run_bind, hr]
  dsimp only
  simp only [present_iff]
  split
  · rw [bind_eq, run_bind]
    rfl
  · rfl

theorem Leads.run_eq {t : Simulated} {va word : UInt64} {levels : List Level}
    {outcome : Except Failure UInt64} (h : Leads t.memory va levels word outcome) :
    (t.run (walkLevels va levels (word &&& baseMask))).1.2 = outcome := by
  generalize hm : t.memory = m at h
  -- A read changes the target, whose history grows, but not its memory.
  induction h generalizing t with
  | page hp =>
    rw [← toNat_pageAddress, UInt64.toNat_inj] at hp
    rw [hp]
    rfl
  | notMapped hh hp =>
    obtain ⟨t', -, hrun⟩ := run_walkLevels_of_holds (hm ▸ hh)
    rw [hrun, if_neg (by omega)]
  | mapped hh hp _ ih =>
    obtain ⟨t', hm', hrun⟩ := run_walkLevels_of_holds (hm ▸ hh)
    rw [hrun, if_pos hp]
    exact ih (hm'.trans hm)

theorem run_translate (t : Simulated) (cr3 va : UInt64) : (t.run (translate cr3 va)).1 =
    (t.run (walkLevels va Level.walkOrder (cr3 &&& baseMask))).1.2 := by
  simp only [Simulated.run, translate, walk, bind_eq, run_bind]
  rfl

/-! ## Layouts -/

/-- The level below; the last one has none. -/
def Level.next : Level → Level
  | .pml4 => .pdpt
  | .pdpt => .pdt
  | .pdt | .pt => .pt

/-- Four tables, one for each level, in pages of their own below 2^52, and the flags of the entries
    that lead from each of the first three to the next one. -/
structure Layout where
  table : Level → UInt64
  flags : Level → UInt64
  aligned : ∀ level, (table level).toNat % 4096 = 0
  below : ∀ level, (table level).toNat < 2 ^ 52
  distinct : ∀ level level', table level = table level' → level = level'
  /-- The flags are outside bits 12 to 51. -/
  flags_apart : ∀ level, physicalBase (flags level) = 0

/-- The virtual addresses agree on bits 21 to 47. -/
def SameRegion (va va' : UInt64) : Prop :=
  va.toNat / 2 ^ 21 % 2 ^ 27 = va'.toNat / 2 ^ 21 % 2 ^ 27

variable {l : Layout} {m : Memory} {va va' : UInt64} {entries : Fin 512 → UInt64}

namespace Layout

/-- The place of the entry for a virtual address in a level's table. -/
def place (l : Layout) (level : Level) (va : UInt64) : Nat :=
  (l.table level).toNat + 8 * (va.toNat / 2 ^ firstBit level % 512)

/-- The entry in a level's table that leads to the table of the next level. -/
def link (l : Layout) (level : Level) : UInt64 :=
  l.table level.next ||| l.flags level

/-- The entries for the region of a virtual address: one in each of the first three tables, and all
    of the last one. -/
def words (l : Layout) (va : UInt64) (entries : Fin 512 → UInt64) : List (Nat × UInt64) :=
  [.pml4, .pdpt, .pdt].map (fun level => (l.place level va, l.link level)) ++
    List.ofFn fun j : Fin 512 => ((l.table .pt).toNat + 8 * j.val, entries j)

/-- A target with the entries written into its physical memory. -/
def written (l : Layout) (t : Simulated) (va : UInt64) (entries : Fin 512 → UInt64) : Simulated :=
  { t with memory := t.memory.writeWords .physical (l.words va entries) }

/-- The first three tables lead on. -/
def Complete (l : Layout) : Prop :=
  ∀ level, level ≠ .pt → (l.flags level).toNat % 2 = 1

/-- Entries in two tables lie apart, because the tables are in two pages. -/
theorem apart_of_ne {level level' : Level} (h : level ≠ level') {i i' : Nat} (hi : i < 512)
    (hi' : i' < 512) (v v' : UInt64) :
    Apart ((l.table level).toNat + 8 * i, v) ((l.table level').toNat + 8 * i', v') := by
  have ha := l.aligned level
  have ha' := l.aligned level'
  have hne : (l.table level).toNat ≠ (l.table level').toNat := fun he =>
    h (l.distinct _ _ (UInt64.toNat_inj.1 he))
  unfold Apart
  dsimp only
  omega

theorem apart_place {level level' : Level} (h : level ≠ level') (va v v' : UInt64) :
    Apart (l.place level va, v) (l.place level' va, v') :=
  apart_of_ne h (Nat.mod_lt _ (by decide)) (Nat.mod_lt _ (by decide)) v v'

theorem pairwise_words (l : Layout) (va : UInt64) (entries : Fin 512 → UInt64) :
    (l.words va entries).Pairwise Apart := by
  rw [words, List.pairwise_append]
  -- Among the first three tables, in the last one, and between these.
  refine ⟨?_, List.pairwise_ofFn.2 fun j j' hj => ?_, ?_⟩
  · simp [apart_place]
  · have : j.val < j'.val := hj
    unfold Apart
    dsimp only
    omega
  · intro w hw w' hw'
    obtain ⟨level, hl, rfl⟩ := List.mem_map.1 hw
    obtain ⟨j, rfl⟩ := List.mem_ofFn.1 hw'
    have hne : level ≠ .pt := by
      rintro rfl
      simp at hl
    exact apart_of_ne hne (Nat.mod_lt _ (by decide)) j.isLt _ _

/-- A memory holds the entries. -/
def HeldIn (l : Layout) (m : Memory) (va : UInt64) (entries : Fin 512 → UInt64) : Prop :=
  ∀ w ∈ l.words va entries, m.Holds .physical w.1 (LittleEndian.bytes 8 w.2.toNat)

theorem add_le_size (l : Layout) (level : Level) {i : Nat} (hi : i < 512) :
    (l.table level).toNat + 8 * i + 8 ≤ UInt64.size := by
  have := l.below level
  simp only [UInt64.size]
  omega

/-- Entries that were written are held. -/
theorem heldIn_written (l : Layout) (t : Simulated) (va : UInt64) (entries : Fin 512 → UInt64) :
    l.HeldIn (l.written t va entries).memory va entries := by
  have hs : ∀ w ∈ l.words va entries, w.1 + 8 ≤ UInt64.size := by
    intro w hw
    rw [words, List.mem_append, List.mem_map, List.mem_ofFn] at hw
    rcases hw with ⟨level, -, rfl⟩ | ⟨j, rfl⟩
    · exact l.add_le_size level (Nat.mod_lt _ (by decide))
    · exact l.add_le_size .pt j.isLt
  rw [HeldIn, written]
  dsimp only
  exact holds_writeWords t.memory .physical (l.pairwise_words va entries) hs

/-! ## Walks through a layout -/

theorem physicalBase_table (l : Layout) (level : Level) :
    physicalBase (l.table level) = (l.table level).toNat := by
  have ha := l.aligned level
  have hb := l.below level
  unfold physicalBase
  omega

theorem physicalBase_link (l : Layout) (level : Level) :
    physicalBase (l.link level) = (l.table level.next).toNat := by
  rw [link, physicalBase_or _ (l.flags_apart level), physicalBase_table]

theorem link_mod_two (l : Layout) (level : Level) :
    (l.link level).toNat % 2 = 1 ↔ (l.flags level).toNat % 2 = 1 := by
  have := l.aligned level.next
  rw [link, toNat_or_mod_two, or_iff_right (by omega)]

theorem entryPlace_eq {level : Level} {word : UInt64}
    (hw : physicalBase word = (l.table level).toNat) :
    entryPlace level word va = l.place level va := by
  rw [entryPlace, place, hw]

end Layout

theorem SameRegion.place_eq (h : SameRegion va va') {level : Level} (hl : level ≠ .pt) :
    l.place level va' = l.place level va := by
  unfold SameRegion at h
  unfold Layout.place
  cases level
  case pt => exact absurd rfl hl
  all_goals
    simp only [firstBit]
    omega

namespace Layout

/-- Each of the first three tables has the entry that leads on. -/
theorem HeldIn.link (h : l.HeldIn m va entries) (hr : SameRegion va va') {level : Level}
    (hl : level ≠ .pt) {word : UInt64} (hw : physicalBase word = (l.table level).toNat) :
    m.Holds .physical (entryPlace level word va')
      (LittleEndian.bytes 8 (l.link level).toNat) := by
  have hm : (l.place level va, l.link level) ∈ l.words va entries := by
    refine List.mem_append_left _ (List.mem_map_of_mem ?_)
    cases level <;> simp at hl ⊢
  rw [entryPlace_eq hw, hr.place_eq hl]
  exact h _ hm

/-- The last table has the entries of all pages. -/
theorem HeldIn.entry (h : l.HeldIn m va entries) {j : Fin 512}
    (hj : va'.toNat / 2 ^ 12 % 512 = j.val) {word : UInt64}
    (hw : physicalBase word = (l.table .pt).toNat) :
    m.Holds .physical (entryPlace .pt word va')
      (LittleEndian.bytes 8 (entries j).toNat) := by
  rw [entryPlace_eq hw, place, firstBit, hj]
  exact h _ (List.mem_append_right _ (List.mem_ofFn.2 ⟨j, rfl⟩))

variable {level : Level} {word cr3 : UInt64} {outcome : Except Failure UInt64}

/-- Where the flags say so, a walk goes on from the table of the next level. -/
theorem HeldIn.leads_on (h : l.HeldIn m va entries) (hr : SameRegion va va') (hl : level ≠ .pt)
    (hw : physicalBase word = (l.table level).toNat) (hf : (l.flags level).toNat % 2 = 1)
    {below : List Level} (ho : Leads m va' below (l.link level) outcome) :
    Leads m va' (level :: below) word outcome :=
  .mapped (h.link hr hl hw) ((l.link_mod_two level).2 hf) ho

/-- Where they do not, it ends. -/
theorem HeldIn.leads_nowhere (h : l.HeldIn m va entries) (hr : SameRegion va va')
    (hl : level ≠ .pt) (hw : physicalBase word = (l.table level).toNat)
    (hf : (l.flags level).toNat % 2 = 0) (below : List Level) :
    Leads m va' (level :: below) word (.error (.notMapped level)) := by
  have hp := l.link_mod_two level
  exact .notMapped (h.link hr hl hw) (by omega)

/-- In a complete layout, the entry of the page says where a walk ends. -/
theorem HeldIn.leads_entry (h : l.HeldIn m va entries) (hr : SameRegion va va')
    (hcr3 : physicalBase cr3 = (l.table .pml4).toNat) (hc : l.Complete)
    (ho : Leads m va' [.pt] (l.link .pdt) outcome) : Leads m va' Level.walkOrder cr3 outcome := by
  refine h.leads_on hr (by decide) hcr3 (hc .pml4 (by decide)) ?_
  refine h.leads_on hr (by decide) (l.physicalBase_link .pml4) (hc .pdpt (by decide)) ?_
  exact h.leads_on hr (by decide) (l.physicalBase_link .pdpt) (hc .pdt (by decide)) ho

/-- A walk ends at the first level whose entry does not lead on. -/
theorem HeldIn.leads_missing (h : l.HeldIn m va entries) (hr : SameRegion va va')
    (hcr3 : physicalBase cr3 = (l.table .pml4).toNat) (hl : level ≠ .pt)
    (hf : (l.flags level).toNat % 2 = 0)
    (ha : ∀ above, firstBit level < firstBit above → (l.flags above).toNat % 2 = 1) :
    Leads m va' Level.walkOrder cr3 (.error (.notMapped level)) := by
  cases level with
  | pml4 => exact h.leads_nowhere hr hl hcr3 hf _
  | pdpt =>
    refine h.leads_on hr (by decide) hcr3 (ha .pml4 (by decide)) ?_
    exact h.leads_nowhere hr hl (l.physicalBase_link .pml4) hf _
  | pdt =>
    refine h.leads_on hr (by decide) hcr3 (ha .pml4 (by decide)) ?_
    refine h.leads_on hr (by decide) (l.physicalBase_link .pml4) (ha .pdpt (by decide)) ?_
    exact h.leads_nowhere hr hl (l.physicalBase_link .pdpt) hf _
  | pt => exact absurd rfl hl

theorem run_written (t : Simulated)
    (ho : Leads (l.written t va entries).memory va' Level.walkOrder cr3 outcome) :
    ((l.written t va entries).run (translate cr3 va')).1 = outcome := by
  rw [run_translate]
  exact ho.run_eq

/-- Where the entry of the page is present, a translation in a complete layout gives the place of
    the virtual address in the page. -/
theorem run_written_of_mapped (t : Simulated) (hr : SameRegion va va')
    (hcr3 : physicalBase cr3 = (l.table .pml4).toNat) (hc : l.Complete) {j : Fin 512}
    (hj : va'.toNat / 2 ^ 12 % 512 = j.val) (hp : (entries j).toNat % 2 = 1) {p : UInt64}
    (hpage : p.toNat = physicalBase (entries j) + va'.toNat % 4096) :
    ((l.written t va entries).run (translate cr3 va')).1 = .ok p := by
  have h := l.heldIn_written t va entries
  refine run_written t (h.leads_entry hr hcr3 hc ?_)
  exact .mapped (h.entry hj (l.physicalBase_link .pdt)) hp (.page hpage)

/-- The entries that map the first 2 MiB to themselves. -/
def identity (j : Fin 512) : UInt64 :=
  (4096 * j.val + 3).toUInt64

theorem toNat_identity (j : Fin 512) : (identity j).toNat = 4096 * j.val + 3 :=
  UInt64.toNat_ofNat_of_lt' (by simp only [UInt64.size]; omega)

theorem run_identity (t : Simulated) (hcr3 : physicalBase cr3 = (l.table .pml4).toNat)
    (hc : l.Complete) (hva : va.toNat < 2 ^ 21) :
    ((l.written t 0 identity).run (translate cr3 va)).1 = .ok va := by
  have hlt : va.toNat / 4096 < 512 := by omega
  have hj : va.toNat / 2 ^ 12 % 512 = (⟨va.toNat / 4096, hlt⟩ : Fin 512).val :=
    Nat.mod_eq_of_lt hlt
  have hr : SameRegion 0 va := by
    unfold SameRegion
    simp only [UInt64.toNat_zero]
    omega
  have hi := toNat_identity ⟨va.toNat / 4096, hlt⟩
  refine run_written_of_mapped t hr hcr3 hc hj ?_ ?_
  · rw [hi]
    dsimp only
    omega
  · rw [physicalBase, hi]
    dsimp only
    omega

end Layout

/-- A translation in tables that were written, whatever the memory held before. In a complete layout
    it gives the place in the page of the entry for the virtual address, or says that the entry is
    not present; where an entry further up is not present, it says so. Identity entries make it the
    identity on the first 2 MiB. -/
theorem translate_written (l : Layout) (t : Simulated) (cr3 : UInt64)
    (hcr3 : physicalBase cr3 = (l.table .pml4).toNat) :
    (∀ va entries va', SameRegion va va' →
      (l.Complete → ∀ j : Fin 512, va'.toNat / 2 ^ 12 % 512 = j.val →
        ((entries j).toNat % 2 = 1 → ∃ p,
          ((l.written t va entries).run (translate cr3 va')).1 = .ok p ∧
            p.toNat = physicalBase (entries j) + va'.toNat % 4096) ∧
        ((entries j).toNat % 2 = 0 →
          ((l.written t va entries).run (translate cr3 va')).1 = .error (.notMapped .pt))) ∧
      ∀ level : Level, level ≠ .pt → (l.flags level).toNat % 2 = 0 →
        (∀ above, firstBit level < firstBit above → (l.flags above).toNat % 2 = 1) →
        ((l.written t va entries).run (translate cr3 va')).1 = .error (.notMapped level)) ∧
    (l.Complete → ∀ va : UInt64, va.toNat < 2 ^ 21 →
      ((l.written t 0 Layout.identity).run (translate cr3 va)).1 = .ok va) := by
  refine ⟨fun va entries va' hr => ⟨fun hc j hj => ⟨fun hp => ?_, fun hp => ?_⟩,
    fun level hl hf ha => ?_⟩, fun hc va hva => Layout.run_identity t hcr3 hc hva⟩
  · have hlt := page_lt (entries j) va'
    have hp' : (UInt64.ofNat (physicalBase (entries j) + va'.toNat % 4096)).toNat =
        physicalBase (entries j) + va'.toNat % 4096 :=
      UInt64.toNat_ofNat_of_lt' (by simp only [UInt64.size]; omega)
    exact ⟨_, Layout.run_written_of_mapped t hr hcr3 hc hj hp hp', hp'⟩
  · have h := l.heldIn_written t va entries
    refine Layout.run_written t (h.leads_entry hr hcr3 hc ?_)
    exact .notMapped (h.entry hj (l.physicalBase_link .pdt)) hp
  · have h := l.heldIn_written t va entries
    exact Layout.run_written t (h.leads_missing hr hcr3 hl hf ha)

/-- Tables in four pages from 0x1000 on. The entries of the third one have the given flags, all
    others are present and can be written to. -/
def Layout.inRow (flags : UInt64) (hf : physicalBase flags = 0) : Layout where
  table
    | .pml4 => 0x1000
    | .pdpt => 0x2000
    | .pdt => 0x3000
    | .pt => 0x4000
  flags level := if level = .pdt then flags else 3
  aligned level := by cases level <;> decide
  below level := by cases level <;> decide
  distinct level level' := by cases level <;> cases level' <;> decide
  flags_apart level := by
    split
    · exact hf
    · decide

/-- The identity in the first region. In another one, a page with more flags in its entry, at an
    address that differs in its upper bits, an entry that is not present, and one further up. -/
theorem translate_written_in_row :
    (((Layout.inRow 3 (by decide)).written .new 0 Layout.identity).run
        (translate 0x1018 0x1FFFFF)).1 = .ok 0x1FFFFF ∧
      (((Layout.inRow 3 (by decide)).written .new 0xFFFF800012345678
        fun _ => 0x8000000000007063).run (translate 0x1018 0x800012200ABC)).1 = .ok 0x7ABC ∧
      (((Layout.inRow 3 (by decide)).written .new 0xFFFF800012345678 fun _ => 0x7002).run
        (translate 0x1018 0x800012200ABC)).1 = .error (.notMapped .pt) ∧
      (((Layout.inRow 2 (by decide)).written .new 0xFFFF800012345678 fun _ => 0x7003).run
        (translate 0x1018 0x800012200ABC)).1 = .error (.notMapped .pdt) := by
  have hr : SameRegion 0xFFFF800012345678 0x800012200ABC := by
    unfold SameRegion
    decide
  have hc : (Layout.inRow 3 (by decide)).Complete := by
    intro level hl
    cases level <;> rfl
  have hj : (0x800012200ABC : UInt64).toNat / 2 ^ 12 % 512 = (0 : Fin 512).val := by
    decide
  have h3 := translate_written (Layout.inRow 3 (by decide)) .new 0x1018 (by decide)
  have h2 := translate_written (Layout.inRow 2 (by decide)) .new 0x1018 (by decide)
  refine ⟨h3.2 hc _ (by decide), ?_, ?_, ?_⟩
  · have hex := ((h3.1 _ (fun _ => 0x8000000000007063) _ hr).1 hc 0 hj).1 (by decide)
    -- `obtain` would evaluate the writes here.
    refine hex.elim fun p hp => ?_
    have hv : physicalBase 0x8000000000007063 + (0x800012200ABC : UInt64).toNat % 4096 =
        (0x7ABC : UInt64).toNat := by decide
    rw [hp.1, UInt64.toNat_inj.1 (hp.2.trans hv)]
  · exact ((h3.1 _ (fun _ => 0x7002) _ hr).1 hc 0 hj).2 (by decide)
  · refine (h2.1 _ (fun _ => 0x7003) _ hr).2 .pdt (by decide) (by decide) fun above ha => ?_
    cases above
    case pml4 | pdpt => rfl
    case pdt | pt => exact absurd ha (by decide)

end KernelProbe.Paging
