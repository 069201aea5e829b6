import KernelProbe.Proofs.Debugger.Script
import KernelProbe.Proofs.Paging.Address

/-!
# What a walk reads

A walk goes down from the root register through the levels (`Descent`): at each level it reads
the eight physical bytes of one entry, and it ends at the first entry that cannot be read or is
not present, or behind the last level. `path_walk` says that these are all paths of a walk,
whatever the reads give; the rest of the module says what follows for the outcome.
-/

namespace KernelProbe.Paging

open Debugger Program

variable {H : Type}

/-- The way down from the table whose base is in a word through the given levels: the reads with
    their replies, the entries that were read, and the outcome. -/
inductive Descent (va : UInt64) : List Level → (word : UInt64) → Log (interface H) →
    List Step → Except Failure UInt64 → Prop
  /-- No level is left: the word has the base of the page. -/
  | page {word p : UInt64} : p.toNat = physicalBase word + va.toNat % 4096 →
      Descent va [] word [] [] (.ok p)
  /-- The read of the entry fails, or gives another count of bytes than eight. -/
  | unreadable {level below word a reply cause} : a.toNat = entryPlace level word va →
      word64Of reply = .error cause →
      Descent va (level :: below) word [⟨.read .physical a 8, reply⟩] []
        (.error (.unreadable level a cause))
  /-- The entry has bit 0 clear. -/
  | notMapped {level below word a reply entry} : a.toNat = entryPlace level word va →
      word64Of reply = .ok entry → entry.toNat % 2 = 0 →
      Descent va (level :: below) word [⟨.read .physical a 8, reply⟩] [⟨level, a, ⟨entry⟩⟩]
        (.error (.notMapped level))
  /-- The entry has bit 0 set and leads on. -/
  | mapped {level below word a reply entry log steps outcome} :
      a.toNat = entryPlace level word va →
      word64Of reply = .ok entry → entry.toNat % 2 = 1 →
      Descent va below entry log steps outcome →
      Descent va (level :: below) word (⟨.read .physical a 8, reply⟩ :: log)
        (⟨level, a, ⟨entry⟩⟩ :: steps) outcome

variable {va word : UInt64} {levels : List Level} {log : Log (interface H)}
  {steps : List Step} {outcome : Except Failure UInt64}

theorem descent_of_path
    (h : Path (walkLevels va levels (word &&& baseMask)) log (steps, outcome)) :
    Descent va levels word log steps outcome := by
  -- One level is one read: its reply says which way the walk goes on, from another word.
  induction levels generalizing word log steps outcome with
  | nil =>
    obtain ⟨rfl, ⟨⟩⟩ := path_done.1 h
    exact .page (toNat_pageAddress word va)
  | cons level below ih =>
    obtain ⟨first, r, second, hr, hs, rfl⟩ := path_bind.1 h
    obtain ⟨reply, rfl, rfl⟩ := path_readWord64.1 hr
    have ha := toNat_entryAddress level word va
    cases hw : word64Of reply with
    | error cause =>
      rw [hw] at hs
      obtain ⟨rfl, ⟨⟩⟩ := path_done.1 hs
      exact .unreadable ha hw
    | ok entry =>
      rw [hw] at hs
      dsimp only at hs
      split at hs
      · next hp =>
        obtain ⟨third, ⟨more, result⟩, fourth, hd, hq, rfl⟩ := path_bind.1 hs
        obtain ⟨rfl, ⟨⟩⟩ := path_done.1 hq
        rw [List.append_nil]
        exact .mapped ha hw ((present_iff entry).1 hp) (ih hd)
      · next hp =>
        obtain ⟨rfl, ⟨⟩⟩ := path_done.1 hs
        rw [present_iff] at hp
        exact .notMapped ha hw (by omega)

theorem path_of_descent (h : Descent va levels word log steps outcome) :
    Path (walkLevels va levels (word &&& baseMask)) log (steps, outcome) := by
  induction h with
  | page hp =>
    rw [← toNat_pageAddress, UInt64.toNat_inj] at hp
    exact path_done.2 ⟨rfl, by rw [hp]⟩
  | unreadable ha hw =>
    rw [← toNat_entryAddress, UInt64.toNat_inj] at ha
    subst ha
    refine path_bind.2 ⟨_, _, [], path_readWord64.2 ⟨_, rfl, rfl⟩, ?_, rfl⟩
    rw [hw]
    exact .done _
  | notMapped ha hw hp =>
    rw [← toNat_entryAddress, UInt64.toNat_inj] at ha
    subst ha
    refine path_bind.2 ⟨_, _, [], path_readWord64.2 ⟨_, rfl, rfl⟩, ?_, rfl⟩
    rw [hw]
    dsimp only
    rw [if_neg (by rw [present_iff]; omega)]
    exact .done _
  | mapped ha hw hp _ ih =>
    rw [← toNat_entryAddress, UInt64.toNat_inj] at ha
    subst ha
    refine path_bind.2 ⟨[_], _, _, path_readWord64.2 ⟨_, rfl, rfl⟩, ?_, rfl⟩
    rw [hw]
    dsimp only
    rw [if_pos ((present_iff _).2 hp)]
    exact path_bind.2 ⟨_, _, [], ih, .done _, (List.append_nil _).symm⟩

theorem path_walk {cr3 : UInt64} {w : Walk} :
    Path (walk cr3 va) log w ↔
      w.virtualAddress = va ∧ Descent va [.pml4, .pdpt, .pdt, .pt] cr3 log w.steps w.outcome := by
  refine path_bind_done.trans ⟨?_, ?_⟩
  · rintro ⟨_, h, rfl⟩
    exact ⟨rfl, descent_of_path h⟩
  · rintro ⟨rfl, h⟩
    exact ⟨_, path_of_descent h, rfl⟩

namespace Descent

/-- There is an address exactly behind the entries of all levels, all of them present. -/
theorem ok_iff (h : Descent va levels word log steps outcome) :
    (∃ p, outcome = .ok p) ↔
      steps.length = levels.length ∧ ∀ s ∈ steps, s.entry.raw.toNat % 2 = 1 := by
  induction h with
  | page _ => simp
  | unreadable _ _ => simp
  | notMapped _ _ hp => simp [hp]
  | mapped _ _ hp _ ih => simp [ih, hp]

/-- The address is behind the base in the last word on the way. -/
theorem toNat_of_ok {p : UInt64} (h : Descent va levels word log steps (.ok p)) :
    p.toNat = physicalBase ((word :: steps.map (·.entry.raw)).getLast (List.cons_ne_nil _ _)) +
      va.toNat % 4096 := by
  generalize ho : Except.ok p = outcome at h
  induction h with
  | page hp =>
    obtain rfl := Except.ok.inj ho
    exact hp
  | unreadable _ _ => cases ho
  | notMapped _ _ _ => cases ho
  | mapped _ _ _ _ ih =>
    rw [ih ho, List.map_cons, List.getLast_cons (List.cons_ne_nil _ _)]

theorem lt_of_ok {p : UInt64} (h : Descent va levels word log steps (.ok p)) :
    p.toNat < 2 ^ 52 := by
  rw [h.toNat_of_ok]
  exact page_lt _ _

end Descent

/-- All paths of a walk, whatever the reads give: the way down through the four levels. No
    address on it leaves its table's page, there is a physical address exactly if four entries
    were read and are present, and a translation is the outcome of the walk. -/
theorem walk_descends (cr3 va : UInt64) :
    (∀ (log : Log (interface H)) w, Path (walk cr3 va) log w ↔
      w.virtualAddress = va ∧ Descent va [.pml4, .pdpt, .pdt, .pt] cr3 log w.steps w.outcome) ∧
    (∀ {σ : Type} (answer : (c : Request H) → σ → c.Answer × σ) (s : σ),
      Path (walk cr3 va) (trace answer (walk cr3 va) s) (run answer (walk cr3 va) s).1) ∧
    (∀ level word, 8 ∣ entryPlace level word va ∧ entryPlace level word va < 2 ^ 52 ∧
      entryPlace level word va / 4096 = physicalBase word / 4096) ∧
    (∀ (log : Log (interface H)) w, Path (walk cr3 va) log w →
      ((∃ p, w.outcome = .ok p) ↔
        w.steps.length = 4 ∧ ∀ s ∈ w.steps, s.entry.raw.toNat % 2 = 1) ∧
      ∀ p, w.outcome = .ok p → p.toNat < 2 ^ 52 ∧
        p.toNat = physicalBase ((cr3 :: w.steps.map (·.entry.raw)).getLast (List.cons_ne_nil _ _)) +
          va.toNat % 4096) ∧
    ∀ (log : Log (interface H)) r, Path (translate cr3 va) log r ↔
      ∃ w, Path (walk cr3 va) log w ∧ r = w.outcome := by
  refine ⟨fun log w => path_walk, fun answer s => path_run _ _ _, fun level word => ⟨?_, ?_, ?_⟩,
    fun log w h => ⟨?_, fun p hp => ?_⟩, fun log r => path_bind_done⟩
  · exact Nat.dvd_of_mod_eq_zero (entryPlace_mod level word va)
  · exact entryPlace_lt level word va
  · exact entryPlace_div level word va
  · exact (path_walk.1 h).2.ok_iff
  · have hd := (path_walk.1 h).2
    rw [hp] at hd
    exact ⟨hd.lt_of_ok, hd.toNat_of_ok⟩

end KernelProbe.Paging
