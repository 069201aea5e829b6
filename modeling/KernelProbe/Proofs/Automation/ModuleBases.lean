import KernelProbe.Proofs.Automation.SymbolTables

/-!
# Modules at different bases

Where the debugger carries out every command, a module that is loaded or unloaded changes the
record at its own base and leaves the others as they are (`Change.record`, `find?_next`). So what is
tracked at a base follows from the changes at that base (`find?_foldl_next`), and changes at
different bases do not meet.

* `Obeyed`: changes one behind the other, from any tracked modules on, in which every command
  succeeds. Whatever else the debugger answers, they come to one end (`obeyed_iff`);
* `bases_apart`: what is tracked at each base is what the changes at this base alone lead to.
-/

namespace KernelProbe.Automation.Modules

open Debugger Program

variable {m m' : Modules} {change : Change} {changes : List Change} {held : List SymbolTable}

/-! ## Commands that succeed -/

/-- An exchange is no command, or a command that was carried out. -/
def Succeeds : Exchange (interface Handler) → Prop
  | ⟨.execute _, answer⟩ => answer = .ok ()
  | _ => True

/-- Changes one behind the other, in which the debugger carries out every command. -/
inductive Obeyed : Modules → List Change → Modules → Prop
  | nil {m : Modules} : Obeyed m [] m
  | cons {m m' m'' : Modules} {change : Change} {changes : List Change}
      {log : Log (interface Handler)} {result : Except Error Unit} :
      Path (change.script m) log (result, m') → (∀ e ∈ log, Succeeds e) →
      Obeyed m' changes m'' → Obeyed m (change :: changes) m''

theorem succeeds_of_mem_trace {α : Type} {p : Script Handler α} {e : Exchange (interface Handler)}
    (he : e ∈ trace obey p held) : Succeeds e := by
  obtain ⟨held', ha⟩ := answer_of_mem_trace he
  obtain ⟨call, answer⟩ := e
  cases call
  case execute => exact ha
  all_goals trivial

/-- A script that only carries out commands has one result where all of them succeed. -/
theorem run_obey_of_path {α : Type} {p : Script Handler α} {log : Log (interface Handler)} {a : α}
    (hp : Path p log a) (hs : ∀ e ∈ log, IsExecute e.call ∧ Succeeds e) :
    (Program.run obey p held).1 = a := by
  -- The path takes the answers that the debugger gives as well, so it is the way of the run.
  induction hp generalizing held with
  | done a => rfl
  | @call c next log a r _ ih =>
    rw [List.forall_mem_cons] at hs
    obtain ⟨⟨hc, hr⟩, hs⟩ := hs
    cases c
    case execute =>
      obtain rfl : r = .ok () := hr
      exact ih hs
    all_goals exact absurd hc not_false

theorem only_script (m : Modules) (change : Change) : Only IsExecute (change.script m) := by
  cases change with
  | load name base => exact only_load (fun _ => trivial) m name base
  | unload name base => exact only_unload (fun _ => trivial) m name base

/-- Where every command succeeds, changes lead to what they lead to with the debugger that carries
    out every command. -/
theorem obeyed_iff (held : List SymbolTable) :
    Obeyed m changes m' ↔ m' = (changes.foldl next (m, held)).1 := by
  constructor
  · intro h
    induction h generalizing held with
    | nil => rfl
    | @cons m m' m'' change changes log result hp hs _ ih =>
      have hr : (Program.run obey (change.script m) held).1 = (result, m') :=
        run_obey_of_path hp fun e he => ⟨only_script m change hp e he, hs e he⟩
      have hn : (next (m, held) change).1 = m' := congrArg Prod.snd hr
      rw [ih (next (m, held) change).2, List.foldl_cons, ← hn]
  · rintro rfl
    induction changes generalizing m held with
    | nil => exact .nil
    | cons change changes ih =>
      exact .cons (path_run obey (change.script m) held) (fun e he => succeeds_of_mem_trace he)
        (ih (next (m, held) change).2)

/-! ## One base -/

namespace Change

/-- The base of the module that is loaded or unloaded. -/
def base : Change → UInt64
  | load _ base => base
  | unload _ base => base

/-- What is tracked at the base of a change behind it, by what is tracked there before it and by the
    symbol files of modules. -/
def record (symbolFile : String → String) (tracked : Option Module) : Change → Option Module
  | load name base => some ⟨name, base, symbolFile name⟩
  | unload name _ => tracked.filter (·.name ≠ name)

end Change

theorem tracked_next_load (m : Modules) (held : List SymbolTable) (name : String)
    (base : UInt64) : (next (m, held) (.load name base)).1 =
      { m with loaded := m.loaded.insert base ⟨name, base, m.symbolFile name⟩ } := by
  cases hf : m.loaded.find? base with
  | none => rw [next_load_of_none name hf]
  | some r => rw [next_load_of_some name hf, Dict.insert_erase]

theorem tracked_next_unload (m : Modules) (held : List SymbolTable) (name : String)
    (base : UInt64) : (next (m, held) (.unload name base)).1 =
      ((m.loaded.find? base).filter (·.name = name)).elim m fun _ =>
        { m with loaded := m.loaded.erase base } := by
  rw [next_unload, Change.removed?]
  cases (m.loaded.find? base).filter (·.name = name) <;> rfl

theorem symbolFile_next (m : Modules) (held : List SymbolTable) (change : Change) :
    (next (m, held) change).1.symbolFile = m.symbolFile := by
  cases change with
  | load name base =>
    rw [tracked_next_load]
    exact funext (symbolFile_with m _)
  | unload name base =>
    rw [tracked_next_unload]
    cases (m.loaded.find? base).filter (·.name = name) with
    | none => rfl
    | some r => exact funext (symbolFile_with m _)

/-- A change is felt at its own base only. -/
theorem find?_next (m : Modules) (held : List SymbolTable) (change : Change) (base : UInt64) :
    (next (m, held) change).1.loaded.find? base =
      if change.base = base then change.record m.symbolFile (m.loaded.find? base)
      else m.loaded.find? base := by
  cases change with
  | load name place =>
    rw [tracked_next_load, Dict.find?_insert]
    rfl
  | unload name place =>
    rw [tracked_next_unload, Change.base, Change.record]
    by_cases hb : place = base
    · subst hb
      rw [if_pos rfl]
      cases hf : m.loaded.find? place with
      | none => exact hf
      | some r =>
        -- Under another name, the module at this base stays.
        by_cases hn : r.name = name
        · rw [Option.filter_some_pos (by simpa using hn),
            Option.filter_some_neg (by simpa using hn), Option.elim_some, Dict.find?_erase,
            if_pos rfl]
        · rw [Option.filter_some_neg (by simpa using hn),
            Option.filter_some_pos (by simpa using hn), Option.elim_none, hf]
    · rw [if_neg hb]
      cases (m.loaded.find? place).filter (·.name = name) with
      | none => rfl
      | some r => rw [Option.elim_some, Dict.find?_erase, if_neg hb]

/-- What is tracked at a base follows from the changes at that base. -/
theorem find?_foldl_next (m : Modules) (held : List SymbolTable) (changes : List Change)
    (base : UInt64) : (changes.foldl next (m, held)).1.loaded.find? base =
      (changes.filter (·.base = base)).foldl (Change.record m.symbolFile)
        (m.loaded.find? base) := by
  induction changes generalizing m held with
  | nil => rfl
  | cons change changes ih =>
    rw [List.foldl_cons, ih (next (m, held) change).1 (next (m, held) change).2, symbolFile_next,
      find?_next]
    by_cases hb : change.base = base
    · rw [if_pos hb, List.filter_cons_of_pos (by simpa using hb), List.foldl_cons]
    · rw [if_neg hb, List.filter_cons_of_neg (by simpa using hb)]

theorem Obeyed.find?_eq (h : Obeyed m changes m') (base : UInt64) : m'.loaded.find? base =
    (changes.filter (·.base = base)).foldl (Change.record m.symbolFile) (m.loaded.find? base) := by
  rw [(obeyed_iff []).1 h, find?_foldl_next]

/-! ## All bases -/

/-- The tracked modules, by base. -/
def tracked (m : Modules) : UInt64 → Option Module :=
  m.loaded.find?

/-- Where the debugger carries out every command of loads and unloads, from any tracked modules on,
    what is tracked at a base in the end is what the changes at this base alone lead to. So
    changes at different bases may change places. A module that is loaded and, as the next change
    at its base, unloaded is not tracked any more, and where nothing was tracked at its base
    before, it is as if only the changes at the other bases had been made. -/
theorem bases_apart (m : Modules) (changes : List Change) :
    (∃ m', Obeyed m changes m') ∧
    ∀ m', Obeyed m changes m' →
      (∀ base alone, Obeyed m (changes.filter (·.base = base)) alone →
        m'.tracked base = alone.tracked base) ∧
      (∀ others m'', Obeyed m others m'' →
        (∀ base, others.filter (·.base = base) = changes.filter (·.base = base)) →
        m''.tracked = m'.tracked) ∧
      ∀ name base,
        (∀ earlier, changes.filter (·.base = base) =
            earlier ++ [.load name base, .unload name base] → m'.tracked base = none) ∧
        (changes.filter (·.base = base) = [.load name base, .unload name base] →
          m.tracked base = none →
          ∀ others, Obeyed m (changes.filter (·.base ≠ base)) others →
            m'.tracked = others.tracked) := by
  refine ⟨⟨_, (obeyed_iff []).2 rfl⟩, fun m' h => ⟨fun base alone ha => ?_,
    fun others m'' ho he => ?_, fun name base => ⟨fun earlier he => ?_,
      fun he hm others ho => ?_⟩⟩⟩
  · rw [tracked, tracked, h.find?_eq, ha.find?_eq, List.filter_filter]
    simp
  · funext base
    rw [tracked, tracked, ho.find?_eq, h.find?_eq, he]
  · rw [tracked, h.find?_eq, he, List.foldl_append]
    simp [Change.record]
  · funext place
    rw [tracked, tracked, h.find?_eq, ho.find?_eq, List.filter_filter]
    by_cases hp : place = base
    · subst hp
      rw [he, show m.loaded.find? place = none from hm]
      simp [Change.record]
    · refine congrArg (List.foldl _ _) (List.filter_congr fun change _ => ?_)
      by_cases hc : change.base = place
      · simp [hc, hp]
      · simp [hc]

/-- Between its load and its unload, a module at another base is loaded, which alone is tracked in
    the end. -/
theorem bases_apart_interleaved :
    let m := new {}
    let changes := [Change.load "/a.elf" 0x1000, .load "/b.elf" 0x2000, .unload "/a.elf" 0x1000]
    ∃ m' others, Obeyed m changes m' ∧ Obeyed m [.load "/b.elf" 0x2000] others ∧
      m'.tracked = others.tracked ∧ m'.tracked 0x1000 = none ∧
      (m'.tracked 0x2000).map (·.name) = some "/b.elf" := by
  intro m changes
  obtain ⟨⟨m', h⟩, hall⟩ := bases_apart m changes
  obtain ⟨others, ho⟩ := (bases_apart m [.load "/b.elf" 0x2000]).1
  have ht : m'.tracked = others.tracked :=
    ((hall m' h).2.2 "/a.elf" 0x1000).2 (by rfl) (by rfl) others ho
  refine ⟨m', others, h, ho, ht, ((hall m' h).2.2 "/a.elf" 0x1000).1 [] (by rfl), ?_⟩
  rw [ht, tracked, ho.find?_eq]
  rfl

end KernelProbe.Automation.Modules
