import Mathlib.Data.List.Induction
import KernelProbe.Proofs.Automation.SymbolFiles

/-!
# The symbol tables behind the files

The debugger keeps a table for every file that it took, with the base that it took it at, and
lists the tables in the order in which they came. A command that removes a file names no base: it
takes out the oldest table of the file (`tablesAfter`). Modules with the same file name at
different bases are thus one and the same to a removal.

Here every command succeeds (`obey`), so that what is tracked and what the debugger holds follow
from the modules that are loaded and unloaded (`after`).

* `next_eq`: what a module that is loaded or unloaded changes on both sides;
* `tables_agree_iff`: the two sides agree all along a run exactly if every file that is removed is
  that of the module loaded first among the tracked ones with this file;
* `tables_drift_same_file`: a run in which they do not.
-/

namespace KernelProbe.Automation

open Debugger Text Program

/-- A symbol table: the file that it was read from, and the base that it stands at. -/
abbrev SymbolTable := String × UInt64

/-- The table of a tracked module. -/
def Module.table (r : Module) : SymbolTable :=
  (r.symbolFile, r.base)

namespace Modules

/-! ## The debugger -/

/-- The base of a command `add-symbol-file FILE -o 0xBASE -readnow`. -/
def addedBase? (command : String) : Option UInt64 :=
  (afterStart? addEnd.reverse command.toList.reverse).bind fun place =>
    (readWord64 16 (place.takeWhile isHexDigit).reverse).toOption

/-- The tables of the debugger, oldest first, once it has carried out a command. -/
def tablesAfter (tables : List SymbolTable) (command : String) : List SymbolTable :=
  match addedFile? command, addedBase? command, removedFile? command with
  | some file, some base, _ => tables ++ [(file, base)]
  | _, _, some file => tables.eraseP (·.1 = file)
  | _, _, none => tables

/-- A debugger that carries out every command; its state is its tables, oldest first. -/
def obey : (r : Request Handler) → List SymbolTable → r.Answer × List SymbolTable
  | .execute command, tables => (.ok (), tablesAfter tables command)
  | .read .., tables => (.ok [], tables)
  | .evaluate _, tables => (.ok 0, tables)
  | .setBreakpoint _, tables => (.ok 0, tables)
  | .register .., tables => (.ok (), tables)
  | .frameValue .., tables => (.ok 0, tables)
  | .print _, tables => ((), tables)

theorem addedBase?_addCommand (file : String) (base : UInt64) :
    addedBase? (addCommand file base) = some base := by
  have hd : ∀ c ∈ (digits 16 base.toNat).reverse, isHexDigit c := fun c hc =>
    isHexDigit_of_mem_digits (by decide) (by decide) (List.mem_reverse.1 hc)
  -- The middle ends in a letter that is no digit, so the digits end there.
  have hm : ∀ s, (addMiddle.reverse ++ s).takeWhile isHexDigit = [] := by
    intro s
    rw [show addMiddle.reverse = ['x', '0', ' ', 'o', '-', ' '] from rfl]
    exact List.takeWhile_cons_of_neg (by decide)
  rw [addedBase?, toList_addCommand]
  simp only [List.reverse_append, List.append_assoc]
  rw [afterStart?_append, Option.bind_some, List.takeWhile_append_of_pos hd, hm, List.append_nil,
    List.reverse_reverse, readWord64_digits (by decide) (by decide)]
  rfl

theorem tablesAfter_addCommand (tables : List SymbolTable) (file : String) (base : UInt64) :
    tablesAfter tables (addCommand file base) = tables ++ [(file, base)] := by
  simp only [tablesAfter, addedFile?_addCommand, addedBase?_addCommand]

theorem tablesAfter_removeCommand (tables : List SymbolTable) (file : String) :
    tablesAfter tables (removeCommand file) = tables.eraseP (·.1 = file) := by
  simp only [tablesAfter, addedFile?_removeCommand, removedFile?_removeCommand]

/-! ## Oldest tables -/

section

variable {tables : List SymbolTable} {file : String} {base : UInt64}

/-- The oldest table of a file, between the tables that are older and those that are newer. -/
theorem exists_of_find?_file {found : SymbolTable} (h : tables.find? (·.1 = file) = some found) :
    ∃ older newer, tables = older ++ (file, found.2) :: newer ∧
      tables.eraseP (·.1 = file) = older ++ newer := by
  obtain ⟨hf, older, newer, rfl, hn⟩ := List.find?_eq_some_iff_append.1 h
  have hf : found.1 = file := by simpa using hf
  have hfound : found = (file, found.2) := by rw [← hf]
  refine ⟨older, newer, by rw [← hfound], ?_⟩
  rw [List.eraseP_append_right _ (by simpa using hn), List.eraseP_cons_of_pos (by simpa using hf)]

/-- Where the oldest table of a file stands at a base, removing the file removes what stands at
    the base. -/
theorem eraseP_eq_filter (hd : (tables.map (·.2)).Nodup)
    (h : tables.find? (·.1 = file) = some (file, base)) :
    tables.eraseP (·.1 = file) = tables.filter (·.2 ≠ base) := by
  obtain ⟨older, newer, hs, he⟩ := exists_of_find?_file h
  rw [he, hs, List.filter_append, List.filter_cons_of_neg (by simp), ← List.filter_append,
    eq_comm, List.filter_eq_self]
  rw [hs, List.map_append, List.map_cons, List.nodup_middle, List.nodup_cons,
    ← List.map_append] at hd
  intro t ht
  have : t.2 ≠ base := fun hb => hd.1 (List.mem_map.2 ⟨t, ht, hb⟩)
  simpa using this

/-- Where it stands at another base, it is gone from that base. -/
theorem exists_not_mem_eraseP (hd : (tables.map (·.2)).Nodup) (hm : (file, base) ∈ tables)
    (h : tables.find? (·.1 = file) ≠ some (file, base)) :
    ∃ other ≠ base, (file, other) ∈ tables ∧ (file, other) ∉ tables.eraseP (·.1 = file) := by
  have hs : (tables.find? (·.1 = file)).isSome := List.find?_isSome.2 ⟨_, hm, by simp⟩
  obtain ⟨found, hf⟩ := Option.isSome_iff_exists.1 hs
  obtain ⟨older, newer, hs, he⟩ := exists_of_find?_file hf
  refine ⟨found.2, fun hb => h ?_, by rw [hs]; simp, fun hn => ?_⟩
  · have hfile : found.1 = file := by simpa using List.find?_some hf
    rw [hf, ← hfile, ← hb]
  · rw [hs, List.map_append, List.map_cons, List.nodup_middle, List.nodup_cons,
      ← List.map_append] at hd
    rw [he] at hn
    exact hd.1 (List.mem_map.2 ⟨_, hn, rfl⟩)

end

/-! ## Loading and unloading -/

/-- The tables of the tracked modules, oldest first. -/
def tables (m : Modules) : List SymbolTable :=
  m.loaded.values.map Module.table

/-- A module that the kernel loads or unloads. -/
inductive Change
  | load (name : String) (base : UInt64)
  | unload (name : String) (base : UInt64)

namespace Change

/-- What is done at a change. -/
def script (m : Modules) : Change → Script Handler (Except Error Unit × Modules)
  | load name base => m.load name base
  | unload name base => m.unload name base

/-- The tracked module whose file is removed at a change. -/
def removed? (m : Modules) : Change → Option Module
  | load _ base => m.loaded.find? base
  | unload name base => (m.loaded.find? base).filter (·.name = name)

/-- The module whose file is added at a change. -/
def added? (m : Modules) : Change → Option Module
  | load name base => some ⟨name, base, m.symbolFile name⟩
  | unload .. => none

end Change

/-- The tracked modules and the tables of the debugger once a change is carried out. -/
def next (s : Modules × List SymbolTable) (change : Change) : Modules × List SymbolTable :=
  let (result, held) := Program.run obey (change.script s.1) s.2
  (result.2, held)

/-- The tracked modules and the tables of the debugger after changes, none at first. -/
def after (c : Config) (changes : List Change) : Modules × List SymbolTable :=
  changes.foldl next (new c, [])

section

variable {c : Config} {m : Modules} {changes : List Change} {change : Change} {r : Module}
  {held : List SymbolTable} {base : UInt64}

theorem after_append_singleton (c : Config) (changes : List Change) (change : Change) :
    after c (changes ++ [change]) = next (after c changes) change := by
  rw [after, List.foldl_append]
  rfl

/-- What is tracked after changes is tracked after a run. -/
theorem exists_run_after (c : Config) (changes : List Change) :
    ∃ log, Run (H := Handler) c log (after c changes).1 := by
  induction changes using List.reverseRecOn with
  | nil => exact ⟨[], .start⟩
  | append_singleton changes change ih =>
    obtain ⟨log, h⟩ := ih
    rw [after_append_singleton]
    have hp := path_run obey (change.script (after c changes).1) (after c changes).2
    cases change with
    | load name base => exact ⟨_, h.call (.load name base hp)⟩
    | unload name base => exact ⟨_, h.call (.unload name base hp)⟩

/-- A base has at most one record, which has that base. -/
structure Keyed (m : Modules) : Prop where
  distinct : m.loaded.Distinct
  base_eq : ∀ e ∈ m.loaded.entries, e.2.base = e.1

theorem keyed_after (c : Config) (changes : List Change) : Keyed (after c changes).1 := by
  obtain ⟨log, h⟩ := exists_run_after c changes
  exact ⟨h.inStep.distinct, fun e he => (h.inStep.records e he).1⟩

/-- The bases of the tables are the keys of the tracked modules. -/
theorem Keyed.map_tables (h : Keyed m) : m.tables.map (·.2) = m.loaded.entries.map (·.1) := by
  rw [tables, Dict.values, List.map_map, List.map_map]
  exact List.map_congr_left h.base_eq

theorem Keyed.nodup (h : Keyed m) : (m.tables.map (·.2)).Nodup := by
  rw [h.map_tables]
  exact h.distinct

theorem Keyed.base_of_find? (h : Keyed m) (hr : m.loaded.find? base = some r) : r.base = base :=
  h.base_eq _ (Dict.mem_of_find? hr)

/-- What is removed is tracked, and what is added then takes its base. -/
theorem Keyed.removed (h : Keyed m) (hr : change.removed? m = some r) :
    r ∈ m.loaded.values ∧ ∀ a, change.added? m = some a → a.base = r.base := by
  cases change with
  | load name base =>
    refine ⟨List.mem_map_of_mem (Dict.mem_of_find? hr), ?_⟩
    rintro a ⟨⟩
    exact (h.base_of_find? hr).symm
  | unload name base =>
    exact ⟨List.mem_map_of_mem (Dict.mem_of_find? (Option.filter_eq_some_iff.1 hr).1), nofun⟩

/-- Tracked modules with the same table are the same. -/
theorem Keyed.eq_of_table (h : Keyed m) {r' : Module} (hr : r ∈ m.loaded.values)
    (hr' : r' ∈ m.loaded.values) (ht : r.table = r'.table) : r = r' := by
  have hd : (m.loaded.values.map Module.base).Nodup := by
    have := h.nodup
    rwa [tables, List.map_map] at this
  exact List.inj_on_of_nodup_map hd hr hr' (congrArg Prod.snd ht)

/-- Without the module at a base, its table is missing. -/
theorem Keyed.tables_erase (h : Keyed m) (base : UInt64) :
    { m with loaded := m.loaded.erase base }.tables = m.tables.filter (·.2 ≠ base) := by
  simp only [tables, Dict.values, Dict.erase, List.filter_map, List.map_map]
  refine congrArg _ (List.filter_congr fun e he => ?_)
  simp [Module.table, h.base_eq e he]

theorem tables_insert (m : Modules) (base : UInt64) (r : Module) :
    { m with loaded := m.loaded.insert base r }.tables =
      { m with loaded := m.loaded.erase base }.tables ++ [r.table] := by
  simp [tables, Dict.values, Dict.insert]

theorem run_execute (command : String) (held : List SymbolTable) :
    Program.run obey (execute command) held = (.ok (), tablesAfter held command) := rfl

theorem next_load_of_none (name : String) (h : m.loaded.find? base = none) :
    next (m, held) (.load name base) =
      ({ m with loaded := m.loaded.insert base ⟨name, base, m.symbolFile name⟩ },
        tablesAfter held (addCommand (m.symbolFile name) base)) := by
  simp only [next, Change.script, load, dropStale, h, bind_eq, pure_eq, done_bind, run_bind,
    run_execute, run]

/-- The file of a module does not depend on what is tracked. -/
theorem symbolFile_with (m : Modules) (loaded : Dict UInt64 Module) (name : String) :
    { m with loaded }.symbolFile name = m.symbolFile name := by
  unfold symbolFile
  rfl

theorem next_load_of_some (name : String) (h : m.loaded.find? base = some r) :
    next (m, held) (.load name base) =
      ({ m with loaded := (m.loaded.erase base).insert base ⟨name, base, m.symbolFile name⟩ },
        tablesAfter (tablesAfter held (removeCommand r.symbolFile))
          (addCommand (m.symbolFile name) base)) := by
  simp only [next, Change.script, load, dropStale, h, bind_eq, pure_eq, run_bind, run_execute, run,
    symbolFile_with]

theorem next_unload (name : String) (base : UInt64) : next (m, held) (.unload name base) =
    ((Change.unload name base).removed? m).elim (m, held) fun r =>
      ({ m with loaded := m.loaded.erase base },
        tablesAfter held (removeCommand r.symbolFile)) := by
  unfold next Change.script unload Change.removed?
  dsimp only
  cases m.loaded.find? base with
  | none => rfl
  | some r =>
    dsimp only
    split
    · next hn =>
      rw [Option.filter_some_pos (by simpa using hn)]
      rfl
    · next hn =>
      rw [Option.filter_some_neg (by simpa using hn)]
      rfl

/-- A change takes the oldest table of a file from the debugger where it takes a module's own
    table from the tracked ones, and adds the same table to both. -/
theorem next_eq (h : Keyed m) (held : List SymbolTable) (change : Change) :
    (next (m, held) change).1.tables =
        ((change.removed? m).elim m.tables fun r => m.tables.filter (·.2 ≠ r.base)) ++
          (change.added? m).toList.map Module.table ∧
      (next (m, held) change).2 =
        ((change.removed? m).elim held fun r => held.eraseP (·.1 = r.symbolFile)) ++
          (change.added? m).toList.map Module.table := by
  cases change with
  | load name base =>
    cases hf : m.loaded.find? base with
    | none =>
      rw [next_load_of_none name hf, tables_insert, Dict.erase_of_find?_eq_none hf,
        tablesAfter_addCommand]
      simp [Change.removed?, Change.added?, hf, Module.table]
    | some r =>
      have ht := tables_insert { m with loaded := m.loaded.erase base } base
        ⟨name, base, m.symbolFile name⟩
      have hn : (m.loaded.erase base).find? base = none := by simp [Dict.find?_erase]
      dsimp only at ht
      rw [Dict.erase_of_find?_eq_none hn, h.tables_erase] at ht
      rw [next_load_of_some name hf, tablesAfter_removeCommand, tablesAfter_addCommand, ht]
      simp [Change.removed?, Change.added?, hf, Module.table, h.base_of_find? hf]
  | unload name base =>
    rw [next_unload]
    cases hr : (Change.unload name base).removed? m with
    | none => simp [Change.added?]
    | some r =>
      have hf : m.loaded.find? base = some r := (Option.filter_eq_some_iff.1 hr).1
      simp [Change.added?, h.tables_erase, h.base_of_find? hf, tablesAfter_removeCommand]

/-! ## Agreement -/

/-- The debugger holds the tables of the tracked modules and no others. -/
def TablesAgree (s : Modules × List SymbolTable) : Prop :=
  ∀ t, t ∈ s.2 ↔ t ∈ s.1.tables

/-- Wherever a change removes a file, it is that of the module loaded first among the tracked ones
    with this file. -/
def RemovesOldest (c : Config) (changes : List Change) : Prop :=
  ∀ before change, before ++ [change] <+: changes →
    ∀ r, change.removed? (after c before).1 = some r →
    (after c before).1.loaded.values.find? (·.symbolFile = r.symbolFile) = some r

theorem RemovesOldest.of_prefix {before : List Change} (h : RemovesOldest c changes)
    (hb : before <+: changes) : RemovesOldest c before :=
  fun before' change hp => h before' change (hp.trans hb)

/-- The tables that a removal finds are those of the tracked modules. -/
theorem find?_tables (m : Modules) (file : String) : m.tables.find? (·.1 = file) =
    (m.loaded.values.find? (·.symbolFile = file)).map Module.table := by
  rw [tables, List.find?_map]
  rfl

/-- Where the oldest of each file is removed, the debugger lists the tables of the tracked
    modules, in the same order. -/
theorem RemovesOldest.tables_eq (h : RemovesOldest c changes) :
    (after c changes).2 = (after c changes).1.tables := by
  induction changes using List.reverseRecOn with
  | nil => rfl
  | append_singleton changes change ih =>
    have ih := ih (h.of_prefix (List.prefix_append _ _))
    have hk := keyed_after c changes
    obtain ⟨ht, hh⟩ := next_eq hk (after c changes).2 change
    rw [after_append_singleton, ht, hh, ih]
    refine congrArg (· ++ _) ?_
    cases hr : change.removed? (after c changes).1 with
    | none => rfl
    | some r =>
      have ho := h changes change (List.prefix_refl _) r hr
      exact eraseP_eq_filter hk.nodup (by rw [find?_tables, ho]; rfl)

/-- Where the oldest of a file is not removed, the debugger loses a table that is still
    tracked. -/
theorem not_tablesAgree_next (hk : Keyed m) (hr : change.removed? m = some r)
    (ho : m.loaded.values.find? (·.symbolFile = r.symbolFile) ≠ some r) :
    ¬TablesAgree (next (m, m.tables) change) := by
  obtain ⟨hm, ha⟩ := hk.removed hr
  obtain ⟨ht, hh⟩ := next_eq hk m.tables change
  rw [hr, Option.elim_some] at ht hh
  have hf : m.tables.find? (·.1 = r.symbolFile) ≠ some r.table := by
    rw [find?_tables]
    intro hf
    obtain ⟨r', hr', ht'⟩ := Option.map_eq_some_iff.1 hf
    exact ho (hk.eq_of_table (List.mem_of_find?_eq_some hr') hm ht' ▸ hr')
  obtain ⟨other, hb, htracked, hlost⟩ :=
    exists_not_mem_eraseP hk.nodup (List.mem_map_of_mem hm) hf
  -- The table that is lost stands at another base than what is removed and what is added.
  intro h
  have hin : (r.symbolFile, other) ∈ (next (m, m.tables) change).2 := by
    rw [h, ht, List.mem_append, List.mem_filter]
    exact .inl ⟨htracked, by simpa using hb⟩
  rw [hh, List.mem_append] at hin
  rcases hin with hin | hin
  · exact hlost hin
  · obtain ⟨a, hadd, htable⟩ := List.mem_map.1 hin
    refine hb ?_
    rw [← ha a (Option.mem_toList.1 hadd)]
    exact (congrArg Prod.snd htable).symm

/-- Through a run of loads and unloads in which every command succeeds, the debugger holds after
    each of them the tables of the tracked modules and no others, exactly if each file that is
    removed is that of the module loaded first among the tracked ones with this file. -/
theorem tables_agree_iff (c : Config) (changes : List Change) :
    (∀ before, before <+: changes → TablesAgree (after c before)) ↔ RemovesOldest c changes := by
  constructor
  · intro h
    induction changes using List.reverseRecOn with
    | nil =>
      intro before change hp
      simp at hp
    | append_singleton changes change ih =>
      have ih := ih fun before hb => h before (hb.trans (List.prefix_append _ _))
      intro before change' hp r hr
      rcases List.prefix_concat_iff.1 hp with hp | hp
      · -- The last change: up to it the two sides list the same tables.
        obtain ⟨rfl, ⟨⟩⟩ := List.append_inj' hp rfl
        by_contra ho
        refine not_tablesAgree_next (keyed_after c before) hr ho ?_
        rw [← ih.tables_eq, ← after_append_singleton]
        exact h _ (List.prefix_refl _)
      · exact ih before change' hp r hr
  · intro h before hb t
    rw [(h.of_prefix hb).tables_eq]

/-- Two modules with the same file name: the unload of the second one takes the table of the first
    one from the debugger. -/
theorem tables_drift_same_file :
    let file := "boot_iso/boot_part/x.elf"
    let s := after {} [.load "/a/x.elf" 0x1000, .load "/b/x.elf" 0x2000,
      .unload "/b/x.elf" 0x2000]
    s.1.tables = [(file, 0x1000)] ∧ s.2 = [(file, 0x2000)] ∧ ¬TablesAgree s := by
  intro file s
  have hs : s.1.tables = [(file, 0x1000)] ∧ s.2 = [(file, 0x2000)] := by
    decide +kernel
  refine ⟨hs.1, hs.2, fun h => ?_⟩
  have := h (file, 0x2000)
  rw [hs.1, hs.2] at this
  simp at this

end

end Modules

end KernelProbe.Automation
