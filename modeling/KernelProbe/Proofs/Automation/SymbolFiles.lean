import Mathlib.Data.Multiset.AddSub
import KernelProbe.Automation.Modules
import KernelProbe.Proofs.Debugger.Script
import KernelProbe.Proofs.Interaction.Dict
import KernelProbe.Proofs.Interaction.Path
import KernelProbe.Proofs.Text.Digits
import KernelProbe.Proofs.Text.Search

/-!
# The symbol files that the debugger holds

From the outside, the debugger is a multiset of symbol files: a command that adds one and
succeeds puts it in, a command that removes one and succeeds takes one copy out, and a command
that fails changes nothing (`held`). A run calls the module hooks, `load` and `unload` in any
order, on any names and bases, and every call of the debugger may fail (`Run`).

* `InStep`: the tracked modules and the debugger are in step. One exchange with the debugger
  keeps them so, and hence every call does, wherever it breaks off;
* `tracked_files_eq_held`: after every call of every run, the files of the tracked modules are
  those that the debugger holds, and no file was ever removed that it did not hold.
-/

namespace KernelProbe.Automation.Modules

open Debugger Text Program

variable {H : Type}

/-! ## The debugger's side -/

/-- The start of a command that adds a symbol file. -/
def addStart : List Char := "add-symbol-file ".toList

/-- What stands between the file and the base in such a command. -/
def addMiddle : List Char := " -o 0x".toList

/-- The end of such a command. -/
def addEnd : List Char := " -readnow".toList

/-- The start of a command that removes a symbol file. -/
def removeStart : List Char := "remove-symbol-file ".toList

/-- The file of a command `add-symbol-file FILE -o 0xBASE -readnow`. A file may have blanks in
    its name, so the command is read from its end. -/
def addedFile? (command : String) : Option String :=
  (afterStart? addStart command.toList).bind fun rest =>
    (afterStart? addEnd.reverse rest.reverse).bind fun place =>
      (afterStart? addMiddle.reverse (place.dropWhile isHexDigit)).map fun file =>
        String.ofList file.reverse

/-- The file of a command `remove-symbol-file FILE`. -/
def removedFile? (command : String) : Option String :=
  (afterStart? removeStart command.toList).map String.ofList

/-- The symbol files that the debugger holds once a call got its answer. -/
def heldAfter (held : Multiset String) : Exchange (interface H) → Multiset String
  | ⟨.execute command, .ok ()⟩ =>
    match addedFile? command, removedFile? command with
    | some file, _ => file ::ₘ held
    | none, some file => held.erase file
    | none, none => held
  | _ => held

/-- The symbol files that the debugger holds after calls, none at first. -/
def held (log : Log (interface H)) : Multiset String :=
  log.foldl heldAfter 0

theorem toList_addCommand (file : String) (base : UInt64) :
    (addCommand file base).toList =
      addStart ++ (file.toList ++ (addMiddle ++ (digits 16 base.toNat ++ addEnd))) := by
  have h : addCommand file base = "add-symbol-file " ++ file ++ " -o " ++
      ("0x" ++ String.ofList (digits 16 base.toNat)) ++ " -readnow" := rfl
  rw [h]
  unfold addStart addMiddle addEnd
  simp

theorem toList_removeCommand (file : String) :
    (removeCommand file).toList = removeStart ++ file.toList := by
  unfold removeCommand removeStart
  exact String.toList_append

theorem addedFile?_addCommand (file : String) (base : UInt64) :
    addedFile? (addCommand file base) = some file := by
  have hd : ∀ c ∈ (digits 16 base.toNat).reverse, isHexDigit c := fun c hc =>
    isHexDigit_of_mem_digits (by decide) (by decide) (List.mem_reverse.1 hc)
  -- The middle ends in a letter that is no digit, so the digits end there.
  have hm : ∀ s, (addMiddle.reverse ++ s).dropWhile isHexDigit = addMiddle.reverse ++ s := by
    intro s
    rw [show addMiddle.reverse = ['x', '0', ' ', 'o', '-', ' '] from rfl]
    exact List.dropWhile_cons_of_neg (by decide)
  rw [addedFile?, toList_addCommand, afterStart?_append, Option.bind_some]
  simp only [List.reverse_append, List.append_assoc]
  rw [afterStart?_append, Option.bind_some, List.dropWhile_append_of_pos hd, hm,
    afterStart?_append, Option.map_some, List.reverse_reverse, String.ofList_toList]

theorem removedFile?_removeCommand (file : String) :
    removedFile? (removeCommand file) = some file := by
  rw [removedFile?, toList_removeCommand, afterStart?_append, Option.map_some,
    String.ofList_toList]

theorem addedFile?_removeCommand (file : String) : addedFile? (removeCommand file) = none := by
  have h : afterStart? addStart (removeStart ++ file.toList) = none := by
    unfold addStart removeStart
    simp [afterStart?]
  rw [addedFile?, toList_removeCommand, h, Option.bind_none]

theorem removeCommand_injective : Function.Injective removeCommand := by
  intro file file' h
  have := removedFile?_removeCommand file'
  rw [← h, removedFile?_removeCommand] at this
  exact Option.some.inj this

theorem removeCommand_ne_addCommand (file file' : String) (base : UInt64) :
    removeCommand file ≠ addCommand file' base := by
  intro h
  have := addedFile?_removeCommand file
  rw [h, addedFile?_addCommand] at this
  cases this

theorem held_concat (log : Log (interface H)) (e : Exchange (interface H)) :
    held (log ++ [e]) = heldAfter (held log) e := by
  rw [held, List.foldl_append]
  rfl

/-- Whether a call carries out a command of the debugger. -/
def IsExecute : Request H → Prop
  | .execute _ => True
  | _ => False

theorem heldAfter_of_not_isExecute {e : Exchange (interface H)} (he : ¬IsExecute e.call)
    (held : Multiset String) : heldAfter held e = held := by
  obtain ⟨call, answer⟩ := e
  cases call
  case execute => exact absurd trivial he
  all_goals rfl

theorem heldAfter_error (held : Multiset String) (command : String) (e : Error) :
    heldAfter (H := H) held ⟨.execute command, .error e⟩ = held := rfl

theorem heldAfter_addCommand (held : Multiset String) (file : String) (base : UInt64) :
    heldAfter (H := H) held ⟨.execute (addCommand file base), .ok ()⟩ = file ::ₘ held := by
  simp only [heldAfter, addedFile?_addCommand]

theorem heldAfter_removeCommand (held : Multiset String) (file : String) :
    heldAfter (H := H) held ⟨.execute (removeCommand file), .ok ()⟩ = held.erase file := by
  simp only [heldAfter, addedFile?_removeCommand, removedFile?_removeCommand]

/-- Whenever a symbol file is removed, the debugger holds it. -/
def RemovesHeld (log : Log (interface H)) : Prop :=
  ∀ before file answer, before ++ [⟨.execute (removeCommand file), answer⟩] <+: log →
    file ∈ held before

theorem RemovesHeld.concat {log : Log (interface H)} {e : Exchange (interface H)}
    (h : RemovesHeld log) (he : ∀ file, e.call = .execute (removeCommand file) → file ∈ held log) :
    RemovesHeld (log ++ [e]) := by
  intro before file answer hb
  rcases List.prefix_concat_iff.1 hb with hb | hb
  · obtain ⟨rfl, hx⟩ := List.append_inj' hb rfl
    exact he file (congrArg Exchange.call (List.singleton_inj.1 hx)).symm
  · exact h before file answer hb

/-! ## One exchange -/

/-- The files of the tracked modules, oldest first. -/
def files (m : Modules) : List String :=
  m.loaded.values.map (·.symbolFile)

/-- The tracked modules, under a configuration, and the debugger are in step. -/
structure InStep (c : Config) (log : Log (interface H)) (m : Modules) : Prop where
  files : (m.files : Multiset String) = held log
  removals : RemovesHeld log
  distinct : m.loaded.Distinct
  records : ∀ e ∈ m.loaded.entries,
    e.2.base = e.1 ∧ e.2.symbolFile = (new c).symbolFile e.2.name
  root : m.symbolRoot = c.symbolRoot

variable {c : Config} {log more : Log (interface H)} {m m' : Modules} {name : String}
  {base : UInt64} {r : Module}

theorem symbolFile_of_root (h : m.symbolRoot = c.symbolRoot) (name : String) :
    m.symbolFile name = (new c).symbolFile name := by
  simp only [symbolFile, new, h]

theorem files_perm_erase (hd : m.loaded.Distinct) (hf : m.loaded.find? base = some r) :
    m.files.Perm (r.symbolFile :: { m with loaded := m.loaded.erase base }.files) :=
  ((hd.perm_erase hf).map Prod.snd).map Module.symbolFile

theorem files_insert (hf : m.loaded.find? base = none) :
    { m with loaded := m.loaded.insert base r }.files = m.files ++ [r.symbolFile] := by
  simp [Modules.files, Dict.values, Dict.insert, Dict.erase_of_find?_eq_none hf]

theorem inStep_new (c : Config) : InStep (H := H) c [] (new c) where
  files := rfl
  removals := by
    intro before file answer hb
    simp at hb
  distinct := Dict.distinct_empty
  records := by
    intro e he
    cases he
  root := rfl

namespace InStep

theorem mem_held (h : InStep c log m) (hf : m.loaded.find? base = some r) :
    r.symbolFile ∈ held log := by
  rw [← h.files, Multiset.mem_coe, (files_perm_erase h.distinct hf).mem_iff]
  exact List.mem_cons_self

/-- What changes neither side keeps them in step. -/
theorem unchanged {e : Exchange (interface H)} (h : InStep c log m)
    (hheld : heldAfter (held log) e = held log)
    (he : ∀ file, e.call = .execute (removeCommand file) → file ∈ held log) :
    InStep c (log ++ [e]) m where
  files := by rw [held_concat, hheld, h.files]
  removals := h.removals.concat he
  distinct := h.distinct
  records := h.records
  root := h.root

/-- Reading and printing keep the two sides in step. -/
theorem others (h : InStep c log m) (hmore : ∀ e ∈ more, ¬IsExecute e.call) :
    InStep c (log ++ more) m := by
  induction more generalizing log with
  | nil => rwa [List.append_nil]
  | cons e more ih =>
    rw [List.append_cons]
    have he := hmore e List.mem_cons_self
    refine ih (h.unchanged (heldAfter_of_not_isExecute he _) fun file hfile => ?_) fun e' he' =>
      hmore e' (List.mem_cons_of_mem _ he')
    rw [hfile] at he
    exact absurd trivial he

theorem not_removed (h : InStep c log m) (hf : m.loaded.find? base = some r) (e : Error) :
    InStep c (log ++ [⟨.execute (removeCommand r.symbolFile), .error e⟩]) m := by
  refine h.unchanged (heldAfter_error _ _ _) fun file hfile => ?_
  rw [← removeCommand_injective (Request.execute.inj hfile)]
  exact h.mem_held hf

theorem removed (h : InStep c log m) (hf : m.loaded.find? base = some r) :
    InStep c (log ++ [⟨.execute (removeCommand r.symbolFile), .ok ()⟩])
      { m with loaded := m.loaded.erase base } where
  files := by
    rw [held_concat, heldAfter_removeCommand, ← h.files,
      Multiset.coe_eq_coe.2 (files_perm_erase h.distinct hf), ← Multiset.cons_coe,
      Multiset.erase_cons_head]
  removals := by
    refine h.removals.concat fun file hfile => ?_
    rw [← removeCommand_injective (Request.execute.inj hfile)]
    exact h.mem_held hf
  distinct := h.distinct.erase base
  records e he := h.records e (Dict.mem_erase.1 he).1
  root := h.root

theorem not_added (h : InStep c log m) (file : String) (base : UInt64) (e : Error) :
    InStep c (log ++ [⟨.execute (addCommand file base), .error e⟩]) m :=
  h.unchanged (heldAfter_error _ _ _) fun _ hfile =>
    absurd (Request.execute.inj hfile).symm (removeCommand_ne_addCommand _ _ _)

theorem added (h : InStep c log m) (hf : m.loaded.find? base = none) (name : String) :
    InStep c (log ++ [⟨.execute (addCommand (m.symbolFile name) base), .ok ()⟩])
      { m with loaded := m.loaded.insert base ⟨name, base, m.symbolFile name⟩ } where
  files := by
    rw [held_concat, heldAfter_addCommand, ← h.files, files_insert hf, Multiset.cons_coe,
      Multiset.coe_eq_coe]
    exact List.perm_append_singleton _ _
  removals := h.removals.concat fun _ hfile =>
    absurd (Request.execute.inj hfile).symm (removeCommand_ne_addCommand _ _ _)
  distinct := h.distinct.insert base _
  records e he := by
    rcases Dict.mem_insert.1 he with ⟨he, -⟩ | rfl
    · exact h.records e he
    · exact ⟨rfl, symbolFile_of_root h.root name⟩
  root := h.root

end InStep

/-! ## Calls -/

section

variable {P : Request H → Prop}

/-- Reading a name only reads memory. -/
theorem only_readUnits (hread : ∀ place, P (.read .virtual place 2)) (address : UInt64)
    (remaining : Nat) (units : List UInt16) : Only P (readUnits address remaining units) := by
  induction remaining generalizing units with
  | zero => exact .done _
  | succ remaining ih =>
    rw [readUnits]
    split
    · exact .done _
    · refine .bind (only_readWord16 (hread _)) fun reply => ?_
      cases reply with
      | error e => exact .done _
      | ok u =>
        dsimp only
        split
        · split <;> exact .done _
        · exact ih _

/-- Reading the name and base of a module only reads values of the frame and memory. -/
theorem only_readModule (hread : ∀ place, P (.read .virtual place 2))
    (hvalue : ∀ frame name, P (.frameValue frame name)) (m : Modules) : Only P m.readModule := by
  refine .bind (.ask (hvalue _ _)) fun path => ?_
  cases path with
  | error e => exact .done _
  | ok path =>
    refine .bind (.ask (hvalue _ _)) fun base => ?_
    cases base with
    | error e => exact .done _
    | ok base =>
      refine .bind (only_readUnits hread _ _ _) fun name => ?_
      cases name <;> exact .done _

/-- Loading and unloading only carry out commands. -/
theorem only_dropStale (hexecute : ∀ command, P (.execute command)) (m : Modules)
    (base : UInt64) : Only P (m.dropStale base) := by
  rw [dropStale]
  split
  · exact .done _
  · refine .bind (.ask (hexecute _)) fun answer => ?_
    cases answer <;> exact .done _

theorem only_load (hexecute : ∀ command, P (.execute command)) (m : Modules) (name : String)
    (base : UInt64) : Only P (m.load name base) := by
  refine .bind (only_dropStale hexecute m base) fun ⟨dropped, m⟩ => ?_
  cases dropped with
  | error e => exact .done _
  | ok _ =>
    refine .bind (.ask (hexecute _)) fun answer => ?_
    cases answer <;> exact .done _

theorem only_unload (hexecute : ∀ command, P (.execute command)) (m : Modules) (name : String)
    (base : UInt64) : Only P (m.unload name base) := by
  rw [unload]
  split
  · exact .done _
  · split
    · refine .bind (.ask (hexecute _)) fun answer => ?_
      cases answer <;> exact .done _
    · exact .done _

end

namespace InStep

/-- Removing the file of a tracked module, whatever the debugger answers: the record goes out
    with the file, or both stay. -/
theorem drop (h : InStep c log m) (hf : m.loaded.find? base = some r)
    {result : Except Error Unit} (hp : Path (.bind (execute (removeCommand r.symbolFile)) fun
      | .error e => .done (.error e, m)
      | .ok () => .done (.ok (), { m with loaded := m.loaded.erase base })) more (result, m')) :
    InStep c (log ++ more) m' ∧ (result = .ok () → m'.loaded.find? base = none) := by
  obtain ⟨answer, rest, rfl, hq⟩ := path_ask_bind.1 hp
  cases answer with
  | error e =>
    obtain ⟨rfl, ⟨⟩⟩ := path_done.1 hq
    exact ⟨h.not_removed hf e, nofun⟩
  | ok _ =>
    obtain ⟨rfl, ⟨⟩⟩ := path_done.1 hq
    exact ⟨h.removed hf, fun _ => by simp [Dict.find?_erase]⟩

/-- Where dropping a stale file succeeds, nothing is tracked at the base. -/
theorem dropStale (h : InStep c log m) {result : Except Error Unit}
    (hp : Path (m.dropStale base) more (result, m')) :
    InStep c (log ++ more) m' ∧ (result = .ok () → m'.loaded.find? base = none) := by
  rw [Modules.dropStale] at hp
  split at hp
  · next hf =>
    obtain ⟨rfl, ⟨⟩⟩ := path_done.1 hp
    exact ⟨by rwa [List.append_nil], fun _ => hf⟩
  · next stale hf => exact h.drop hf hp

theorem load (h : InStep c log m) {result : Except Error Unit}
    (hp : Path (m.load name base) more (result, m')) : InStep c (log ++ more) m' := by
  obtain ⟨first, ⟨dropped, m₁⟩, second, hd, hs, rfl⟩ := path_bind.1 hp
  -- Between the removal and the addition the two sides are in step too.
  obtain ⟨h₁, hf⟩ := h.dropStale hd
  rw [← List.append_assoc]
  cases dropped with
  | error e =>
    obtain ⟨rfl, ⟨⟩⟩ := path_done.1 hs
    rwa [List.append_nil]
  | ok _ =>
    obtain ⟨answer, rest, rfl, hq⟩ := path_ask_bind.1 hs
    cases answer with
    | error e =>
      obtain ⟨rfl, ⟨⟩⟩ := path_done.1 hq
      exact h₁.not_added _ base e
    | ok _ =>
      obtain ⟨rfl, ⟨⟩⟩ := path_done.1 hq
      exact h₁.added (hf rfl) name

theorem unload (h : InStep c log m) {result : Except Error Unit}
    (hp : Path (m.unload name base) more (result, m')) : InStep c (log ++ more) m' := by
  rw [Modules.unload] at hp
  split at hp
  · obtain ⟨rfl, ⟨⟩⟩ := path_done.1 hp
    rwa [List.append_nil]
  · next tracked hf =>
    split at hp
    · exact (h.drop hf hp).1
    · obtain ⟨rfl, ⟨⟩⟩ := path_done.1 hp
      rwa [List.append_nil]

/-- A hook that acts on the module that it reads, and prints where there is none. -/
theorem hook (h : InStep c log m) {skipped : SkipReason → String}
    {act : String → UInt64 → Script H (Except Error Unit × Modules)}
    (hact : ∀ {log more : Log (interface H)} {name base result m'}, InStep c log m →
      Path (act name base) more (result, m') → InStep c (log ++ more) m')
    {decision : Decision} (hp : Path (.bind m.readModule fun
      | .error reason => .bind (print (skipped reason)) fun _ => .done (.resume, m)
      | .ok (name, base) => .bind (act name base) fun (_, m) => .done (.resume, m))
      more (decision, m')) :
    InStep c (log ++ more) m' ∧ decision = .resume := by
  obtain ⟨first, found, second, hr, hs, rfl⟩ := path_bind.1 hp
  -- Wherever the reading broke off, no command has been executed yet.
  have honly : Only (¬IsExecute ·) (m.readModule (H := H)) :=
    only_readModule (fun _ => not_false) (fun _ _ => not_false) m
  have h₁ := h.others (honly hr)
  rw [← List.append_assoc]
  cases found with
  | error reason =>
    obtain ⟨answer, rest, rfl, hq⟩ := path_ask_bind.1 hs
    obtain ⟨rfl, ⟨⟩⟩ := path_done.1 hq
    exact ⟨h₁.others (by simp [IsExecute]), rfl⟩
  | ok found =>
    obtain ⟨third, ⟨result, m₁⟩, fourth, ha, hq, rfl⟩ := path_bind.1 hs
    obtain ⟨rfl, ⟨⟩⟩ := path_done.1 hq
    exact ⟨by rw [List.append_nil]; exact hact h₁ ha, rfl⟩

theorem onLoad (h : InStep c log m) {decision : Decision}
    (hp : Path m.onLoad more (decision, m')) :
    InStep c (log ++ more) m' ∧ decision = .resume :=
  h.hook (fun h hl => h.load hl) hp

theorem onUnload (h : InStep c log m) {decision : Decision}
    (hp : Path m.onUnload more (decision, m')) :
    InStep c (log ++ more) m' ∧ decision = .resume :=
  h.hook (fun h hu => h.unload hu) hp

end InStep

/-! ## Runs -/

/-- A call, the exchanges in it, and the tracked modules behind it. -/
inductive Call : Modules → Log (interface H) → Modules → Prop
  | onLoad {m m' : Modules} {log : Log (interface H)} {decision : Decision} :
      Path m.onLoad log (decision, m') → Call m log m'
  | onUnload {m m' : Modules} {log : Log (interface H)} {decision : Decision} :
      Path m.onUnload log (decision, m') → Call m log m'
  | load {m m' : Modules} {log : Log (interface H)} {result : Except Error Unit}
      (name : String) (base : UInt64) : Path (m.load name base) log (result, m') → Call m log m'
  | unload {m m' : Modules} {log : Log (interface H)} {result : Except Error Unit}
      (name : String) (base : UInt64) : Path (m.unload name base) log (result, m') → Call m log m'

/-- A run: calls in any order, from no tracked modules on. -/
inductive Run (c : Config) : Log (interface H) → Modules → Prop
  | start : Run c [] (new c)
  | call {log more : Log (interface H)} {m m' : Modules} :
      Run c log m → Call m more m' → Run c (log ++ more) m'

theorem InStep.call (h : InStep c log m) (hc : Call m more m') : InStep c (log ++ more) m' := by
  cases hc with
  | onLoad hp => exact (h.onLoad hp).1
  | onUnload hp => exact (h.onUnload hp).1
  | load name base hp => exact h.load hp
  | unload name base hp => exact h.unload hp

theorem Run.inStep (h : Run c log m) : InStep c log m := by
  induction h with
  | start => exact inStep_new c
  | call _ hc ih => exact ih.call hc

/-- After every call of every run, the files of the tracked modules are those that the debugger
    holds, and every file that was removed was held at that moment. A base has at most one
    record, which has that base and the file for its name, and both hooks let the target go
    on. -/
theorem tracked_files_eq_held (h : Run c log m) :
    (m.files : Multiset String) = held log ∧
      (∀ before file answer,
        before ++ [⟨.execute ("remove-symbol-file " ++ file), answer⟩] <+: log →
          file ∈ held before) ∧
      (m.loaded.entries.map (·.1)).Nodup ∧
      (∀ base r, (base, r) ∈ m.loaded.entries →
        r.base = base ∧ r.symbolFile = (new c).symbolFile r.name) ∧
      ∀ (next : Log (interface H)) decision m',
        Path m.onLoad next (decision, m') ∨ Path m.onUnload next (decision, m') →
          decision = .resume := by
  have hi := h.inStep
  refine ⟨hi.files, hi.removals, hi.distinct, fun base r => hi.records (base, r), ?_⟩
  rintro next decision m' (hp | hp)
  · exact (hi.onLoad hp).2
  · exact (hi.onUnload hp).2

/-- A module in the place of another one: the old file goes, and the new one is refused. -/
theorem tracked_files_eq_held_refused :
    let old := (new {}).symbolFile "/apps/old.elf"
    let log : Log (interface Empty) :=
      [⟨.execute (addCommand old 0x1000), .ok ()⟩, ⟨.execute (removeCommand old), .ok ()⟩,
        ⟨.execute (addCommand ((new {}).symbolFile "/apps/new.elf") 0x1000),
          .error (.commandFailed "add-symbol-file")⟩]
    ∃ m, Run {} log m ∧ m.files = [] ∧ (m.files : Multiset String) = held log := by
  intro old log
  let m₁ : Modules :=
    { new {} with loaded := Dict.insert .empty 0x1000 ⟨"/apps/old.elf", 0x1000, old⟩ }
  let m₂ : Modules := { m₁ with loaded := m₁.loaded.erase 0x1000 }
  -- The second load removes the old file before its own one is refused.
  have hp₁ : Path ((new {}).load (H := Empty) "/apps/old.elf" 0x1000) [log[0]] (.ok (), m₁) :=
    .call (I := interface Empty) (c := .execute _) (.ok ()) (.done _)
  have hp₂ : Path (m₁.load (H := Empty) "/apps/new.elf" 0x1000) [log[1], log[2]]
      (.error (.commandFailed "add-symbol-file"), m₂) :=
    .call (I := interface Empty) (c := .execute _) (.ok ())
      (.call (I := interface Empty) (c := .execute _) (.error _) (.done _))
  have h : Run {} log m₂ := .call (.call .start (.load _ _ hp₁)) (.load _ _ hp₂)
  exact ⟨m₂, h, rfl, (tracked_files_eq_held h).1⟩

end KernelProbe.Automation.Modules
