import KernelProbe.Proofs.Automation.Arming

/-!
# What a stop leads to

A stop is answered by what its breakpoint is for, whatever fails on the way: at the gate and at the
hooks of modules the target goes on, and everywhere else it stays stopped.

* `Reading`: how the debugger is asked for the module that a hook is about. At most two values of
  a frame are read, and then at most 1024 units of a name;
* `Syncs`: what is done about a module, behind the reading: the hook is passed over with one line,
  or at most two commands are executed;
* `Performs`: what is done at a stop at a hook, by its kind and name;
* `stop_decided`: what a controller does at any stop, with any debugger.
-/

namespace KernelProbe.Automation

open Debugger Program

variable {H : Type}

/-! ## Modules -/

namespace Modules

variable {m m' : Modules} {log : Log (interface H)} {name : String} {base : UInt64}

/-- A name is read by at most as many reads as it may have units. -/
theorem length_of_readUnits {address : UInt64} {remaining : Nat} {units : List UInt16}
    {r : Except NameError String} (hp : Path (readUnits address remaining units) log r) :
    log.length ≤ remaining := by
  induction remaining generalizing units log with
  | zero =>
    obtain ⟨rfl, -⟩ := path_done.1 hp
    exact Nat.le_refl 0
  | succ remaining ih =>
    rw [readUnits] at hp
    split at hp
    · obtain ⟨rfl, -⟩ := path_done.1 hp
      exact Nat.zero_le _
    · obtain ⟨first, unit, second, h₁, h₂, rfl⟩ := path_bind.1 hp
      obtain ⟨reply, rfl, -⟩ := path_readWord16.1 h₁
      -- Behind the last unit, and behind one that cannot be read, there is no other read.
      have hs : second.length ≤ remaining := by
        cases unit with
        | error e =>
          obtain ⟨rfl, -⟩ := path_done.1 h₂
          exact Nat.zero_le _
        | ok u =>
          dsimp only at h₂
          split at h₂
          · split at h₂ <;> (obtain ⟨rfl, -⟩ := path_done.1 h₂; exact Nat.zero_le _)
          · exact ih h₂
      rw [List.length_append, List.length_singleton, Nat.add_comm]
      exact Nat.succ_le_succ hs

/-- The read of a unit of a name. -/
def IsUnitRead (r : Request H) : Prop :=
  ∃ place, r = .read .virtual place 2

/-- The reads of a name, at most as many as a name may have units. -/
structure ReadsName (log : Log (interface H)) : Prop where
  length : log.length ≤ 1024
  reads : ∀ e ∈ log, IsUnitRead e.call

theorem readsName_of_readUtf16 {address : UInt64} {r : Except NameError String}
    (hp : Path (readUtf16 address) log r) : ReadsName log :=
  ⟨length_of_readUnits hp, only_readUnits (P := IsUnitRead) (fun place => ⟨place, rfl⟩) _ _ _ hp⟩

/-- What is asked of the debugger to find the name and base of the module that a hook is about, and
    what comes of it. -/
inductive Reading (m : Modules) :
    Log (interface H) → Except SkipReason (String × UInt64) → Prop
  /-- The frame has no path. -/
  | noPath (e : Error) :
      Reading m [⟨.frameValue m.frame m.pathArgument, .error e⟩] (.error (.frame e))
  /-- The frame has no base. -/
  | noBase (path : UInt64) (e : Error) :
      Reading m [⟨.frameValue m.frame m.pathArgument, .ok path⟩,
        ⟨.frameValue m.frame m.baseArgument, .error e⟩] (.error (.frame e))
  /-- There is no name at the path. -/
  | noName {path base : UInt64} {units : Log (interface H)} {e : NameError} :
      Path (readUtf16 path) units (.error e) → ReadsName units →
      Reading m (⟨.frameValue m.frame m.pathArgument, .ok path⟩ ::
        ⟨.frameValue m.frame m.baseArgument, .ok base⟩ :: units) (.error (.name e))
  | read {path base : UInt64} {units : Log (interface H)} {name : String} :
      Path (readUtf16 path) units (.ok name) → ReadsName units →
      Reading m (⟨.frameValue m.frame m.pathArgument, .ok path⟩ ::
        ⟨.frameValue m.frame m.baseArgument, .ok base⟩ :: units) (.ok (name, base))

theorem reading_of_path {found : Except SkipReason (String × UInt64)}
    (hp : Path m.readModule log found) : Reading m log found := by
  obtain ⟨path, _, rfl, h₁⟩ := path_ask_bind.1 hp
  cases path with
  | error e =>
    obtain ⟨rfl, rfl⟩ := path_done.1 h₁
    exact .noPath e
  | ok path =>
    obtain ⟨base, _, rfl, h₂⟩ := path_ask_bind.1 h₁
    cases base with
    | error e =>
      obtain ⟨rfl, rfl⟩ := path_done.1 h₂
      exact .noBase path e
    | ok base =>
      obtain ⟨units, name, rest, hn, h₃, rfl⟩ := path_bind.1 h₂
      obtain rfl : rest = [] := by cases name <;> exact (path_done.1 h₃).1
      rw [List.append_nil]
      have hr := readsName_of_readUtf16 hn
      cases name with
      | error e =>
        obtain ⟨-, rfl⟩ := path_done.1 h₃
        exact .noName hn hr
      | ok name =>
        obtain ⟨-, rfl⟩ := path_done.1 h₃
        exact .read hn hr

/-- A command about a symbol file. -/
def IsFileCommand (r : Request H) : Prop :=
  ∃ file, r = .execute ("remove-symbol-file " ++ file) ∨ ∃ base : UInt64,
    r = .execute s!"add-symbol-file {file} -o {Text.hex base.toNat} -readnow"

/-- At most two commands about symbol files. -/
structure FewCommands (log : Log (interface H)) : Prop where
  length : log.length ≤ 2
  commands : ∀ e ∈ log, IsFileCommand e.call

/-- What is done about the module that a hook is about, with the line for a hook that is passed
    over. -/
inductive Syncs (m : Modules) (skipped : SkipReason → String) :
    Log (interface H) → Modules → Prop
  /-- The module could not be read, and nothing changes. -/
  | skips {reading : Log (interface H)} {reason : SkipReason} :
      Reading m reading (.error reason) →
      Syncs m skipped (reading ++ [⟨.print (skipped reason), ()⟩]) m
  | acts {reading commands : Log (interface H)} {found : String × UInt64} {m' : Modules} :
      Reading m reading (.ok found) → FewCommands commands →
      Syncs m skipped (reading ++ commands) m'

theorem fewCommands_of_load {result : Except Error Unit}
    (hp : Path (m.load name base) log (result, m')) : FewCommands log := by
  obtain ⟨first, ⟨dropped, m₁⟩, second, hd, hs, rfl⟩ := path_bind.1 hp
  have one {command : String} {answer : Except Error Unit}
      (h : IsFileCommand (H := H) (.execute command)) :
      ∀ e ∈ [(⟨.execute command, answer⟩ : Exchange (interface H))], IsFileCommand e.call :=
    List.forall_mem_singleton.2 h
  have h₁ : first.length ≤ 1 ∧ ∀ e ∈ first, IsFileCommand e.call := by
    rw [dropStale] at hd
    split at hd
    · obtain ⟨rfl, -⟩ := path_done.1 hd
      exact ⟨Nat.zero_le _, List.forall_mem_nil _⟩
    · obtain ⟨answer, rest, rfl, hq⟩ := path_ask_bind.1 hd
      obtain rfl : rest = [] := by cases answer <;> exact (path_done.1 hq).1
      exact ⟨Nat.le_refl 1, one ⟨_, .inl rfl⟩⟩
  have h₂ : second.length ≤ 1 ∧ ∀ e ∈ second, IsFileCommand e.call := by
    cases dropped with
    | error e =>
      obtain ⟨rfl, -⟩ := path_done.1 hs
      exact ⟨Nat.zero_le _, List.forall_mem_nil _⟩
    | ok _ =>
      obtain ⟨answer, rest, rfl, hq⟩ := path_ask_bind.1 hs
      obtain rfl : rest = [] := by cases answer <;> exact (path_done.1 hq).1
      exact ⟨Nat.le_refl 1, one ⟨_, .inr ⟨_, rfl⟩⟩⟩
  constructor
  · rw [List.length_append]
    exact Nat.add_le_add h₁.1 h₂.1
  · exact List.forall_mem_append.2 ⟨h₁.2, h₂.2⟩

theorem fewCommands_of_unload {result : Except Error Unit}
    (hp : Path (m.unload name base) log (result, m')) : FewCommands log := by
  rw [unload] at hp
  split at hp
  · obtain ⟨rfl, -⟩ := path_done.1 hp
    exact ⟨Nat.zero_le _, List.forall_mem_nil _⟩
  · split at hp
    · obtain ⟨answer, rest, rfl, hq⟩ := path_ask_bind.1 hp
      obtain rfl : rest = [] := by cases answer <;> exact (path_done.1 hq).1
      exact ⟨Nat.le_succ 1, List.forall_mem_singleton.2 ⟨_, .inl rfl⟩⟩
    · obtain ⟨rfl, -⟩ := path_done.1 hp
      exact ⟨Nat.zero_le _, List.forall_mem_nil _⟩

/-- A hook that acts on the module that it reads lets the target go on. -/
theorem syncs_of_path {skipped : SkipReason → String}
    {act : String → UInt64 → Script H (Except Error Unit × Modules)} {decision : Decision}
    (hact : ∀ {name base log result m'}, Path (act name base) log (result, m') → FewCommands log)
    (hp : Path (.bind m.readModule fun
      | .error reason => .bind (print (skipped reason)) fun _ => .done (.resume, m)
      | .ok (name, base) => .bind (act name base) fun (_, m) => .done (.resume, m))
      log (decision, m')) :
    decision = .resume ∧ Syncs m skipped log m' := by
  obtain ⟨reading, found, second, hr, hs, rfl⟩ := path_bind.1 hp
  have hr := reading_of_path hr
  cases found with
  | error reason =>
    obtain ⟨_, rest, rfl, hq⟩ := path_ask_bind.1 hs
    obtain ⟨rfl, ⟨⟩⟩ := path_done.1 hq
    exact ⟨rfl, .skips hr⟩
  | ok found =>
    obtain ⟨⟨result, m₁⟩, ha, ⟨⟩⟩ := path_bind_done.1 hs
    exact ⟨rfl, .acts hr (hact ha)⟩

end Modules

/-! ## Stops -/

namespace Controller

/-- What is done at a stop at a hook, by its kind and name. -/
inductive Performs (c : Controller) (name : String) :
    HookKind → Log (interface H) → Decision × Controller → Prop
  | genericStop : Performs c name .genericStop [⟨.print s!"{name} hit", ()⟩] (.stop, c)
  /-- The stack is dumped even where the state of the hooks cannot be shown. -/
  | faultVerbose (shown dumped : Except Error Unit) :
      Performs c name .faultVerbose [⟨.print s!"Top of stack for {name}:", ()⟩,
        ⟨.execute c.config.hookStateCommand, shown⟩,
        ⟨.execute c.config.stackDumpCommand, dumped⟩] (.stop, c)
  | faultSilent (dumped : Except Error Unit) :
      Performs c name .faultSilent [⟨.print s!"Top of stack for {name}:", ()⟩,
        ⟨.execute c.config.stackDumpCommand, dumped⟩] (.stop, c)
  | moduleLoad {log : Log (interface H)} {modules : Modules} :
      c.modules.Syncs (fun reason => s!"Module load skipped: {reason.message}") log modules →
      Performs c name .moduleLoad log (.resume, { c with modules })
  | moduleUnload {log : Log (interface H)} {modules : Modules} :
      c.modules.Syncs (fun reason => s!"Module unload skipped: {reason.message}") log modules →
      Performs c name .moduleUnload log (.resume, { c with modules })

/-- A hook at which the target goes on. -/
def LetsGoOn (kind : HookKind) : Prop :=
  kind = .moduleLoad ∨ kind = .moduleUnload

variable {c c' : Controller} {command : H} {id : HookId} {log : Log (interface H)}
  {decision : Decision} {config : Config} {h : Hook}

/-- The kind of a hook decides whether the target goes on. -/
theorem Performs.resume_iff {kind : HookKind} {name : String}
    (hp : Performs c name kind log (decision, c')) : decision = .resume ↔ LetsGoOn kind := by
  cases hp <;> simp [LetsGoOn]

theorem performs_of_path (hid : id ≠ c.entryGate) (hh : c.hooks.get? id = some h)
    (hp : Path (c.onStop command id) log (decision, c')) :
    Performs c h.name h.kind log (decision, c') := by
  obtain ⟨number, name, address, kind⟩ := h
  simp only [onStop, if_neg hid, hh] at hp
  cases kind with
  | genericStop =>
    obtain ⟨_, _, rfl, hq⟩ := path_ask_bind.1 hp
    obtain ⟨rfl, ⟨⟩⟩ := path_done.1 hq
    exact .genericStop
  | faultVerbose =>
    obtain ⟨_, hq, ⟨⟩⟩ := path_bind_done.1 hp
    obtain ⟨_, _, rfl, h₁⟩ := path_ask_bind.1 hq
    obtain ⟨shown, _, rfl, h₂⟩ := path_ask_bind.1 h₁
    obtain ⟨dumped, _, rfl, h₃⟩ := path_ask_bind.1 h₂
    obtain ⟨rfl, rfl⟩ := path_done.1 h₃
    exact .faultVerbose shown dumped
  | faultSilent =>
    obtain ⟨_, hq, ⟨⟩⟩ := path_bind_done.1 hp
    obtain ⟨_, _, rfl, h₁⟩ := path_ask_bind.1 hq
    obtain ⟨dumped, _, rfl, h₂⟩ := path_ask_bind.1 h₁
    obtain ⟨rfl, rfl⟩ := path_done.1 h₂
    exact .faultSilent dumped
  | moduleLoad =>
    obtain ⟨⟨_, _⟩, hq, ⟨⟩⟩ := path_bind_done.1 hp
    obtain ⟨rfl, hs⟩ := Modules.syncs_of_path (fun h => Modules.fewCommands_of_load h) hq
    exact .moduleLoad hs
  | moduleUnload =>
    obtain ⟨⟨_, _⟩, hq, ⟨⟩⟩ := path_bind_done.1 hp
    obtain ⟨rfl, hs⟩ := Modules.syncs_of_path (fun h => Modules.fewCommands_of_unload h) hq
    exact .moduleUnload hs

/-- At a breakpoint without a hook, nothing is done. -/
theorem path_onStop_of_none (hid : id ≠ c.entryGate) (hh : c.hooks.get? id = none) :
    Path (c.onStop command id) log (decision, c') ↔ log = [] ∧ decision = .stop ∧ c' = c := by
  rw [onStop, if_neg hid, hh]
  exact path_done.trans (and_congr_right' Prod.mk_inj)

theorem decision_of_onEntry (hp : Path (c.onEntry command) log (decision, c')) :
    decision = .resume := by
  by_cases hc : c.state = .unarmed
  · obtain ⟨_, _, _, -, -, hd, -⟩ := path_onEntry hc hp
    exact hd
  · rw [onEntry, if_neg hc] at hp
    obtain ⟨-, ⟨⟩⟩ := path_done.1 hp
    rfl

/-! ## Reachable controllers -/

/-- The controllers that were installed, and called for stops at any breakpoints, whatever the
    debugger answered. -/
inductive Reachable (config : Config) (command : H) : Controller → Prop
  | install {log : Log (interface H)} {c : Controller} :
      Path (install config) log (.ok c) → Reachable config command c
  | stop {id : HookId} {log : Log (interface H)} {decision : Decision} {c c' : Controller} :
      Reachable config command c → Path (c.onStop command id) log (decision, c') →
      Reachable config command c'

/-- Setting hooks takes no breakpoint out of the table. -/
theorem get?_foldl_insert_ne_none {hooks : List Hook} {t : HookTable}
    (ht : t.get? id ≠ none) : (hooks.foldl HookTable.insert t).get? id ≠ none := by
  induction hooks generalizing t with
  | nil => exact ht
  | cons h hooks ih =>
    refine ih ?_
    rw [HookTable.get?, HookTable.insert, Dict.find?_insert]
    split
    · exact Option.some_ne_none _
    · exact ht

/-- The gate of a reachable controller is in its table. -/
theorem Reachable.gate_mem (hc : Reachable config command c) :
    c.hooks.get? c.entryGate ≠ none := by
  induction hc with
  | install hp =>
    obtain ⟨gate, -, -, -, hs⟩ := stands_of_install hp
    rw [HookTable.get?, Ne, Dict.find?_eq_none_iff, hs.gate, hs.hooks]
    simp
  | @stop id log decision c c' _ hp ih =>
    by_cases hid : id = c.entryGate
    · rw [onStop, if_pos hid] at hp
      by_cases hc : c.state = .unarmed
      · obtain ⟨_, _, _, -, -, -, rfl⟩ := path_onEntry hc hp
        exact get?_foldl_insert_ne_none ih
      · rw [onEntry, if_neg hc] at hp
        obtain ⟨-, ⟨⟩⟩ := path_done.1 hp
        exact ih
    · obtain ⟨⟨_, rfl⟩, -⟩ := path_onStop_of_ne hid hp
      exact ih

end Controller

open Controller

variable {c : Controller} {command : H} {config : Config}

/-- A reachable controller answers every stop, with every debugger and whatever fails: the target
    goes on exactly at the gate and at the hooks of modules. At a breakpoint without a hook nothing
    is done, and at a hook elsewhere than at the gate what its kind and name say. -/
theorem stop_decided {σ : Type} (answer : (r : Request H) → σ → r.Answer × σ) (s : σ)
    (hc : Reachable config command c) (id : HookId) :
    ∃ decision c', (run answer (c.onStop command id) s).1 = (decision, c') ∧
      (decision = .resume ↔
        id = c.entryGate ∨ ∃ h, c.hooks.get? id = some h ∧ LetsGoOn h.kind) ∧
      (c.hooks.get? id = none → trace answer (c.onStop command id) s = [] ∧ c' = c) ∧
      ∀ h, id ≠ c.entryGate → c.hooks.get? id = some h →
        c.Performs h.name h.kind (trace answer (c.onStop command id) s) (decision, c') := by
  have hp := path_run answer (c.onStop command id) s
  obtain ⟨⟨decision, c'⟩, hr⟩ : ∃ r, (run answer (c.onStop command id) s).1 = r := ⟨_, rfl⟩
  rw [hr] at hp
  refine ⟨decision, c', hr, ?_⟩
  by_cases hid : id = c.entryGate
  · have hd : decision = .resume := by
      rw [onStop, if_pos hid] at hp
      exact decision_of_onEntry hp
    exact ⟨by simp [hd, hid], fun hn => absurd (hid ▸ hn) hc.gate_mem, fun _ hne => absurd hid hne⟩
  · cases hh : c.hooks.get? id with
    | none =>
      obtain ⟨hlog, rfl, rfl⟩ := (path_onStop_of_none hid hh).1 hp
      exact ⟨by simp [hid], fun _ => ⟨hlog, rfl⟩, by simp⟩
    | some h =>
      have hd := performs_of_path hid hh hp
      refine ⟨by simp [hid, hd.resume_iff], by simp, ?_⟩
      rintro _ - ⟨⟩
      exact hd

/-- A debugger that refuses every call. -/
def refuse : (r : Request H) → Unit → r.Answer × Unit
  | .read .., s => (.error (.connection "lost"), s)
  | .evaluate _, s => (.error (.connection "lost"), s)
  | .execute _, s => (.error (.connection "lost"), s)
  | .setBreakpoint _, s => (.error (.connection "lost"), s)
  | .register .., s => (.error (.connection "lost"), s)
  | .frameValue .., s => (.error (.connection "lost"), s)
  | .print _, s => ((), s)

/-- Two hooks with a debugger that is lost behind the gate: the fault leaves the target stopped, with
    both commands attempted, and the module lets it go on. -/
theorem stop_decided_lost :
    let config : Config :=
      { preamble := [], hooks := [⟨"Fault", .faultVerbose⟩, ⟨"Load", .moduleLoad⟩] }
    ∃ c, Reachable config translateAddress c ∧
      (∃ c', (run refuse (c.onStop translateAddress 2) ()).1 = (.stop, c') ∧
        (trace refuse (c.onStop translateAddress 2) ()).length = 3) ∧
      ∃ c', (run refuse (c.onStop translateAddress 3) ()).1 = (.resume, c') := by
  intro config
  let gate : Hook := ⟨1, "OnKernelMainHook", 0x1000, .genericStop⟩
  let fault : Hook := ⟨2, "Fault", 0x2000, .faultVerbose⟩
  let load : Hook := ⟨3, "Load", 0x3000, .moduleLoad⟩
  let attempts : List Attempt :=
    [⟨⟨"Fault", .faultVerbose⟩, .set 0x2000 2⟩, ⟨⟨"Load", .moduleLoad⟩, .set 0x3000 3⟩]
  let installed : Controller :=
    { config, state := .unarmed, entryGate := 1, hooks := HookTable.empty.insert gate
      modules := .new config, attached := false }
  let armed : Controller :=
    { installed with
      state := .armed, attached := true, hooks := (installed.hooks.insert fault).insert load }
  have hi : Path (install (H := Handler) config) (installLog config gate) (.ok installed) :=
    .call _ (.call _ (.done _))
  have ha : Path (installed.onStop translateAddress 1)
      (armingLog config translateAddress (.ok 1) attempts (.ok ())) (.resume, armed) :=
    .call _ (.call _ (.call _ (.call _ (.call _ (.call _ (.call _ (.done _)))))))
  have hc : Reachable config translateAddress armed := .stop (.install hi) ha
  refine ⟨armed, hc, ?_, ?_⟩
  · obtain ⟨decision, c', hr, hd, -, hp⟩ := stop_decided refuse () hc 2
    have hp := hp fault (by decide) rfl
    obtain rfl : decision = .stop := by
      cases decision with
      | stop => rfl
      | resume => exact absurd (hp.resume_iff.1 rfl) (by simp [LetsGoOn, fault])
    exact ⟨c', hr, rfl⟩
  · obtain ⟨decision, c', hr, hd, -⟩ := stop_decided refuse () hc 3
    obtain rfl : decision = .resume := hd.2 (.inr ⟨load, rfl, .inl rfl⟩)
    exact ⟨c', hr⟩

end KernelProbe.Automation
