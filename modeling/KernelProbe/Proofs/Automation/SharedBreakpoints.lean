import KernelProbe.Proofs.Automation.Decisions
import KernelProbe.Proofs.Target.Breakpoints

/-!
# Hooks that share a breakpoint

At a simulated target each address has one breakpoint, and a hook table has one hook for each
breakpoint. So of several hooks that are asked for at one address, by one name or by names of
functions that share their code, only one is kept.

* `Placed`: a table and a target go together, each hook being at the breakpoint of its symbol's
  address. Setting a hook keeps it so, and replaces what its own address had
  (`Placed.run_install`); setting all hooks leaves at each address the last one asked for there
  (`Placed.run_installHooks`);
* `InForce`: a hook that was asked for is found by its name, and a stop at its symbol's address
  leads to what its kind says;
* `inForce_iff`: which hooks are in force behind the first stop at the gate. Those that are not
  were dropped by later ones, or are at the gate (`not_all_inForce`).
-/

namespace KernelProbe.Automation

open Debugger Target Program

/-! ## Tables and targets -/

/-- A hook as it was asked for. -/
def Hook.spec (h : Hook) : HookSpec := ⟨h.name, h.kind⟩

/-- The hook at an address of a target. -/
def HookTable.at? (table : HookTable) (t : Simulated) (address : UInt64) : Option Hook :=
  (t.hookAt? address).bind table.get?

/-- The last one of the hooks asked for at an address. -/
def lastAt (symbols : Dict String UInt64) (specs : List HookSpec) (address : UInt64) :
    Option HookSpec :=
  specs.reverse.find? fun spec => placeOf symbols spec.name = some address

variable {symbols : Dict String UInt64} {table : HookTable} {t t' : Simulated} {name : String}
  {kind : HookKind} {address other : UInt64} {id : HookId}

/-- Every hook of a table is at the breakpoint of a target that its symbol's address has. -/
structure Placed (symbols : Dict String UInt64) (table : HookTable) (t : Simulated) : Prop where
  numbered : t.Numbered
  known : t.names.symbols = symbols
  distinct : table.hooks.Distinct
  breakpoint : ∀ {id h}, table.get? id = some h → t.hookAt? h.address = some id
  place : ∀ {id h}, table.get? id = some h → '=' ∉ h.name.toList →
    placeOf symbols h.name = some h.address

namespace Placed

/-- Only the breakpoints and the symbols of the target count. -/
theorem congr (hp : Placed symbols table t) (hb : t'.breakpoints = t.breakpoints)
    (hn : t'.nextHook = t.nextHook) (hs : t'.names.symbols = t.names.symbols) :
    Placed symbols table t' := by
  have hh (a : UInt64) : t'.hookAt? a = t.hookAt? a := by rw [Simulated.hookAt?, hb]; rfl
  refine ⟨⟨?_, ?_, ?_⟩, hs.trans hp.known, hp.distinct, ?_, hp.place⟩
  · rw [hb]
    exact hp.numbered.ids
  · rw [hb]
    exact hp.numbered.addresses
  · rw [hb, hn]
    exact hp.numbered.below
  · intro id h hg
    rw [hh]
    exact hp.breakpoint hg

theorem hookAt?_eq (hp : Placed symbols table t) (hs : t.setBreakpoint address = (id, t')) :
    t'.hookAt? other = if address = other then some id else t.hookAt? other := by
  have hb := hp.numbered.hookAt?_setBreakpoint address other
  rwa [hs] at hb

theorem numbered_of_setBreakpoint (hp : Placed symbols table t) (hr : t.Room 1)
    (hs : t.setBreakpoint address = (id, t')) : t'.Numbered := by
  have hn := hp.numbered.setBreakpoint hr address
  rwa [hs] at hn

/-- A hook that is set takes the place of the one at its address. -/
theorem at?_insert (hp : Placed symbols table t) (hr : t.Room 1)
    (hs : t.setBreakpoint address = (id, t')) :
    (table.insert ⟨id, name, address, kind⟩).at? t' other =
      if address = other then some ⟨id, name, address, kind⟩ else table.at? t other := by
  rw [HookTable.at?, hp.hookAt?_eq hs]
  split
  · rw [Option.bind_some, HookTable.get?, HookTable.insert, Dict.find?_insert, if_pos rfl]
  · next hne =>
    rw [HookTable.at?]
    cases ho : t.hookAt? other with
    | none => rfl
    | some id' =>
      -- The other address has another number.
      have hid : id ≠ id' := by
        rintro rfl
        have ha : t'.hookAt? address = some id := by rw [hp.hookAt?_eq hs, if_pos rfl]
        have ho' : t'.hookAt? other = some id := by rw [hp.hookAt?_eq hs, if_neg hne, ho]
        exact hne ((hp.numbered_of_setBreakpoint hr hs).eq_of_hookAt? ha ho')
      rw [Option.bind_some, Option.bind_some, HookTable.get?, HookTable.insert, Dict.find?_insert,
        if_neg hid, HookTable.get?]

theorem insert (hp : Placed symbols table t) (hr : t.Room 1)
    (hs : t.setBreakpoint address = (id, t'))
    (hplace : '=' ∉ name.toList → placeOf symbols name = some address) :
    Placed symbols (table.insert ⟨id, name, address, kind⟩) t' := by
  have hg {id' : HookId} {h : Hook}
      (hh : (table.insert ⟨id, name, address, kind⟩).get? id' = some h) :
      (h = ⟨id, name, address, kind⟩ ∧ id = id') ∨ (table.get? id' = some h ∧ id ≠ id') := by
    rw [HookTable.get?, HookTable.insert, Dict.find?_insert] at hh
    split at hh
    · next he => exact .inl ⟨(Option.some.inj hh).symm, he⟩
    · next he => exact .inr ⟨hh, he⟩
  have hnames : t'.names = t.names := by
    rw [← t.names_setBreakpoint address, hs]
  refine ⟨hp.numbered_of_setBreakpoint hr hs, by rw [hnames, hp.known], hp.distinct.insert _ _,
    ?_, ?_⟩
  · intro id' h hh
    rw [hp.hookAt?_eq hs]
    rcases hg hh with ⟨rfl, rfl⟩ | ⟨hold, hne⟩
    · exact if_pos rfl
    · have hb := hp.breakpoint hold
      rw [if_neg, hb]
      rintro rfl
      rw [Simulated.setBreakpoint_of_some hb] at hs
      exact hne (congrArg Prod.fst hs).symm
  · intro id' h hh
    rcases hg hh with ⟨rfl, -⟩ | ⟨hold, -⟩
    · exact hplace
    · exact hp.place hold

end Placed

/-! ## Setting hooks at a target -/

theorem HookTable.run_install_of_error {names : Names} {e : Error}
    (he : t.names.evaluate ("&" ++ name) = (.error e, names)) :
    t.run (table.install name kind) = ((.error e, table), { t with names }) := by
  simp only [Simulated.run, install, resolveSymbol, evaluate, setBreakpoint, bind_eq, Program.ask,
    call_bind, done_bind, Program.run, Simulated.answer, he, pure_eq]

theorem HookTable.run_install_of_ok {names : Names}
    (he : t.names.evaluate ("&" ++ name) = (.ok address, names))
    (hs : Simulated.setBreakpoint { t with names } address = (id, t')) :
    t.run (table.install name kind) = ((.ok id, table.insert ⟨id, name, address, kind⟩), t') := by
  simp only [Simulated.run, install, resolveSymbol, evaluate, setBreakpoint, bind_eq, Program.ask,
    call_bind, done_bind, Program.run, Simulated.answer, he, hs, pure_eq]

/-- What is asked for at an address is the last hook asked for there. -/
theorem lastAt_cons {spec : HookSpec} {specs : List HookSpec} :
    lastAt symbols (spec :: specs) address =
      (lastAt symbols specs address).or
        (if placeOf symbols spec.name = some address then some spec else none) := by
  rw [lastAt, lastAt, List.reverse_cons, List.find?_append, List.find?_singleton]
  simp

/-- Setting one hook keeps hooks at their breakpoints. What its symbol's address had is replaced,
    and what other addresses have is not. -/
theorem Placed.run_install {n : Nat} {result : Except Error HookId} {table' : HookTable}
    (hp : Placed symbols table t) (hr : t.Room (n + 1))
    (hrun : t.run (table.install name kind) = ((result, table'), t')) :
    Placed symbols table' t' ∧ t'.Room n ∧ ('=' ∉ name.toList → ∀ other,
      (table'.at? t' other).map Hook.spec =
        if placeOf symbols name = some other then some ⟨name, kind⟩
        else (table.at? t other).map Hook.spec) := by
  rcases he : t.names.evaluate ("&" ++ name) with ⟨value, names⟩
  have hnames : names.symbols = t.names.symbols := by
    rw [← t.names.symbols_evaluate ("&" ++ name), he]
  have hp₁ : Placed symbols table { t with names } := hp.congr rfl rfl hnames
  have hplace (h : '=' ∉ name.toList) : placeOf symbols name = value.toOption := by
    rw [Names.evaluate_symbol h, hp.known] at he
    obtain rfl := congrArg Prod.fst he
    cases placeOf symbols name <;> rfl
  cases value with
  | error e =>
    rw [HookTable.run_install_of_error he] at hrun
    cases hrun
    refine ⟨hp₁, hr.mono (Nat.le_succ n), fun h other => ?_⟩
    rw [hplace h, if_neg (by simp [Except.toOption])]
    rfl
  | ok address =>
    rcases hs : Simulated.setBreakpoint { t with names } address with ⟨id, t₂⟩
    have hr₁ : Simulated.Room { t with names } (n + 1) := hr
    have hr₂ := hr₁.setBreakpoint address
    have hone : Simulated.Room { t with names } 1 := hr₁.mono (Nat.le_add_left 1 n)
    rw [HookTable.run_install_of_ok he hs] at hrun
    cases hrun
    rw [hs] at hr₂
    refine ⟨hp₁.insert hone hs hplace, hr₂, fun h other => ?_⟩
    rw [hplace h, hp₁.at?_insert hone hs, apply_ite (Option.map Hook.spec)]
    simp only [Except.toOption, Option.some.injEq]
    rfl

/-- Setting hooks leaves at each address the last of them that was asked for there, or else what
    was there before. -/
theorem Placed.run_installHooks {specs : List HookSpec} {table' : HookTable}
    (hp : Placed symbols table t) (hr : t.Room specs.length)
    (hnames : ∀ spec ∈ specs, '=' ∉ spec.name.toList)
    (hrun : t.run (Controller.installHooks specs table) = (table', t')) :
    Placed symbols table' t' ∧ ∀ address, (table'.at? t' address).map Hook.spec =
      (lastAt symbols specs address).or ((table.at? t address).map Hook.spec) := by
  induction specs generalizing table t with
  | nil =>
    cases hrun
    exact ⟨hp, fun _ => rfl⟩
  | cons spec specs ih =>
    rw [List.forall_mem_cons] at hnames
    rcases h₁ : t.run (table.install spec.name spec.kind) with ⟨⟨result, table₁⟩, t₁⟩
    obtain ⟨hp₁, hr₁, hat⟩ := hp.run_install hr h₁
    have hrest : t₁.run (Controller.installHooks specs table₁) = (table', t') := by
      rw [← hrun, Controller.installHooks, bind_eq, Simulated.run_bind, h₁]
    obtain ⟨hp₂, hlast⟩ := ih hp₁ hr₁ hnames.2 hrest
    refine ⟨hp₂, fun address => ?_⟩
    rw [hlast, hat hnames.1, lastAt_cons, Option.or_assoc]
    split <;> rfl

/-- Executing commands only adds to the history. -/
theorem run_executeAll (commands : List String) (t : Simulated) :
    ∃ executed, (t.run (executeAll commands)).2 = { t with executed } := by
  induction commands generalizing t with
  | nil => exact ⟨t.executed, rfl⟩
  | cons command commands ih =>
    rw [executeAll, bind_eq, Simulated.run_bind]
    by_cases hc : t.refuses command
    · have he : t.run (execute command) = (.error (.commandFailed command), t) := by
        simp only [Simulated.run, execute, Program.ask, Program.run, Simulated.answer, if_pos hc]
      rw [he]
      exact ⟨t.executed, rfl⟩
    · have he : t.run (execute command) =
          (.ok (), { t with executed := t.executed ++ [command] }) := by
        simp only [Simulated.run, execute, Program.ask, Program.run, Simulated.answer, if_neg hc]
      rw [he]
      exact ih { t with executed := t.executed ++ [command] }

variable {config : Config} {c c' c₂ : Controller} {command : Handler} {t₁ t₂ : Simulated}

/-- An installed controller has the hook of the gate alone, at its breakpoint. -/
theorem placed_of_install {n : Nat} (ht : t.Numbered) (hr : t.Room (n + 1))
    (hi : t.run (Controller.install config) = (.ok c, t₁)) :
    c.config = config ∧ c.state = .unarmed ∧ Placed t.names.symbols c.hooks t₁ ∧ t₁.Room n := by
  rw [Controller.install, bind_eq, Simulated.run_bind] at hi
  rcases h₀ : t.run (executeAll config.preamble) with ⟨prepared, t₀⟩
  rw [h₀] at hi
  obtain ⟨executed, he⟩ := run_executeAll config.preamble t
  obtain rfl : t₀ = { t with executed } := by rw [← he, h₀]
  cases prepared with
  | error e => cases hi
  | ok _ =>
    simp only [bind_eq, Simulated.run_bind] at hi
    rcases h₂ : Simulated.run { t with executed }
      (HookTable.empty.install config.entryHook .genericStop) with ⟨⟨result, hooks⟩, t₂⟩
    rw [h₂] at hi
    have hempty : Placed t.names.symbols .empty { t with executed } :=
      ⟨⟨ht.ids, ht.addresses, ht.below⟩, rfl, Dict.distinct_empty, nofun, nofun⟩
    have hr₀ : Simulated.Room { t with executed } (n + 1) := hr
    obtain ⟨hp, hr₁, -⟩ := hempty.run_install hr₀ h₂
    cases result with
    | error e => cases hi
    | ok gate =>
      cases hi
      exact ⟨rfl, rfl, hp, hr₁⟩

/-- The stop that arms leaves at each address the last hook asked for there, or else what was there
    before. -/
theorem placed_of_arming {decision : Decision} (hc : c.state = .unarmed)
    (hnames : ∀ spec ∈ c.config.hooks, '=' ∉ spec.name.toList)
    (hp : Placed symbols c.hooks t₁) (hr : t₁.Room c.config.hooks.length)
    (hs : t₁.run (c.onStop command c.entryGate) = ((decision, c₂), t₂)) :
    c₂.entryGate = c.entryGate ∧ c₂.state = .armed ∧ Placed symbols c₂.hooks t₂ ∧
      ∀ address, (c₂.hooks.at? t₂ address).map Hook.spec =
        (lastAt symbols c.config.hooks address).or ((c.hooks.at? t₁ address).map Hook.spec) := by
  rw [Controller.onStop, if_pos rfl, Controller.onEntry, if_pos hc] at hs
  simp only [bind_eq, Simulated.run_bind] at hs
  -- What comes before the hooks prints and evaluates, and what comes behind registers.
  let t₀ := ((t₁.run (print "Debugger attached")).2.run
    (evaluate (c.config.attachedFlag ++ " = true"))).2
  have hp₀ : Placed symbols c.hooks t₀ := hp.congr rfl rfl (t₁.names.symbols_evaluate _)
  rcases hi : t₀.run (Controller.installHooks c.config.hooks c.hooks) with ⟨hooks, t'⟩
  obtain ⟨hp', hat⟩ := hp₀.run_installHooks hr hnames hi
  rw [hi] at hs
  cases hs
  exact ⟨rfl, rfl, hp'.congr rfl rfl rfl, hat⟩

/-! ## Stops at hooks -/

namespace Modules

variable {m m' : Modules} {H : Type}

/-- Where the frame has no path, a hook is passed over with one line. -/
theorem line_of_syncs {skipped : SkipReason → String} {e : Error} {line : String}
    (hs : m.Syncs (H := H) skipped
      [⟨.frameValue m.frame m.pathArgument, .error e⟩, ⟨.print line, ()⟩] m') :
    line = skipped (.frame e) := by
  generalize hlog : [(⟨.frameValue m.frame m.pathArgument, .error e⟩ : Exchange (interface H)),
    ⟨.print line, ()⟩] = log at hs
  cases hs with
  | @skips reading reason hr =>
    cases hr with
    | noPath e' =>
      simp at hlog
      rw [hlog.1, hlog.2]
    | noBase path e' => simp at hlog
    | noName => simp at hlog
  | acts hr _ =>
    cases hr
    simp at hlog

end Modules

namespace Controller

variable {H : Type} {c c' : Controller}

/-- Something is done at every hook. -/
theorem Performs.log_ne_nil {log : Log (interface H)} {r : Decision × Controller}
    (hp : Performs c name kind log r) : log ≠ [] := by
  have hne {reading more : Log (interface H)} {found : Except SkipReason (String × UInt64)}
      (hr : c.modules.Reading reading found) : reading ++ more ≠ [] := by
    cases hr <;> exact List.cons_ne_nil _ _
  cases hp with
  | genericStop => exact List.cons_ne_nil _ _
  | faultVerbose => exact List.cons_ne_nil _ _
  | faultSilent => exact List.cons_ne_nil _ _
  | moduleLoad hs => cases hs with
    | skips hr => exact hne hr
    | acts hr _ => exact hne hr
  | moduleUnload hs => cases hs with
    | skips hr => exact hne hr
    | acts hr _ => exact hne hr

/-- The number of calls at a hook where the target stays stopped. -/
def stopCalls : HookKind → Nat
  | .genericStop => 1
  | .faultSilent => 2
  | .faultVerbose => 3
  | .moduleLoad | .moduleUnload => 0

theorem Performs.length_of_stop {log : Log (interface H)}
    (hp : Performs c name kind log (.stop, c')) : log.length = stopCalls kind := by
  cases hp <;> rfl

/-- Where the frame has no path, the line that is printed tells a load from an unload. -/
theorem Performs.not_load_and_unload {e : Error} {line name' : String}
    {r r' : Decision × Controller}
    (h₁ : Performs (H := H) c name .moduleLoad
      [⟨.frameValue c.modules.frame c.modules.pathArgument, .error e⟩, ⟨.print line, ()⟩] r)
    (h₂ : Performs (H := H) c name' .moduleUnload
      [⟨.frameValue c.modules.frame c.modules.pathArgument, .error e⟩, ⟨.print line, ()⟩] r') :
    False := by
  cases h₁ with
  | moduleLoad hs₁ =>
    cases h₂ with
    | moduleUnload hs₂ =>
      have hl := (Modules.line_of_syncs hs₁).symm.trans (Modules.line_of_syncs hs₂)
      simp [toString] at hl

/-- What is done at a hook tells its kind. -/
theorem kind_eq_of_performs {command : H} {h : Hook} (hid : id ≠ c.entryGate)
    (hh : c.hooks.get? id = some h)
    (hp : ∀ log decision c', Path (c.onStop command id) log (decision, c') →
      c.Performs name kind log (decision, c')) : h.kind = kind := by
  have hr := path_run refuse (c.onStop command id) ()
  have h₁ := performs_of_path hid hh hr
  have h₂ := hp _ _ _ hr
  cases hd : (run refuse (c.onStop command id) ()).1.1 with
  | stop =>
    rw [hd] at h₁ h₂
    have hl := h₁.length_of_stop.symm.trans h₂.length_of_stop
    have hk₁ := h₁.resume_iff
    have hk₂ := h₂.resume_iff
    revert hl hk₁ hk₂
    cases h.kind <;> cases kind <;> simp [stopCalls, LetsGoOn]
  | resume =>
    have hk₁ := h₁.resume_iff.1 hd
    have hk₂ := h₂.resume_iff.1 hd
    obtain ⟨line, hlog⟩ : ∃ line, trace refuse (c.onStop command id) () =
        [⟨.frameValue c.modules.frame c.modules.pathArgument, .error (.connection "lost")⟩,
          ⟨.print line, ()⟩] := by
      simp only [onStop, if_neg hid, hh]
      rcases hk₁ with hk | hk <;> rw [hk] <;> exact ⟨_, rfl⟩
    rw [hlog] at h₁ h₂
    rcases hk₁ with hk | hk <;> rcases hk₂ with rfl | rfl
    · exact hk
    · exact (Performs.not_load_and_unload (hk ▸ h₁) h₂).elim
    · exact (Performs.not_load_and_unload h₂ (hk ▸ h₁)).elim
    · exact hk

/-- What becomes of a controller by stops at any breakpoints, whatever the debugger answers. -/
inductive Later (command : H) (c : Controller) : Controller → Prop
  | refl : Later command c c
  | stop {id : HookId} {log : Log (interface H)} {decision : Decision} {c₁ c₂ : Controller} :
      Later command c c₁ → Path (c₁.onStop command id) log (decision, c₂) → Later command c c₂

/-- At the gate of an armed controller nothing is done. -/
theorem path_onStop_of_armed {command : H} {log : Log (interface H)} {decision : Decision}
    (hs : c.state = .armed) :
    Path (c.onStop command c.entryGate) log (decision, c') ↔
      log = [] ∧ decision = .resume ∧ c' = c := by
  rw [onStop, if_pos rfl, onEntry, if_neg (by simp [hs])]
  exact path_done.trans (and_congr_right' Prod.mk_inj)

/-- Further stops leave an armed controller armed, with the same hooks. -/
theorem Later.hooks_eq {command : H} (hl : Later command c c') (hs : c.state = .armed) :
    c'.hooks = c.hooks ∧ c'.entryGate = c.entryGate ∧ c'.state = .armed := by
  induction hl with
  | refl => exact ⟨rfl, rfl, hs⟩
  | @stop id log decision c₁ c₂ _ hp ih =>
    by_cases hid : id = c₁.entryGate
    · subst hid
      obtain ⟨-, -, rfl⟩ := (path_onStop_of_armed ih.2.2).1 hp
      exact ih
    · obtain ⟨⟨_, rfl⟩, -⟩ := path_onStop_of_ne hid hp
      exact ih

end Controller

open Controller

/-- A hook that was asked for is in force: it is found by its name, and a stop at the breakpoint of
    its address leads to what its name and kind say, whatever the debugger answers. -/
structure InForce (command : Handler) (c : Controller) (t : Simulated) (spec : HookSpec)
    (address : UInt64) : Prop where
  found : ∃ h, c.hooks.find? spec.name = some h ∧ h.address = address
  acts : ∃ id, t.hookAt? address = some id ∧
    ∀ log decision c', Path (c.onStop command id) log (decision, c') →
      c.Performs spec.name spec.kind log (decision, c')

namespace Placed

/-- The hook at an address, in terms of the table. -/
theorem get?_of_at? {h : Hook} (hp : Placed symbols table t) (hh : table.at? t address = some h) :
    ∃ id, t.hookAt? address = some id ∧ table.get? id = some h ∧ h.address = address := by
  obtain ⟨id, hid, hg⟩ := Option.bind_eq_some_iff.1 hh
  exact ⟨id, hid, hg, hp.numbered.eq_of_hookAt? (hp.breakpoint hg) hid⟩

/-- A name finds the hook at its symbol's address, where that one has the name, and else none. -/
theorem find?_eq {h : Hook} (hp : Placed symbols table t) (hname : '=' ∉ name.toList)
    (hplace : placeOf symbols name = some address) (hh : table.at? t address = some h) :
    table.find? name = if h.name = name then some h else none := by
  obtain ⟨id, hid, hg, -⟩ := hp.get?_of_at? hh
  have huniq {h' : Hook} (hf : h' ∈ table.hooks.values) (hn : h'.name = name) : h' = h := by
    obtain ⟨⟨id', h'⟩, he, rfl⟩ := List.mem_map.1 hf
    have hg' : table.get? id' = some h' := hp.distinct.find?_of_mem he
    have hat := hp.place hg' (hn ▸ hname)
    rw [hn, hplace] at hat
    have hid' := hp.breakpoint hg'
    rw [← Option.some.inj hat, hid] at hid'
    rw [← Option.some.inj hid', hg] at hg'
    exact (Option.some.inj hg').symm
  have hmem : h ∈ table.hooks.values := List.mem_map_of_mem (Dict.mem_of_find? hg)
  split
  · next hn =>
    have hs : (table.find? name).isSome := List.find?_isSome.2 ⟨h, hmem, by simp [hn]⟩
    obtain ⟨h', hf⟩ := Option.isSome_iff_exists.1 hs
    rw [hf, huniq (List.mem_of_find?_eq_some hf) (by simpa using List.find?_some hf)]
  · next hn =>
    refine List.find?_eq_none.2 fun h' hf => ?_
    rw [decide_eq_true_eq]
    exact fun hn' => hn (huniq hf hn' ▸ hn')

end Placed

/-- Of the hooks that were asked for, exactly those are in force behind the first stop at the gate
    whose symbol is not at the gate and that were asked for as the last one at their symbol's
    address; and so it stays, whatever stops come. -/
theorem inForce_iff {decision : Decision} (ht : t.Numbered)
    (hr : t.Room (config.hooks.length + 1))
    (hnames : ∀ spec ∈ config.hooks, '=' ∉ spec.name.toList)
    (hi : t.run (Controller.install config) = (.ok c, t₁))
    (hs : t₁.run (c.onStop command c.entryGate) = ((decision, c₂), t₂))
    (hl : Later command c₂ c') :
    ∀ spec ∈ config.hooks, ∀ address, placeOf t.names.symbols spec.name = some address →
      (InForce command c' t₂ spec address ↔
        t₂.hookAt? address ≠ some c.entryGate ∧
          lastAt t.names.symbols config.hooks address = some spec) := by
  obtain ⟨rfl, hu, hp₁, hr₁⟩ := placed_of_install ht hr hi
  obtain ⟨hgate, harmed, hp₂, hat⟩ := placed_of_arming hu hnames hp₁ hr₁ hs
  obtain ⟨hhooks, hgate', harmed'⟩ := hl.hooks_eq harmed
  intro spec hspec address hplace
  obtain ⟨last, hlast⟩ : ∃ last, lastAt t.names.symbols c.config.hooks address = some last := by
    have hs : (lastAt t.names.symbols c.config.hooks address).isSome :=
      List.find?_isSome.2 ⟨spec, List.mem_reverse.2 hspec, by simp [hplace]⟩
    exact Option.isSome_iff_exists.1 hs
  have hspecs := hat address
  rw [hlast, Option.some_or] at hspecs
  obtain ⟨h, hh, hlastSpec⟩ := Option.map_eq_some_iff.1 hspecs
  obtain ⟨id, hid, hg, ha⟩ := hp₂.get?_of_at? hh
  have hfind := hp₂.find?_eq (hnames spec hspec) hplace hh
  rw [← hhooks] at hfind hg
  rw [hlast, hid, ← hgate, ← hgate', Option.some.injEq, Ne, Option.some.injEq]
  constructor
  · rintro ⟨⟨h', hf, -⟩, ⟨id', hid', hacts⟩⟩
    obtain rfl : id' = id := Option.some.inj (hid'.symm.trans hid)
    have hne : id' ≠ c'.entryGate := by
      rintro rfl
      exact (hacts _ _ _ ((path_onStop_of_armed harmed').2 ⟨rfl, rfl, rfl⟩)).log_ne_nil rfl
    have hname : h.name = spec.name := by
      by_contra hn
      rw [hfind, if_neg hn] at hf
      cases hf
    have hkind : h.kind = spec.kind := kind_eq_of_performs hne hg hacts
    refine ⟨hne, ?_⟩
    rw [← hlastSpec, Hook.spec, hname, hkind]
  · rintro ⟨hne, rfl⟩
    subst hlastSpec
    refine ⟨⟨h, hfind.trans (if_pos rfl), ha⟩, id, hid, fun log decision c' hp => ?_⟩
    exact performs_of_path hne hg hp

/-- A target in which the functions `Fault` and `Halt` are one, and `Start` is the kernel's entry. -/
def folded : Simulated :=
  (((Simulated.new.defineSymbol "OnKernelMainHook" 0x1000).defineSymbol "Start" 0x1000).defineSymbol
    "Fault" 0x2000).defineSymbol "Halt" 0x2000

/-- Hooks at functions that share their code with others. -/
def foldedConfig : Config :=
  { preamble := []
    hooks := [⟨"Start", .moduleLoad⟩, ⟨"Fault", .faultSilent⟩, ⟨"Halt", .genericStop⟩] }

/-- The controller that is installed at the folded target. -/
def foldedController : Controller where
  config := foldedConfig
  state := .unarmed
  entryGate := 1
  hooks := HookTable.empty.insert ⟨1, "OnKernelMainHook", 0x1000, .genericStop⟩
  modules := .new foldedConfig
  attached := false

theorem numbered_folded : folded.Numbered :=
  ⟨Simulated.numbered_new.ids, Simulated.numbered_new.addresses, Simulated.numbered_new.below⟩

theorem run_folded :
    ∃ t₁ c₂ t₂, folded.run (Controller.install foldedConfig) = (.ok foldedController, t₁) ∧
      t₁.run (foldedController.onStop translateAddress 1) = ((.resume, c₂), t₂) ∧
      t₂.hookAt? 0x1000 = some 1 ∧ t₂.hookAt? 0x2000 = some 2 ∧ c₂.hooks.find? "Fault" = none :=
  ⟨_, _, _, rfl, rfl, rfl, rfl, rfl⟩

/-- Of two hooks at one function only the later one is in force, and none at the kernel's entry. -/
theorem inForce_iff_folded :
    ∃ c₂ t₂, InForce translateAddress c₂ t₂ ⟨"Halt", .genericStop⟩ 0x2000 ∧
      ¬InForce translateAddress c₂ t₂ ⟨"Fault", .faultSilent⟩ 0x2000 ∧
      ¬InForce translateAddress c₂ t₂ ⟨"Start", .moduleLoad⟩ 0x1000 := by
  obtain ⟨t₁, c₂, t₂, hi, hs, hgate, hshared, -⟩ := run_folded
  have h := inForce_iff numbered_folded (by decide) (by decide) hi hs .refl
  refine ⟨c₂, t₂, (h _ (by decide) _ (by decide)).2 ⟨?_, by decide⟩, fun hf => ?_, fun hf => ?_⟩
  · rw [hshared]
    decide
  · exact absurd ((h _ (by decide) _ (by decide)).1 hf).2 (by decide)
  · exact ((h _ (by decide) _ (by decide)).1 hf).1 hgate

/-- Setting a hook may drop one that was set before: not all hooks whose symbols are known are in
    force behind the first stop at the gate. -/
theorem not_all_inForce :
    ¬∀ (config : Config) (t t₁ t₂ : Simulated) (c c₂ : Controller) (decision : Decision),
      t.Numbered → t.Room (config.hooks.length + 1) →
      (∀ spec ∈ config.hooks, '=' ∉ spec.name.toList) →
      t.run (Controller.install config) = (.ok c, t₁) →
      t₁.run (c.onStop translateAddress c.entryGate) = ((decision, c₂), t₂) →
      ∀ spec ∈ config.hooks, ∀ address, placeOf t.names.symbols spec.name = some address →
        InForce translateAddress c₂ t₂ spec address := by
  intro h
  obtain ⟨t₁, c₂, t₂, hi, hs, -, -, hf⟩ := run_folded
  have hfault := h _ _ _ _ _ _ _ numbered_folded (by decide) (by decide) hi hs
    ⟨"Fault", .faultSilent⟩ (by decide) 0x2000 (by decide)
  obtain ⟨_, hfound, -⟩ := hfault.found
  rw [hf] at hfound
  cases hfound

end KernelProbe.Automation
