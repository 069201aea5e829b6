import KernelProbe.Automation.Controller
import KernelProbe.Proofs.Automation.SymbolFiles

/-!
# Arming

A controller is installed with one hook, that of the gate at the kernel's entry, and then called
for stops at any breakpoints, in any order (`Stops`). Every call of the debugger may fail; all that
is asked of it is that it never gives out the number of a breakpoint twice (`breakpointIds`).

An attempt to set a hook breaks off at the symbol, at the breakpoint, or not at all (`Attempt`).

* `path_installHooks`: setting the hooks is one attempt for each of them, in order, and the hooks
  of those that got through come into the table;
* `Stands`: where a controller stands. One stop elsewhere than at the gate leaves it there, and so
  does one at the gate of an armed controller;
* `armed_at_first_gate_stop`: the first stop at the gate, and no other one, tells the kernel, makes
  the attempts and registers the command.
-/

namespace KernelProbe.Automation

open Debugger Program

variable {H : Type}

/-! ## Attempts -/

/-- What became of an attempt to set a hook. -/
inductive Outcome
  /-- The symbol has no address. -/
  | unresolved (e : Error)
  /-- No breakpoint could be set at the address. -/
  | refused (address : UInt64) (e : Error)
  /-- The breakpoint is set. -/
  | set (address : UInt64) (id : HookId)

/-- An attempt to set a hook. -/
structure Attempt where
  spec : HookSpec
  outcome : Outcome

namespace Attempt

/-- The calls of an attempt. -/
def log (a : Attempt) : Log (interface H) :=
  match a.outcome with
  | .unresolved e => [⟨.evaluate ("&" ++ a.spec.name), .error e⟩]
  | .refused address e =>
    [⟨.evaluate ("&" ++ a.spec.name), .ok address⟩, ⟨.setBreakpoint address, .error e⟩]
  | .set address id =>
    [⟨.evaluate ("&" ++ a.spec.name), .ok address⟩, ⟨.setBreakpoint address, .ok id⟩]

/-- The hook that an attempt has set. -/
def hook? (a : Attempt) : Option Hook :=
  match a.outcome with
  | .set address id => some ⟨id, a.spec.name, address, a.spec.kind⟩
  | _ => none

/-- What an attempt is answered. -/
def result (a : Attempt) : Except Error HookId :=
  match a.outcome with
  | .unresolved e | .refused _ e => .error e
  | .set _ id => .ok id

end Attempt

/-- The hooks that attempts have set, in order. -/
def hooksOf (attempts : List Attempt) : List Hook :=
  attempts.filterMap Attempt.hook?

namespace HookTable

variable {t t' : HookTable} {log : Log (interface H)}

/-- Setting a hook is an attempt, and a hook that is set comes into the table. -/
theorem path_install {name : String} {kind : HookKind} {result : Except Error HookId}
    (hp : Path (t.install name kind) log (result, t')) :
    ∃ a : Attempt, a.spec = ⟨name, kind⟩ ∧ log = a.log ∧ result = a.result ∧
      t' = (hooksOf [a]).foldl insert t := by
  obtain ⟨symbol, rest, rfl, hs⟩ := path_ask_bind.1 hp
  cases symbol with
  | error e =>
    obtain ⟨rfl, ⟨⟩⟩ := path_done.1 hs
    exact ⟨⟨⟨name, kind⟩, .unresolved e⟩, rfl, rfl, rfl, rfl⟩
  | ok address =>
    obtain ⟨breakpoint, rest, rfl, hb⟩ := path_ask_bind.1 hs
    cases breakpoint with
    | error e =>
      obtain ⟨rfl, ⟨⟩⟩ := path_done.1 hb
      exact ⟨⟨⟨name, kind⟩, .refused address e⟩, rfl, rfl, rfl, rfl⟩
    | ok id =>
      obtain ⟨rfl, ⟨⟩⟩ := path_done.1 hb
      exact ⟨⟨⟨name, kind⟩, .set address id⟩, rfl, rfl, rfl, rfl⟩

/-- Hooks with breakpoints of their own come in behind those that are there. -/
theorem entries_foldl_insert {hooks : List Hook}
    (hf : (t.hooks.entries.map (·.1) ++ hooks.map Hook.id).Nodup) :
    (hooks.foldl insert t).hooks.entries = t.hooks.entries ++ hooks.map fun h => (h.id, h) := by
  induction hooks generalizing t with
  | nil => simp
  | cons h hooks ih =>
    have hnone : t.hooks.find? h.id = none := by
      rw [Dict.find?_eq_none_iff]
      intro e he hid
      exact (List.nodup_append.1 hf).2.2 _ (List.mem_map_of_mem he) _ List.mem_cons_self hid
    have hentries : (t.insert h).hooks.entries = t.hooks.entries ++ [(h.id, h)] := by
      simp only [insert, Dict.insert, Dict.erase_of_find?_eq_none hnone]
    rw [List.foldl_cons, ih, hentries, List.append_assoc]
    · rfl
    · simpa [hentries] using hf

end HookTable

/-- Setting hooks is one attempt for each of them, in order. -/
theorem Controller.path_installHooks {specs : List HookSpec} {t t' : HookTable}
    {log : Log (interface H)} (hp : Path (installHooks specs t) log t') :
    ∃ attempts : List Attempt, attempts.map Attempt.spec = specs ∧
      log = attempts.flatMap Attempt.log ∧ t' = (hooksOf attempts).foldl HookTable.insert t := by
  induction specs generalizing t log with
  | nil =>
    obtain ⟨rfl, rfl⟩ := path_done.1 hp
    exact ⟨[], rfl, rfl, rfl⟩
  | cons spec specs ih =>
    obtain ⟨first, ⟨result, t₁⟩, second, h₁, h₂, rfl⟩ := path_bind.1 hp
    obtain ⟨a, hspec, rfl, -, rfl⟩ := HookTable.path_install h₁
    obtain ⟨attempts, rfl, rfl, rfl⟩ := ih h₂
    refine ⟨a :: attempts, by rw [List.map_cons, hspec], rfl, ?_⟩
    rw [← List.foldl_append, hooksOf, hooksOf, ← List.filterMap_append]
    rfl

/-! ## Calls that arm -/

/-- Whether a call is one that only arming makes. -/
def IsArming : Request H → Prop
  | .evaluate _ | .setBreakpoint _ | .register .. => True
  | _ => False

namespace Modules

variable (m : Modules)

theorem only_onLoad : Only (¬IsArming ·) (m.onLoad (H := H)) := by
  refine .bind (only_readModule (fun _ => not_false) (fun _ _ => not_false) m) fun found => ?_
  cases found with
  | error reason => exact .bind (.ask not_false) fun _ => .done _
  | ok found => exact .bind (only_load (fun _ => not_false) m _ _) fun _ => .done _

theorem only_onUnload : Only (¬IsArming ·) (m.onUnload (H := H)) := by
  refine .bind (only_readModule (fun _ => not_false) (fun _ _ => not_false) m) fun found => ?_
  cases found with
  | error reason => exact .bind (.ask not_false) fun _ => .done _
  | ok found => exact .bind (only_unload (fun _ => not_false) m _ _) fun _ => .done _

end Modules

namespace Controller

theorem only_onFault (c : Controller) (h : Hook) (verbose : Bool) :
    Only (¬IsArming ·) (c.onFault (H := H) h verbose) := by
  refine .bind (.ask not_false) fun _ => ?_
  cases verbose with
  | false => exact .bind (.ask not_false) fun _ => .done _
  | true => exact .bind (.ask not_false) fun _ => .bind (.ask not_false) fun _ => .done _

variable {c c' : Controller} {command : H} {id : HookId} {log : Log (interface H)}
  {decision : Decision}

/-- A stop elsewhere than at the gate changes at most the tracked modules, and arms nothing. -/
theorem path_onStop_of_ne (hid : id ≠ c.entryGate)
    (hp : Path (c.onStop command id) log (decision, c')) :
    (∃ modules, c' = { c with modules }) ∧ ∀ e ∈ log, ¬IsArming e.call := by
  rw [onStop, if_neg hid] at hp
  split at hp
  · obtain ⟨rfl, ⟨⟩⟩ := path_done.1 hp
    exact ⟨⟨_, rfl⟩, by simp⟩
  · next h _ =>
    split at hp
    · obtain ⟨_, hq, ⟨⟩⟩ := path_bind_done.1 hp
      exact ⟨⟨_, rfl⟩, c.only_onFault h true hq⟩
    · obtain ⟨_, hq, ⟨⟩⟩ := path_bind_done.1 hp
      exact ⟨⟨_, rfl⟩, c.only_onFault h false hq⟩
    · obtain ⟨_, _, rfl, hq⟩ := path_ask_bind.1 hp
      obtain ⟨rfl, ⟨⟩⟩ := path_done.1 hq
      exact ⟨⟨_, rfl⟩, by simp [IsArming]⟩
    · obtain ⟨_, hq, ⟨⟩⟩ := path_bind_done.1 hp
      exact ⟨⟨_, rfl⟩, c.modules.only_onLoad hq⟩
    · obtain ⟨_, hq, ⟨⟩⟩ := path_bind_done.1 hp
      exact ⟨⟨_, rfl⟩, c.modules.only_onUnload hq⟩

end Controller

/-! ## Breakpoints that are given out -/

/-- The breakpoint that an exchange gives out. -/
def breakpointId? : Exchange (interface H) → Option HookId
  | ⟨.setBreakpoint _, .ok id⟩ => some id
  | _ => none

/-- The breakpoints that calls give out, in order. -/
def breakpointIds (log : Log (interface H)) : List HookId :=
  log.filterMap breakpointId?

theorem breakpointIds_append (log more : Log (interface H)) :
    breakpointIds (log ++ more) = breakpointIds log ++ breakpointIds more :=
  List.filterMap_append

theorem breakpointIds_attempts (attempts : List Attempt) :
    breakpointIds (H := H) (attempts.flatMap Attempt.log) = (hooksOf attempts).map Hook.id := by
  induction attempts with
  | nil => rfl
  | cons a attempts ih =>
    rw [List.flatMap_cons, breakpointIds_append, ih]
    obtain ⟨spec, _ | _ | _⟩ := a <;> rfl

/-! ## Where a controller stands -/

/-- A controller under a configuration stands in a state, with the kernel told that a debugger is
    attached or not, and with hooks, each at its breakpoint. -/
structure Stands (config : Config) (gate : Hook) (state : ControllerState) (attached : Bool)
    (hooks : List Hook) (c : Controller) : Prop where
  config : c.config = config
  gate : c.entryGate = gate.id
  state : c.state = state
  attached : c.attached = attached
  hooks : c.hooks.hooks.entries = hooks.map fun h => (h.id, h)

/-- A stop that a controller was called for: the breakpoint, the calls of the debugger, the
    decision, and the controller behind it. -/
structure Stop (H : Type) where
  id : HookId
  log : Log (interface H)
  decision : Decision
  behind : Controller

/-- Stops that a controller was called for, one after the other. -/
inductive Stops (command : H) : Controller → List (Stop H) → Prop
  | nil (c : Controller) : Stops command c []
  | cons {c : Controller} {s : Stop H} {stops : List (Stop H)} :
      Path (c.onStop command s.id) s.log (s.decision, s.behind) →
        Stops command s.behind stops → Stops command c (s :: stops)

/-! ## Installing -/

variable {config : Config} {gate : Hook} {command : H} {c c' : Controller} {log : Log (interface H)}

theorem path_executeAll_ok {commands : List String}
    (hp : Path (executeAll commands) log (.ok ())) :
    log = commands.map fun line => ⟨.execute line, .ok ()⟩ := by
  induction commands generalizing log with
  | nil => exact (path_done.1 hp).1
  | cons line commands ih =>
    obtain ⟨answer, rest, rfl, hq⟩ := path_ask_bind.1 hp
    cases answer with
    | error e => cases (path_done.1 hq).2
    | ok _ => rw [ih hq, List.map_cons]

/-- The calls that install a controller under a configuration with its gate. -/
def installLog (config : Config) (gate : Hook) : Log (interface H) :=
  config.preamble.map (fun line => ⟨.execute line, .ok ()⟩) ++
    Attempt.log ⟨⟨config.entryHook, .genericStop⟩, .set gate.address gate.id⟩

/-- Installing gives out the breakpoint of the gate alone. -/
theorem breakpointIds_installLog (config : Config) (gate : Hook) :
    breakpointIds (H := H) (installLog config gate) = [gate.id] := by
  have hpreamble (lines : List String) :
      breakpointIds (H := H) (lines.map fun line => ⟨.execute line, .ok ()⟩) = [] := by
    rw [breakpointIds, List.filterMap_map]
    exact List.filterMap_eq_nil_iff.2 fun _ _ => rfl
  rw [installLog, breakpointIds_append, hpreamble]
  rfl

/-- An installed controller has the hook of the gate alone. -/
theorem stands_of_install (hp : Path (Controller.install config) log (.ok c)) :
    ∃ gate : Hook, gate.name = config.entryHook ∧ gate.kind = .genericStop ∧
      log = installLog config gate ∧ Stands config gate .unarmed false [gate] c := by
  obtain ⟨first, prepared, second, h₁, h₂, rfl⟩ := path_bind.1 hp
  cases prepared with
  | error e => cases (path_done.1 h₂).2
  | ok _ =>
    obtain ⟨third, ⟨result, hooks⟩, fourth, h₃, h₄, rfl⟩ := path_bind.1 h₂
    obtain ⟨⟨spec, outcome⟩, rfl, rfl, rfl, rfl⟩ := HookTable.path_install h₃
    cases outcome with
    | unresolved e => cases (path_done.1 h₄).2
    | refused address e => cases (path_done.1 h₄).2
    | set address id =>
      obtain ⟨rfl, ⟨⟩⟩ := path_done.1 h₄
      refine ⟨⟨id, config.entryHook, address, .genericStop⟩, rfl, rfl, ?_, rfl, rfl, rfl, rfl, rfl⟩
      rw [path_executeAll_ok h₁, List.append_nil]
      rfl

/-! ## One stop -/

/-- The calls of the stop that arms: the kernel is told, each hook is attempted, and the command is
    registered. -/
def armingLog (config : Config) (command : H) (told : Except Error UInt64)
    (attempts : List Attempt) (registered : Except Error Unit) : Log (interface H) :=
  ⟨.print "Debugger attached", ()⟩ ::
    ⟨.evaluate (config.attachedFlag ++ " = true"), told⟩ ::
      (attempts.flatMap Attempt.log ++ [⟨.register "translate_address" command, registered⟩])

theorem breakpointIds_armingLog (told : Except Error UInt64) (attempts : List Attempt)
    (registered : Except Error Unit) :
    breakpointIds (armingLog config command told attempts registered) =
      (hooksOf attempts).map Hook.id := by
  -- The calls around the attempts set no breakpoint.
  have hends : breakpointIds (armingLog config command told attempts registered) =
      breakpointIds (attempts.flatMap Attempt.log) ++ [] := breakpointIds_append _ _
  rw [hends, List.append_nil, breakpointIds_attempts]

/-- At the gate, an unarmed controller arms, whatever the debugger answers. -/
theorem Controller.path_onEntry {decision : Decision} (hc : c.state = .unarmed)
    (hp : Path (c.onEntry command) log (decision, c')) :
    ∃ told attempts registered, attempts.map Attempt.spec = c.config.hooks ∧
      log = armingLog c.config command told attempts registered ∧ decision = .resume ∧
      c' = { c with
        state := .armed
        attached := c.attached || told.toBool
        hooks := (hooksOf attempts).foldl HookTable.insert c.hooks } := by
  rw [onEntry, if_pos hc] at hp
  obtain ⟨_, _, rfl, h₁⟩ := path_ask_bind.1 hp
  obtain ⟨told, _, rfl, h₂⟩ := path_ask_bind.1 h₁
  obtain ⟨_, _, _, h₃, h₄, rfl⟩ := path_bind.1 h₂
  obtain ⟨registered, _, rfl, h₅⟩ := path_ask_bind.1 h₄
  obtain ⟨rfl, ⟨⟩⟩ := path_done.1 h₅
  obtain ⟨attempts, hspecs, rfl, rfl⟩ := path_installHooks h₃
  exact ⟨told, attempts, registered, hspecs, rfl, rfl, rfl⟩

/-- A stop before the first one at the gate: no call is made, and the gate has the only hook. -/
structure Waits (config : Config) (gate : Hook) (s : Stop H) : Prop where
  id : s.id ≠ gate.id
  log : s.log = []
  decision : s.decision = .stop
  behind : Stands config gate .unarmed false [gate] s.behind

/-- The stop that arms, with whether the kernel could be `told` and what became of the attempts. -/
structure Arms (config : Config) (command : H) (gate : Hook) (told : Except Error UInt64)
    (attempts : List Attempt) (s : Stop H) : Prop where
  id : s.id = gate.id
  inOrder : attempts.map Attempt.spec = config.hooks
  log : ∃ registered, s.log = armingLog config command told attempts registered
  decision : s.decision = .resume
  behind : Stands config gate .armed told.toBool (gate :: hooksOf attempts) s.behind

/-- A stop of an armed controller: nothing is armed again, and at the gate no call is made. -/
structure Rests (config : Config) (gate : Hook) (attached : Bool) (hooks : List Hook)
    (s : Stop H) : Prop where
  log : ∀ e ∈ s.log, ¬IsArming e.call
  atGate : s.id = gate.id → s.log = [] ∧ s.decision = .resume
  behind : Stands config gate .armed attached hooks s.behind

namespace Stands

variable {state : ControllerState} {attached : Bool} {hooks : List Hook} {s : Stop H}

theorem modules (h : Stands config gate state attached hooks c) (m : Modules) :
    Stands config gate state attached hooks { c with modules := m } :=
  ⟨h.config, h.gate, h.state, h.attached, h.hooks⟩

theorem waits (h : Stands config gate .unarmed false [gate] c) (hid : s.id ≠ gate.id)
    (hp : Path (c.onStop command s.id) s.log (s.decision, s.behind)) : Waits config gate s := by
  have hnone : c.hooks.get? s.id = none := by
    rw [HookTable.get?, Dict.find?_eq_none_iff, h.hooks]
    simpa using hid.symm
  rw [Controller.onStop, if_neg (h.gate ▸ hid), hnone] at hp
  obtain ⟨hlog, hr⟩ := path_done.1 hp
  obtain ⟨hdecision, hbehind⟩ := Prod.mk.inj hr
  exact ⟨hid, hlog, hdecision, hbehind ▸ h⟩

/-- The first stop at the gate arms, where the breakpoints that it sets are new. -/
theorem arms (h : Stands config gate .unarmed false [gate] c) (hid : s.id = gate.id)
    (hp : Path (c.onStop command s.id) s.log (s.decision, s.behind))
    (hf : (gate.id :: breakpointIds s.log).Nodup) :
    ∃ told attempts, Arms config command gate told attempts s := by
  rw [Controller.onStop, if_pos (hid.trans h.gate.symm)] at hp
  obtain ⟨told, attempts, registered, hspecs, hlog, hdecision, hbehind⟩ :=
    Controller.path_onEntry h.state hp
  rw [h.config] at hspecs hlog
  rw [hlog, breakpointIds_armingLog] at hf
  refine ⟨told, attempts, hid, hspecs, ⟨registered, hlog⟩, hdecision, ?_⟩
  rw [hbehind]
  refine ⟨h.config, h.gate, rfl, by rw [h.attached, Bool.false_or], ?_⟩
  have hnew : (c.hooks.hooks.entries.map (·.1) ++ (hooksOf attempts).map Hook.id).Nodup := by
    rwa [h.hooks]
  rw [HookTable.entries_foldl_insert hnew, h.hooks]
  rfl

theorem rests (h : Stands config gate .armed attached hooks c)
    (hp : Path (c.onStop command s.id) s.log (s.decision, s.behind)) :
    Rests config gate attached hooks s := by
  by_cases hid : s.id = gate.id
  · rw [Controller.onStop, if_pos (hid.trans h.gate.symm), Controller.onEntry,
      if_neg (by simp [h.state])] at hp
    obtain ⟨hlog, hr⟩ := path_done.1 hp
    obtain ⟨hdecision, hbehind⟩ := Prod.mk.inj hr
    exact ⟨by simp [hlog], fun _ => ⟨hlog, hdecision⟩, hbehind ▸ h⟩
  · obtain ⟨⟨m, hm⟩, honly⟩ := Controller.path_onStop_of_ne (h.gate ▸ hid) hp
    exact ⟨honly, fun h => absurd h hid, hm ▸ h.modules m⟩

end Stands

/-! ## Runs -/

namespace Stops

variable {stops : List (Stop H)}

theorem rest {attached : Bool} {hooks : List Hook} (hs : Stops command c stops)
    (h : Stands config gate .armed attached hooks c) :
    ∀ s ∈ stops, Rests config gate attached hooks s := by
  induction hs with
  | nil c => simp
  | cons hp _ ih =>
    have hr := h.rests hp
    exact List.forall_mem_cons.2 ⟨hr, ih hr.behind⟩

/-- The stops of an unarmed controller wait for the first one at the gate, which arms. -/
theorem arm (hs : Stops command c stops) (h : Stands config gate .unarmed false [gate] c)
    (hf : (gate.id :: breakpointIds (stops.flatMap Stop.log)).Nodup) :
    ∃ before rest, stops = before ++ rest ∧ (∀ s ∈ before, Waits config gate s) ∧
      (rest = [] ∨ ∃ first after told attempts, rest = first :: after ∧
        Arms config command gate told attempts first ∧
        ∀ s ∈ after, Rests config gate told.toBool (gate :: hooksOf attempts) s) := by
  induction hs with
  | nil c => exact ⟨[], [], rfl, by simp, .inl rfl⟩
  | @cons c s stops hp hs ih =>
    rw [List.flatMap_cons, breakpointIds_append] at hf
    by_cases hid : s.id = gate.id
    · have hnew : (gate.id :: breakpointIds s.log).Nodup :=
        hf.sublist (.cons_cons _ (List.sublist_append_left _ _))
      obtain ⟨told, attempts, ha⟩ := h.arms hid hp hnew
      have hafter := hs.rest ha.behind
      exact ⟨[], s :: stops, rfl, by simp, .inr ⟨s, stops, told, attempts, rfl, ha, hafter⟩⟩
    · have hw := h.waits hid hp
      rw [hw.log] at hf
      obtain ⟨before, rest, rfl, hbefore, hrest⟩ := ih hw.behind hf
      exact ⟨s :: before, rest, rfl, List.forall_mem_cons.2 ⟨hw, hbefore⟩, hrest⟩

end Stops

/-- In every run of an installed controller, whatever the debugger answers, the stops before the
    first one at the gate make no call and leave the controller unarmed, with the hook of the gate
    alone. The first stop at the gate tells the kernel that a debugger is attached, attempts to set
    each hook, in order, and registers the command; no other stop evaluates, sets or registers
    anything. From then on the controller is armed, knows whether the kernel was told, and has the
    hook of the gate and those that could be set; further stops at the gate make no call. -/
theorem armed_at_first_gate_stop {opening : Log (interface H)} {stops : List (Stop H)}
    (hi : Path (Controller.install config) opening (.ok c)) (hs : Stops command c stops)
    (hf : (breakpointIds (opening ++ stops.flatMap Stop.log)).Nodup) :
    ∃ gate : Hook, gate.name = config.entryHook ∧ gate.kind = .genericStop ∧
      opening = installLog config gate ∧ Stands config gate .unarmed false [gate] c ∧
      ∃ before rest, stops = before ++ rest ∧ (∀ s ∈ before, Waits config gate s) ∧
        (rest = [] ∨ ∃ first after told attempts, rest = first :: after ∧
          Arms config command gate told attempts first ∧
          ∀ s ∈ after, Rests config gate told.toBool (gate :: hooksOf attempts) s) := by
  obtain ⟨gate, hname, hkind, rfl, hc⟩ := stands_of_install hi
  refine ⟨gate, hname, hkind, rfl, hc, hs.arm hc ?_⟩
  rwa [breakpointIds_append, breakpointIds_installLog] at hf

/-- A stop at a breakpoint of the operator, the one that arms, where one of two symbols is not
    known, a stop at the hook that is set, and another stop at the gate. -/
theorem armed_at_first_gate_stop_unresolved :
    let config : Config :=
      { preamble := [], hooks := [⟨"Lost", .faultSilent⟩, ⟨"Halt", .genericStop⟩] }
    let gate : Hook := ⟨1, "OnKernelMainHook", 0x1000, .genericStop⟩
    let halt : Hook := ⟨2, "Halt", 0x2000, .genericStop⟩
    ∃ (c : Controller) (stops : List (Stop Handler)),
      stops.map Stop.id = [9, 1, 2, 1] ∧ Stops translateAddress c stops ∧
        (breakpointIds (installLog config gate ++ stops.flatMap Stop.log)).Nodup ∧
        (∀ s ∈ stops.getLast?, s.behind.state = .armed ∧ s.behind.attached ∧
          s.behind.hooks.hooks.values = [gate, halt]) ∧
        ∃ gate' before rest, installLog (H := Handler) config gate = installLog config gate' ∧
          stops = before ++ rest ∧ ∀ s ∈ before, Waits config gate' s := by
  intro config gate halt
  let attempts : List Attempt :=
    [⟨⟨"Lost", .faultSilent⟩, .unresolved (.commandFailed "&Lost")⟩,
      ⟨⟨"Halt", .genericStop⟩, .set 0x2000 2⟩]
  let c : Controller :=
    { config, state := .unarmed, entryGate := 1, hooks := HookTable.empty.insert gate
      modules := .new config, attached := false }
  let armed : Controller :=
    { c with state := .armed, attached := true, hooks := c.hooks.insert halt }
  let stops : List (Stop Handler) :=
    [⟨9, [], .stop, c⟩,
      ⟨1, armingLog config translateAddress (.ok 1) attempts (.ok ()), .resume, armed⟩,
      ⟨2, [⟨.print "Halt hit", ()⟩], .stop, armed⟩, ⟨1, [], .resume, armed⟩]
  have hi : Path (Controller.install (H := Handler) config) (installLog config gate) (.ok c) :=
    .call _ (.call _ (.done _))
  have hs : Stops translateAddress c stops :=
    .cons (.done _) (.cons (.call _ (.call _ (.call _ (.call _ (.call _ (.call _ (.done _)))))))
      (.cons (.call _ (.done _)) (.cons (.done _) (.nil _))))
  have hf : (breakpointIds (installLog config gate ++ stops.flatMap Stop.log)).Nodup := by decide
  obtain ⟨gate', -, -, hlog, -, before, rest, hstops, hwaits, -⟩ :=
    armed_at_first_gate_stop hi hs hf
  have hlast : armed.state = .armed ∧ armed.attached ∧ armed.hooks.hooks.values = [gate, halt] :=
    ⟨rfl, rfl, rfl⟩
  refine ⟨c, stops, rfl, hs, hf, ?_, gate', before, rest, hlog, hstops, hwaits⟩
  simpa [stops] using hlast

end KernelProbe.Automation
