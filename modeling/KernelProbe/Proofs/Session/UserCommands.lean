import KernelProbe.Proofs.Debugger.CommandLines
import KernelProbe.Proofs.Session.OperatorLines
import KernelProbe.Proofs.Session.WorkerTurns
import KernelProbe.Target.Simulated

/-!
# Registered commands

A command line of the operator is carried out by the handler of the command that it names, by a
simulated target and by the worker alike, and the control loop asks for the same name before it
tells the worker of a line (`handles_iff`).

The control loop and the worker go on side by side (`Tandem`), and what they do in between may come
in any order: the commands that are registered are the only thing that both of them look at. They
only become more (`Grows`), so that the command of a line is still registered when the worker comes
to it.

* `reaches_notify`: what the control loop has asked before it tells the worker of a command;
* `Tandem.Course.sound`: what the worker has been told of stays registered, call by call;
* `commands_found_alike`: all of this for every line.
-/

namespace KernelProbe.Session

open Automation Debugger Gdb Mi Program Target

variable {c : Config} {i : Instance} {commands commands' : Registry} {line text : String}
  {name arguments : List Char} {token : Option UInt64} {log : Log surroundings}

/-! ## The command of a line -/

/-- The control loop asks for the command that the line names. -/
theorem handles_iff (h : Invokes line.toList name arguments) : handles commands line ↔
    (¬∀ c ∈ line.toList, Text.isBlank c) ∧ (commands.find? (String.ofList name)).isSome := by
  rw [handles]
  by_cases hb : ∀ c ∈ line.toList, Text.isBlank c
  · rw [Text.firstWord?_eq_none_iff.2 hb]
    exact iff_of_false Bool.false_ne_true fun hl => hl.1 hb
  · rw [h.firstWord?_eq hb, and_iff_right hb]
    rfl

/-- The worker carries out a line by the handler of its command, and tells how that ended. -/
theorem react_userCommand {handler : Handler} (w : Worker) (h : Invokes line.toList name arguments)
    (hf : commands.find? (String.ofList name) = some handler) :
    w.react commands (.userCommand token line) =
      .bind (carryOut (widen (handler (String.ofList arguments)))) fun r =>
        .done (w, some ⟨token, failure r⟩) := by
  rw [Worker.react, Worker.onUserCommand, runCommand_of_some h hf]
  dsimp only [bind_eq, pure_eq]
  rw [bind_assoc]
  refine congrArg (Program.bind _) (funext fun r => ?_)
  cases r <;> rfl

/-! ## Registrations -/

/-- A name that is registered stays so. -/
def Grows (commands commands' : Registry) : Prop :=
  ∀ name, (commands.find? name).isSome → (commands'.find? name).isSome

theorem grows_insert (commands : Registry) (name : String) (handler : Handler) :
    Grows commands (commands.insert name handler) := by
  intro other h
  rw [Dict.find?_insert]
  split
  · rfl
  · exact h

theorem grows_registry (commands : Registry) (e : Exchange channel) :
    Grows commands (registry commands e) := by
  unfold registry
  split
  · exact grows_insert _ _ _
  · exact fun _ h => h

theorem Grows.handles (hg : Grows commands commands') (h : handles commands text) :
    handles commands' text := by
  obtain ⟨name, arguments, hi⟩ := exists_invokes text.toList
  obtain ⟨hb, hs⟩ := (handles_iff hi).1 h
  exact (handles_iff hi).2 ⟨hb, hg _ hs⟩

/-! ## Two sides -/

/-- A control loop and its worker, each of them in the middle of what it does. -/
structure Tandem where
  /-- The events that the control loop has taken, oldest first. -/
  events : List Event
  /-- What the control loop has still to do at the last of them. -/
  loop : Control (Instance × Option InstanceEnd)
  /-- The events that the worker was told and has not taken, oldest first. -/
  mailbox : List WorkerEvent
  /-- The events that the worker has taken, oldest first, each with the commands that were
      registered then. -/
  taken : List (WorkerEvent × Registry)
  /-- What the worker has still to do for the last of them. -/
  work : Work
  /-- The commands that are registered. -/
  commands : Registry

namespace Tandem

/-- The courses of a control loop and its worker, for all events, for all answers to their calls
    and for all ways in which the calls of one come between those of the other. The question for a
    registered command alone has a right answer. -/
inductive Course (c : Config) : Tandem → Prop
  | start {config : Automation.Config} (g : Nat) : c.automation = some config →
      Course c ⟨[], .done (.new c g, none), [], [], .done (.new config, none), .empty⟩
  /-- The control loop takes an event. -/
  | event {s : Tandem} {i : Instance} (e : Event) : Course c s → s.loop = .done (i, none) →
      Course c { s with events := s.events ++ [e], loop := i.onEvent c e }
  /-- The control loop does something, and perhaps tells the worker of an event. -/
  | act {s : Tandem} {a : Action} {next : a.Answer → Control (Instance × Option InstanceEnd)}
      (r : a.Answer) : Course c s → s.loop = .call a next → AnsweredBy s.commands [⟨a, r⟩] →
      Course c { s with loop := next r, mailbox := s.mailbox ++ notices [⟨a, r⟩] }
  /-- The worker takes an event. -/
  | turn {s : Tandem} {w : Worker} {completion : Option Completion} {e : WorkerEvent}
      {mailbox : List WorkerEvent} : Course c s → s.work = .done (w, completion) →
      s.mailbox = e :: mailbox →
      Course c { s with
        mailbox
        taken := s.taken ++ [(e, s.commands)]
        work := w.react s.commands e }
  /-- The worker makes a call, and perhaps registers a command. -/
  | call {s : Tandem} {m : Message} {next : m.Answer → Work} (r : m.Answer) : Course c s →
      s.work = .call m next →
      Course c { s with work := next r, commands := registry s.commands ⟨m, r⟩ }
  /-- A command is registered by whomever. -/
  | register {s : Tandem} (name : String) (handler : Handler) : Course c s →
      Course c { s with commands := s.commands.insert name handler }

end Tandem

/-- The worker is told of a command only at a line of the operator that has it, when it was found to
    be registered. -/
theorem reaches_notify {e : Event} {next : Unit → Control (Instance × Option InstanceEnd)}
    (h : Reaches (i.onEvent c e) log (.call (.notify (.userCommand token text)) next)) :
    ∃ line, e = .input line ∧ consoleInput? (Text.trimmed line) = some (token, text) ∧
      ⟨.handles text, true⟩ ∈ log := by
  obtain ⟨more, ⟨i', o⟩, hn⟩ := exists_path compliant (next ())
  have hp := h.path (.call () hn)
  have hm : .userCommand token text ∈
      notices (log ++ ⟨.notify (.userCommand token text), ()⟩ :: more) := by
    rw [notices_append]
    exact List.mem_append_right _ List.mem_cons_self
  by_cases he : ∃ line, e = .input line
  · obtain ⟨line, rfl⟩ := he
    rcases Instance.path_onInput.1 (Instance.outcome_of_path hp).1.onInput with
      ⟨token', text', hu, hl⟩ | ⟨asked, sent, hs, hl, ha⟩
    · -- The question and the entry in the transcript are all that comes before.
      rcases log with _ | ⟨x, _ | ⟨y, _ | ⟨z, log⟩⟩⟩
      · cases hl
      · cases hl
      · cases hl
        rw [Instance.userCommand?] at hu
        split at hu
        · exact ⟨line, rfl, hu, List.mem_cons_self⟩
        · cases hu
      · simp [tellings] at hl
    · have hsent : notices sent = [] := notices_of_sends fun e he => only_sendCommand c _ hs e he
      have hasked : notices asked = [] := by
        rcases ha with ⟨-, rfl⟩ | ⟨_, _, -, rfl⟩ <;> rfl
      rw [hl, notices_append, hasked, hsent] at hm
      cases hm
  · exact absurd hm (tellsNoCommand_of_path (not_exists.1 he) hp token text)

namespace Tandem

variable {s : Tandem} {events events' : List Event}

/-- A command came in a line of the operator, and is registered. -/
def Known (events : List Event) (commands : Registry) (e : WorkerEvent) : Prop :=
  ∀ token text, e = .userCommand token text →
    (∃ line, .input line ∈ events ∧ consoleInput? (Text.trimmed line) = some (token, text)) ∧
      handles commands text

theorem Known.mono {e : WorkerEvent} (h : Known events commands e) (he : events ⊆ events')
    (hg : Grows commands commands') : Known events' commands' e := by
  intro token text ht
  obtain ⟨⟨line, hl, hc⟩, hh⟩ := h token text ht
  exact ⟨⟨line, he hl, hc⟩, hg.handles hh⟩

/-- The control loop is done with an event, or it is in the middle of one, and what it has found to
    be registered still is. -/
inductive Halfway (c : Config) (events : List Event) (commands : Registry) :
    Control (Instance × Option InstanceEnd) → Prop
  | done (r : Instance × Option InstanceEnd) : Halfway c events commands (.done r)
  | within {i : Instance} {e : Event} {log : Log surroundings}
      {loop : Control (Instance × Option InstanceEnd)} : e ∈ events →
      Reaches (i.onEvent c e) log loop →
      (∀ text, ⟨.handles text, true⟩ ∈ log → handles commands text) →
      Halfway c events commands loop

theorem Halfway.grow {loop : Control (Instance × Option InstanceEnd)}
    (h : Halfway c events commands loop) (hg : Grows commands commands') :
    Halfway c events commands' loop := by
  cases h with
  | done r => exact .done r
  | within he hr hk => exact .within he hr fun text ht => hg.handles (hk text ht)

/-- The next thing that the control loop does; if it tells the worker of a command, that command is
    known. -/
theorem Halfway.act {a : Action} {next : a.Answer → Control (Instance × Option InstanceEnd)}
    (h : Halfway c events commands (.call a next)) (r : a.Answer)
    (ha : AnsweredBy commands [⟨a, r⟩]) :
    Halfway c events commands (next r) ∧ ∀ e ∈ notices [⟨a, r⟩], Known events commands e := by
  cases h with
  | @within i e log _ he hr hk =>
    refine ⟨.within he (hr.answer (.refl _)) fun text ht => ?_, fun event hm => ?_⟩
    · rcases List.mem_append.1 ht with ht | ht
      · exact hk text ht
      · exact handles_iff_namesCommand.2 ((ha text true ht).1 rfl)
    · rintro token text rfl
      cases a with
      | notify event =>
        rw [← List.mem_singleton.1 hm] at hr
        obtain ⟨line, rfl, hc, hh⟩ := reaches_notify hr
        exact ⟨⟨line, he, hc⟩, hk text hh⟩
      | _ => cases hm

/-- What is known on both sides: the commands that the worker was told of and has not taken are
    registered, and those that it has taken were when it took them. -/
structure Sound (c : Config) (s : Tandem) : Prop where
  loop : Halfway c s.events s.commands s.loop
  mailbox : ∀ e ∈ s.mailbox, Known s.events s.commands e
  taken : ∀ t ∈ s.taken, Known s.events t.2 t.1

/-- Registering a command leaves all of it known. -/
theorem Sound.grow (h : Sound c s) {work : Work} (hg : Grows s.commands commands') :
    Sound c { s with work, commands := commands' } where
  loop := h.loop.grow hg
  mailbox := fun e he => (h.mailbox e he).mono (fun _ h => h) hg
  taken := h.taken

theorem Course.sound (hs : Course c s) : Sound c s := by
  induction hs with
  | start g _ => exact ⟨.done _, List.forall_mem_nil _, List.forall_mem_nil _⟩
  | @event s i e _ _ ih =>
    have hsub : s.events ⊆ s.events ++ [e] := List.subset_append_left _ _
    exact ⟨.within (List.mem_append_right _ (List.mem_singleton_self e)) (.refl _) nofun,
      fun e he => (ih.mailbox e he).mono hsub fun _ h => h,
      fun t ht => (ih.taken t ht).mono hsub fun _ h => h⟩
  | act r _ hl ha ih =>
    obtain ⟨hloop, hn⟩ := (hl ▸ ih.loop).act r ha
    exact ⟨hloop, List.forall_mem_append.2 ⟨ih.mailbox, hn⟩, ih.taken⟩
  | turn _ _ hm ih =>
    have hb := ih.mailbox
    rw [hm, List.forall_mem_cons] at hb
    exact ⟨ih.loop, hb.2, List.forall_mem_append.2 ⟨ih.taken, List.forall_mem_singleton.2 hb.1⟩⟩
  | call r _ _ ih => exact ih.grow (grows_registry _ _)
  | register name handler _ ih => exact ih.grow (grows_insert _ _ _)

/-- The control loop goes on by several calls. -/
theorem Course.acts {loop : Control (Instance × Option InstanceEnd)} (hs : Course c s)
    (hr : Reaches s.loop log loop) (ha : AnsweredBy s.commands log) :
    Course c { s with loop, mailbox := s.mailbox ++ notices log } := by
  generalize hl : s.loop = start at hr
  induction hr generalizing s with
  | refl p =>
    subst hl
    rwa [notices, List.filterMap_nil, List.append_nil]
  | @call a next log q r _ ih =>
    have hfirst := hs.act r hl fun text known hm =>
      ha text known (List.mem_cons.2 (.inl (List.mem_singleton.1 hm)))
    have hrest := ih hfirst (fun text known hm => ha text known (List.mem_cons_of_mem _ hm)) rfl
    rwa [List.append_assoc, ← notices_append] at hrest

end Tandem

/-- Every line names one command, with one argument text. Whatever commands are registered, a
    simulated target and the worker's connection to the debugger both carry the line out by the
    handler of that name, with that text; without a handler they both fail for that, and do nothing
    else. The control loop takes a line for a registered command exactly if it is not blank and there
    is a handler of that name. So the worker has a handler for each command that the control loop
    tells it of, whatever is registered before it comes to it. -/
theorem commands_found_alike (line : String) :
    ∃ name arguments, (∀ name' arguments', Invokes line.toList name' arguments' ↔
        name' = name ∧ arguments' = arguments) ∧
      (∀ (commands : Registry) handler, commands.find? (String.ofList name) = some handler →
        (∀ t : Simulated, t.commands = commands →
          t.runCommand line = t.run (widen (handler (String.ofList arguments)))) ∧
        carryOut (runCommand commands line) =
          carryOut (widen (handler (String.ofList arguments)))) ∧
      (∀ commands : Registry, commands.find? (String.ofList name) = none →
        (∀ t : Simulated, t.commands = commands →
          t.runCommand line = (.error (.undefinedCommand (String.ofList name)), t)) ∧
        carryOut (runCommand commands line) =
          .done (.error (.undefinedCommand (String.ofList name)))) ∧
      (∀ commands, handles commands line ↔ (¬∀ c ∈ line.toList, Text.isBlank c) ∧
        (commands.find? (String.ofList name)).isSome) ∧
      ∀ c s, Tandem.Course c s → ∀ token commands,
        (.userCommand token line, commands) ∈ s.taken →
        (∃ typed, .input typed ∈ s.events ∧
          consoleInput? (Text.trimmed typed) = some (token, line)) ∧
        ∃ handler, commands.find? (String.ofList name) = some handler ∧ ∀ w : Worker,
          w.react commands (.userCommand token line) =
            .bind (carryOut (widen (handler (String.ofList arguments)))) fun r =>
              .done (w, some ⟨token, failure r⟩) := by
  obtain ⟨name, arguments, hi⟩ := exists_invokes line.toList
  refine ⟨name, arguments, fun name' arguments' => ⟨fun h => hi.unique h, ?_⟩,
    fun commands handler hf => ⟨?_, congrArg carryOut (runCommand_of_some hi hf)⟩,
    fun commands hf => ⟨?_, congrArg carryOut (runCommand_of_none hi hf)⟩,
    fun commands => handles_iff hi, fun c s hs token commands ht => ?_⟩
  · rintro ⟨rfl, rfl⟩
    exact hi
  · rintro t rfl
    rw [Simulated.runCommand, runCommand_of_some hi hf]
  · rintro t rfl
    rw [Simulated.runCommand, runCommand_of_none hi hf]
    rfl
  · obtain ⟨hl, hh⟩ := hs.sound.taken _ ht token line rfl
    obtain ⟨handler, hf⟩ := Option.isSome_iff_exists.1 ((handles_iff hi).1 hh).2
    exact ⟨hl, handler, hf, fun w => react_userCommand w hi hf⟩

/-- A command behind a blank that is not of the ASCII set, in a request to carry out a console
    command. Another handler is registered under its name before the worker comes to it. -/
theorem commands_found_alike_replaced :
    let c : Config :=
      { root := "/", debugger := ["gdb"], transcript := none, automation := some {} }
    let text := "\u3000modules\tall"
    ∃ s commands, Tandem.Course c s ∧ (.userCommand none text, commands) ∈ s.taken ∧
      ∃ handler, commands.find? "modules" = some handler ∧ ∀ w : Worker,
        w.react commands (.userCommand none text) =
          .bind (carryOut (widen (handler "all"))) fun r => .done (w, some ⟨none, failure r⟩) := by
  intro c text
  let typed := "-interpreter-exec console \"\u3000modules\\tall\""
  let i := Instance.new c 1
  have registered := (Tandem.Course.start (c := c) 1 rfl).register "modules" fun _ => .done (.ok ())
  have asked := registered.event (i := i) (.input typed) rfl
  have told : Path (i.onEvent c (.input typed)) _ (i, none) :=
    path_bind_done.2 ⟨(), Instance.path_onInput.2 (.inl ⟨none, text, by decide +kernel, rfl⟩), rfl⟩
  have passedOn := asked.acts told.reaches (by
    intro text known hm
    obtain ⟨⟨⟩⟩ | hm := List.mem_cons.1 hm
    · rw [← handles_iff_namesCommand]
      decide +kernel
    · simp [tellings] at hm)
  have replaced := passedOn.register "modules" fun _ => .done (.error (.unknownSymbol "modules"))
  have taken := replaced.turn rfl rfl
  have hline : ['\u3000'] ++ ("modules".toList ++ "\tall".toList) = text.toList := by
    decide +kernel
  have htail : Text.trim "\tall".toList = "all".toList := by decide +kernel
  have invokes : Invokes text.toList "modules".toList "all".toList :=
    hline ▸ htail ▸ .word (List.forall_mem_singleton.2 rfl) (by decide) (by simp [Text.isBlank])
      fun _ hc => by cases hc; decide
  obtain ⟨name, arguments, hi, -, -, -, h⟩ := commands_found_alike text
  obtain ⟨rfl, rfl⟩ := (hi _ _).1 invokes
  obtain ⟨-, handler, hf, hw⟩ := h c _ taken none _ (List.mem_singleton_self _)
  exact ⟨_, _, taken, List.mem_singleton_self _, handler, hf, hw⟩

end KernelProbe.Session
