import KernelProbe.Proofs.Session.Notices
import KernelProbe.Proofs.Text.Blank
import KernelProbe.Session.Supervisor

/-!
# Lines of the operator

All that happens to a session waits in one queue, whichever debugger runs or none, and the
session takes the oldest event whenever it goes on with a debugger (`Course`). A line of the
operator is taken by the debugger of the moment, and goes to its worker or to the debugger itself
(`Routed`).

* `path_step_running` and `path_step_of_not_running`: what a session takes and does in one step;
* `Course.conserved`: the events that came are those that were taken and those that wait;
* `operator_lines_routed`: the lines of the operator are taken in their order, each by one
  debugger, and each takes one of the two routes.
-/

namespace KernelProbe.Session

open Automation Debugger Mi Program

variable {α : Type} {c : Config} {i i' : Instance} {line : String} {g : Nat} {e : Event}
  {commands : Registry} {log : Log surroundings} {phase phase' : Phase}

/-! ## The two routes of a line -/

/-- The first word of a text, behind blanks and up to the next one, is the name of a registered
    command. -/
def NamesCommand (commands : Registry) (text : String) : Prop :=
  ∃ w name t, text.toList = w ++ (name ++ t) ∧ (∀ c ∈ w, Text.isBlank c) ∧ Text.IsWord name ∧
    Text.EndsWord t ∧ (commands.find? (String.ofList name)).isSome

/-- The control loop asks for the first word. -/
theorem handles_iff_namesCommand {text : String} :
    handles commands text ↔ NamesCommand commands text := by
  rw [handles]
  constructor
  · intro h
    cases hf : Text.firstWord? text.toList with
    | none =>
      rw [hf] at h
      cases h
    | some name =>
      rw [hf] at h
      obtain ⟨w, t, he, hw, hn, hr, ht⟩ := Text.firstWord?_eq_some_iff.1 hf
      exact ⟨w, name, t, he, hw, ⟨hn, hr⟩, ht, h⟩
  · rintro ⟨w, name, t, he, hw, ⟨hn, hr⟩, ht, hs⟩
    rw [Text.firstWord?_eq_some_iff.2 ⟨w, t, he, hw, hn, hr, ht⟩]
    exact hs

/-- A line of the operator is a registered command of the worker, with a token before it or
    without. -/
structure IsUserCommand (c : Config) (commands : Registry) (line : String)
    (token : Option UInt64) (text : String) : Prop where
  automation : c.automation.isSome
  input : consoleInput? (Text.trimmed line) = some (token, text)
  registered : NamesCommand commands text

/-- What is done at a line of the operator. -/
inductive Routed (c : Config) (commands : Registry) (line : String) (log : Log surroundings) :
    Prop
  /-- The worker is told of its command once, and nothing is written to the debugger. -/
  | toWorker {token : Option UInt64} {text : String} :
      IsUserCommand c commands line token text → notices log = [.userCommand token text] →
      writes log = [] → Routed c commands line log
  /-- One line is written to the debugger, which is made to end if it does not take the line, and
      the worker is told nothing. -/
  | toDebugger : (∀ token text, ¬IsUserCommand c commands line token text) → notices log = [] →
      writes log = [fillRoot (Text.trimmed line) c.root] →
      ((∃ written, ⟨.write written, false⟩ ∈ log) ↔ ⟨.terminate, ()⟩ ∈ log) →
      Routed c commands line log

/-- The question for a registered command is answered by the commands that are registered. -/
def AnsweredBy (commands : Registry) (log : Log surroundings) : Prop :=
  ∀ text known, ⟨.handles text, known⟩ ∈ log → (known = true ↔ NamesCommand commands text)

theorem refused_iff_terminated {command : String} (hp : Path (sendCommand c command) log ()) :
    (∃ written, ⟨.write written, false⟩ ∈ log) ↔ ⟨.terminate, ()⟩ ∈ log := by
  obtain ⟨line, taken, rfl, rfl⟩ := path_sendCommand.1 hp
  unfold filledEntry
  split <;> cases taken <;> simp [afterWrite]

theorem routed_of_onInput (ha : i.automated = c.automation.isSome) (hc : AnsweredBy commands log)
    (hp : Path (i.onInput c line) log ()) : Routed c commands line log := by
  have hu : ∀ token text, i.userCommand? line = some (token, text) ↔
      c.automation.isSome ∧ consoleInput? (Text.trimmed line) = some (token, text) := by
    intro token text
    rw [Instance.userCommand?, ha]
    cases c.automation.isSome <;> simp
  rcases Instance.path_onInput.1 hp with ⟨token, text, h, rfl⟩ | ⟨asked, sent, hs, rfl, h⟩
  · obtain ⟨hauto, hin⟩ := (hu _ _).1 h
    exact .toWorker ⟨hauto, hin, (hc text true List.mem_cons_self).1 rfl⟩ rfl rfl
  · have hn : notices sent = [] := notices_of_sends fun e he => only_sendCommand c _ hs e he
    have hw := writes_sendCommand hs
    have hr := refused_iff_terminated hs
    rcases h with ⟨h, rfl⟩ | ⟨token, text, h, rfl⟩
    · refine .toDebugger (fun token text hi => ?_) hn hw hr
      rw [(hu _ _).2 ⟨hi.automation, hi.input⟩] at h
      cases h
    · refine .toDebugger (fun token' text' hi => ?_) hn hw (by simpa using hr)
      rw [(hu _ _).2 ⟨hi.automation, hi.input⟩] at h
      obtain ⟨⟩ := h
      exact absurd ((hc _ _ List.mem_cons_self).2 hi.registered) Bool.false_ne_true

/-! ## Other events -/

/-- The worker is told of no command. -/
def TellsNoCommand (log : Log surroundings) : Prop :=
  ∀ token text, WorkerEvent.userCommand token text ∉ notices log

theorem tellsNoCommand_of_path {o : Option InstanceEnd} (he : ∀ line, e ≠ .input line)
    (hp : Path (i.onEvent c e) log (i', o)) : TellsNoCommand log := by
  intro token text hm
  cases (Instance.outcome_of_path hp).1 with
  | line hp =>
    rcases Instance.path_onLine.1 hp with ⟨_, _, _, -, -, -, rfl, -⟩ | ⟨-, ho⟩
    · cases hm
    · obtain ⟨sent, hs, rfl, -⟩ := Instance.path_onOtherLine.1 ho
      have hn : notices sent = [] := notices_of_sends fun e he => only_sendAll c _ hs e he
      change _ ∈ notices (sent ++ tellings _) at hm
      rw [notices_append, hn, notices_tellings, List.nil_append] at hm
      exact Instance.userCommand_not_mem_heard hm
  | request hp =>
    obtain ⟨_, -, ⟨rfl, -⟩ | ⟨rfl, -⟩⟩ := Instance.path_onRequest.1 hp <;> cases hm
  | input _ => exact he _ rfl
  | _ => cases hm

/-! ## Steps of a session -/

/-- What a session does through its control loop, in order. -/
def actions (log : Log system) : Log surroundings :=
  log.filterMap fun
    | ⟨.act a, answer⟩ => some ⟨a, answer⟩
    | _ => none

/-- The events that a session takes, in order. -/
def awaited (log : Log system) : List Event :=
  log.filterMap fun
    | ⟨.awaitEvent, .event e⟩ => some e
    | _ => none

/-- An exchange of the control loop as one of the session. -/
def ofControl (e : Exchange surroundings) : Exchange system := ⟨.act e.call, e.answer⟩

theorem actions_ofControl (log : Log surroundings) : actions (log.map ofControl) = log := by
  induction log with
  | nil => rfl
  | cons e log ih => exact congrArg (e :: ·) ih

theorem awaited_ofControl (log : Log surroundings) : awaited (log.map ofControl) = [] := by
  induction log with
  | nil => rfl
  | cons e log ih => exact ih

theorem path_control {p : Control α} {log : Log system} {a : α} :
    Path (control p) log a ↔ ∃ done, Path p done a ∧ log = done.map ofControl := by
  unfold control
  induction p generalizing log with
  | done b =>
    constructor
    · intro h
      obtain ⟨rfl, rfl⟩ := path_done.1 h
      exact ⟨[], .done _, rfl⟩
    · rintro ⟨done, h, rfl⟩
      obtain ⟨rfl, rfl⟩ := path_done.1 h
      exact .done _
  | call call next ih =>
    constructor
    · intro h
      obtain ⟨r, rest, rfl, h'⟩ := path_ask_bind.1 h
      obtain ⟨done, hd, rfl⟩ := (ih r).1 h'
      exact ⟨⟨call, r⟩ :: done, path_call.2 ⟨r, done, rfl, hd⟩, rfl⟩
    · rintro ⟨done, h, rfl⟩
      obtain ⟨r, rest, rfl, h'⟩ := path_call.1 h
      exact path_ask_bind.2 ⟨r, _, rfl, (ih r).2 ⟨rest, h', rfl⟩⟩

/-- What a session takes and does in one step with a debugger. -/
inductive StepTaken (c : Config) (i : Instance) (log : Log system) : Phase → Prop
  /-- The debugger goes on behind the event. -/
  | goesOn {e : Event} {i' : Instance} : awaited log = [e] →
      Path (i.onEvent c e) (actions log) (i', none) → StepTaken c i log (.running i')
  /-- The event is the last one of the debugger. -/
  | leaves {e : Event} {phase' : Phase} : awaited log = [e] → (i.end? e).isSome →
      (∀ a ∈ actions log, a.call = .terminate) → (∀ i', phase' ≠ .running i') →
      (∀ g, phase' = .starting g → g = i.generation) → StepTaken c i log phase'
  | interrupted : awaited log = [] → (∀ a ∈ actions log, a.call = .terminate) →
      StepTaken c i log .leaving

theorem path_endDebugger {log : Log system} (hp : Path endDebugger log ()) :
    log = [⟨.act .terminate, ()⟩, ⟨.awaitDebugger, ()⟩] := by
  obtain ⟨_, _, _, h₁, h₂, rfl⟩ := path_bind.1 hp
  obtain ⟨done, hd, rfl⟩ := path_control.1 h₁
  rw [path_ask.1 hd, path_ask.1 h₂]
  rfl

theorem path_launch {role : Role} {commandLine : List String} {log : Log system}
    {r : Except StartError Unit} (hp : Path (launch role commandLine) log r) :
    awaited log = [] ∧ actions log = [] := by
  unfold launch at hp
  split at hp
  · obtain ⟨rfl, -⟩ := path_done.1 hp
    exact ⟨rfl, rfl⟩
  · obtain ⟨started, _, rfl, h⟩ := path_ask_bind.1 hp
    cases started <;> obtain ⟨rfl, -⟩ := path_done.1 h <;> exact ⟨rfl, rfl⟩

theorem path_step_running {log : Log system} (hp : Path (step c (.running i)) log phase') :
    StepTaken c i log phase' := by
  obtain ⟨stimulus, rest, rfl, hs⟩ := path_ask_bind.1 hp
  cases stimulus with
  | interrupt =>
    obtain ⟨_, h, rfl⟩ := path_bind_done.1 hs
    rw [path_endDebugger h]
    exact .interrupted rfl (List.forall_mem_singleton.2 rfl)
  | event e =>
    obtain ⟨first, ⟨i', o⟩, second, h₁, h₂, rfl⟩ := path_bind.1 hs
    obtain ⟨done, hd, rfl⟩ := path_control.1 h₁
    obtain ⟨ho, rfl⟩ := Instance.outcome_of_path hd
    cases he : i.end? e with
    | none =>
      rw [he] at hd h₂
      obtain ⟨rfl, rfl⟩ := path_done.1 h₂
      rw [List.append_nil]
      have ha := actions_ofControl done
      exact .goesOn (congrArg (e :: ·) (awaited_ofControl done)) (ha.symm ▸ hd)
    | some o =>
      obtain rfl := ho.eq_nil (by rw [he]; rfl)
      rw [he] at h₂
      cases o with
      | exited =>
        obtain ⟨_, _, rfl, h₃⟩ := path_ask_bind.1 h₂
        obtain ⟨interrupted, _, rfl, h₄⟩ := path_ask_bind.1 h₃
        have hc := ho.continues.generation
        cases interrupted <;> obtain ⟨rfl, rfl⟩ := path_done.1 h₄
        · exact .leaves rfl (by rw [he]; rfl) nofun nofun fun g hg => by cases hg; exact hc
        · exact .leaves rfl (by rw [he]; rfl) nofun nofun nofun
      | inputClosed =>
        obtain ⟨_, h, rfl⟩ := path_bind_done.1 h₂
        rw [path_endDebugger h]
        exact .leaves rfl (by rw [he]; rfl) (List.forall_mem_singleton.2 rfl) nofun nofun

/-- Without a debugger, a session takes no event, and at most starts the next debugger. -/
theorem path_step_of_not_running {log : Log system} (hr : ∀ i, phase ≠ .running i)
    (hp : Path (step c phase) log phase') :
    awaited log = [] ∧ actions log = [] ∧ (∀ g, phase' ≠ .starting g) ∧
      ∀ i, phase' = .running i → ∃ g, phase = .starting g ∧ i = .new c (g + 1) := by
  cases phase with
  | starting g =>
    obtain ⟨status, rest, rfl, h⟩ := path_ask_bind.1 hp
    cases status with
    | some code =>
      obtain ⟨rfl, rfl⟩ := path_done.1 h
      exact ⟨rfl, rfl, nofun, nofun⟩
    | none =>
      obtain ⟨first, started, second, h₁, h₂, rfl⟩ := path_bind.1 h
      obtain ⟨hw, ha⟩ := path_launch h₁
      cases started with
      | error _ =>
        obtain ⟨rfl, rfl⟩ := path_done.1 h₂
        rw [List.append_nil]
        exact ⟨hw, ha, nofun, nofun⟩
      | ok _ =>
        obtain ⟨rfl, rfl⟩ := path_done.1 h₂
        rw [List.append_nil]
        exact ⟨hw, ha, nofun, fun i hi => ⟨g, rfl, by cases hi; rfl⟩⟩
  | running i => exact absurd rfl (hr i)
  | leaving =>
    obtain ⟨_, _, rfl, h⟩ := path_ask_bind.1 hp
    obtain ⟨rfl, rfl⟩ := path_done.1 h
    exact ⟨rfl, rfl, nofun, nofun⟩
  | ended _ =>
    obtain ⟨rfl, rfl⟩ := path_done.1 hp
    exact ⟨rfl, rfl, nofun, nofun⟩

/-! ## Courses of a session -/

/-- The line of the operator in an event. -/
def Event.operatorLine? : Event → Option String
  | .input line => some line
  | _ => none

/-- The lines of the operator among events, in order. -/
def operatorLines (events : List Event) : List String :=
  events.filterMap Event.operatorLine?

/-- A step that a session has taken. -/
structure Move where
  phase : Phase
  /-- The commands that are registered at the step. -/
  commands : Registry
  log : Log system

/-- The lines of the operator that were taken in a step. -/
def Move.lines (m : Move) : List String :=
  operatorLines (awaited m.log)

/-- The phase in which a debugger starts. -/
def Phase.isStart : Phase → Bool
  | .starting _ => true
  | _ => false

/-- The number of debuggers that were started, or were to be. -/
def starts (moves : List Move) : Nat :=
  moves.countP (·.phase.isStart)

/-- A session between two steps. -/
structure Situation where
  /-- All that has happened to the session, oldest first. -/
  arrived : List Event
  /-- What waits for the session, oldest first. -/
  queue : List Event
  phase : Phase
  /-- The commands that are registered with the worker of the debugger. -/
  commands : Registry
  /-- The steps that were taken, oldest first. -/
  moves : List Move

/-- The courses of a session, for all that may happen to it at any time and for all answers of its
    surroundings; the question for a registered command alone has a right answer. -/
inductive Course (c : Config) : Situation → Prop
  | start {log : Log system} {phase : Phase} : Path (start c) log phase →
      Course c ⟨[], [], phase, .empty, []⟩
  /-- Something happens, whichever debugger runs or none. -/
  | arrive {s : Situation} (e : Event) : Course c s →
      Course c { s with arrived := s.arrived ++ [e], queue := s.queue ++ [e] }
  /-- The worker registers a command. -/
  | register {s : Situation} (name : String) (handler : Handler) : Course c s →
      Course c { s with commands := s.commands.insert name handler }
  /-- The session takes a step, and the oldest event if it waits for one. The next debugger gets a
      worker without commands. -/
  | move {s : Situation} {log : Log system} {phase : Phase} {queue : List Event} : Course c s →
      Path (step c s.phase) log phase → s.queue = awaited log ++ queue →
      AnsweredBy s.commands (actions log) →
      Course c { s with
        queue
        phase
        commands := if s.phase.isStart then .empty else s.commands
        moves := s.moves ++ [⟨s.phase, s.commands, log⟩] }

/-- What is done in a step when `g` debuggers have been started. -/
inductive Move.Sound (c : Config) (g : Nat) (m : Move) : Prop
  /-- The debugger of the moment takes a line of the operator. -/
  | line {i : Instance} {line : String} : m.phase = .running i → i.generation = g →
      m.lines = [line] → Routed c m.commands line (actions m.log) → m.Sound c g
  /-- No line is taken. -/
  | other : m.lines = [] → TellsNoCommand (actions m.log) → m.Sound c g

variable {s : Situation} {queue : List Event}

/-- The debugger of the moment is the one that was started last. -/
structure Phase.Current (c : Config) (started : Nat) (p : Phase) : Prop where
  starting : ∀ g, p = .starting g → g = started
  running : ∀ i, p = .running i → i.generation = started ∧ i.automated = c.automation.isSome

theorem Phase.current_of_start {log : Log system} (hp : Path (start c) log phase) :
    phase.Current c 0 := by
  obtain ⟨_, opened, _, -, h, -⟩ := path_bind.1 hp
  cases opened with
  | error _ =>
    obtain ⟨-, rfl⟩ := path_done.1 h
    exact ⟨nofun, nofun⟩
  | ok _ =>
    obtain ⟨_, started, _, -, h', -⟩ := path_bind.1 h
    cases started <;> obtain ⟨-, rfl⟩ := path_done.1 h'
    · exact ⟨nofun, nofun⟩
    · exact ⟨fun g hg => by cases hg; rfl, nofun⟩

/-- One step is sound, and leads on with the debugger that was started last. -/
theorem sound_of_step {log : Log system} (hc : phase.Current c g)
    (hp : Path (step c phase) log phase') (ha : AnsweredBy commands (actions log)) :
    Move.Sound c g ⟨phase, commands, log⟩ ∧ phase'.Current c (g + phase.isStart.toNat) := by
  by_cases hr : ∃ i, phase = .running i
  · obtain ⟨i, rfl⟩ := hr
    obtain ⟨hg, hi⟩ := hc.running i rfl
    have quiet : (∀ a ∈ actions log, a.call = .terminate) → TellsNoCommand (actions log) := by
      intro h token text hm
      rw [notices_of_sends fun a he => h a he ▸ trivial] at hm
      cases hm
    cases path_step_running hp with
    | @goesOn e i' hw hd =>
      obtain ⟨ho, -⟩ := Instance.outcome_of_path hd
      refine ⟨?_, nofun, fun j hj => ?_⟩
      · by_cases he : ∃ line, e = .input line
        · obtain ⟨line, rfl⟩ := he
          exact .line rfl hg (congrArg operatorLines hw) (routed_of_onInput hi ha ho.onInput)
        · rw [not_exists] at he
          refine .other ?_ (tellsNoCommand_of_path he hd)
          rw [Move.lines, hw]
          cases e with
          | input line => exact absurd rfl (he line)
          | _ => rfl
      · obtain rfl := Phase.running.inj hj
        exact ⟨ho.continues.generation.trans hg, ho.continues.automated.trans hi⟩
    | @leaves e _ hw he hn hr hs =>
      refine ⟨.other ?_ (quiet hn), fun g' hg' => (hs g' hg').trans hg,
        fun j hj => absurd hj (hr j)⟩
      rw [Move.lines, hw]
      cases e with
      | input _ => cases he
      | _ => rfl
    | interrupted hw hn =>
      exact ⟨.other (congrArg operatorLines hw) (quiet hn), nofun, nofun⟩
  · rw [not_exists] at hr
    obtain ⟨hw, hn, hs, hj⟩ := path_step_of_not_running hr hp
    refine ⟨.other (congrArg operatorLines hw) ?_, fun g' hg' => absurd hg' (hs g'),
      fun i hi => ?_⟩
    · rw [hn]
      exact fun _ _ => List.not_mem_nil
    · obtain ⟨g', rfl, rfl⟩ := hj i hi
      exact ⟨congrArg (· + 1) (hc.starting g' rfl), rfl⟩

namespace Course

/-- What came to a session was taken or waits, in the order in which it came. -/
theorem conserved (hs : Course c s) :
    s.arrived = (s.moves.flatMap fun m => awaited m.log) ++ s.queue := by
  induction hs with
  | start _ => rfl
  | arrive e _ ih =>
    dsimp only
    rw [ih, List.append_assoc]
  | register _ _ _ ih => exact ih
  | @move s log phase queue _ _ hq _ ih =>
    rw [hq] at ih
    simp [ih]

theorem current (hs : Course c s) : s.phase.Current c (starts s.moves) := by
  induction hs with
  | start hp => exact Phase.current_of_start hp
  | arrive _ _ ih => exact ih
  | register _ _ _ ih => exact ih
  | @move s _ _ _ _ hp _ ha ih =>
    have h := (sound_of_step ih hp ha).2
    unfold starts at h ⊢
    rw [List.countP_append, List.countP_singleton]
    cases hs : s.phase.isStart <;> rwa [hs] at h

theorem sound (hs : Course c s) {before after : List Move} {m : Move}
    (hm : s.moves = before ++ m :: after) : m.Sound c (starts before) := by
  induction hs generalizing after with
  | start _ => simp at hm
  | arrive _ _ ih => exact ih hm
  | register _ _ _ ih => exact ih hm
  | move hs hp _ ha ih =>
    rcases concat_eq_append_cons hm with ⟨rfl, rfl, -⟩ | ⟨rest, hr, -⟩
    · exact (sound_of_step hs.current hp ha).1
    · exact ih hr

/-- The debugger of the moment takes the oldest line, whatever it and the worker answer. -/
theorem take (hs : Course c s) (hr : s.phase = .running i)
    (hq : s.queue = .input line :: queue) (hp : Path (i.onInput c line) log ())
    (ha : AnsweredBy s.commands log) :
    ∃ m, m.lines = [line] ∧ actions m.log = log ∧
      Course c { s with queue, moves := s.moves ++ [m] } := by
  let taken : Log system := ⟨.awaitEvent, .event (.input line)⟩ :: log.map ofControl
  have step : Path (step c s.phase) taken s.phase := by
    rw [hr]
    refine path_ask_bind.2 ⟨.event (.input line), _, rfl, ?_⟩
    refine path_bind.2 ⟨log.map ofControl, (i, none), [], ?_, .done _, (List.append_nil _).symm⟩
    exact path_control.2 ⟨log, path_bind_done.2 ⟨(), hp, rfl⟩, rfl⟩
  have hw : awaited taken = [.input line] := congrArg (_ :: ·) (awaited_ofControl log)
  have hl : actions taken = log := actions_ofControl log
  have hw' : s.queue = awaited taken ++ queue := by
    rw [hw, hq]
    rfl
  have h := hs.move step hw' (hl.symm ▸ ha)
  rw [show s.phase.isStart = false from hr ▸ rfl, if_neg nofun] at h
  exact ⟨⟨s.phase, s.commands, taken⟩, congrArg operatorLines hw, hl, h⟩

end Course

/-- In every course of a session, the lines of the operator that have come are those that were
    taken, in the order of the steps that took them, and behind them those that wait. A step takes
    one line at most, and only with a debugger, which is then the one that was started last; the
    line goes either to the worker, if it is a registered command, or to that debugger. In a step
    that takes no line, the worker is told of no command. -/
theorem operator_lines_routed (hs : Course c s) :
    operatorLines s.arrived = s.moves.flatMap Move.lines ++ operatorLines s.queue ∧
    ∀ before m after, s.moves = before ++ m :: after →
      (∃ i line, m.phase = .running i ∧ i.generation = starts before ∧ m.lines = [line] ∧
        Routed c m.commands line (actions m.log)) ∨
      (m.lines = [] ∧ ∀ token text, .userCommand token text ∉ notices (actions m.log)) := by
  constructor
  · rw [hs.conserved, operatorLines, List.filterMap_append, List.filterMap_flatMap]
    rfl
  · intro before m after hm
    cases hs.sound hm with
    | line hp hg hl hr => exact .inl ⟨_, _, hp, hg, hl, hr⟩
    | other hl hn => exact .inr ⟨hl, hn⟩

/-- A command that the operator types before there is a debugger goes to the worker that has
    registered it by then, and the line behind it to the debugger. -/
theorem operator_lines_routed_waiting :
    let c : Config :=
      { root := "/", debugger := ["gdb"], transcript := none, automation := some {} }
    ∃ s, Course c s ∧ s.arrived = [.input "modules", .input "-exec-run"] ∧
      s.moves.flatMap Move.lines = ["modules", "-exec-run"] ∧
      (∃ m ∈ s.moves, m.lines = ["modules"] ∧
        notices (actions m.log) = [.userCommand none "modules"] ∧ writes (actions m.log) = []) ∧
      ∃ m ∈ s.moves, m.lines = ["-exec-run"] ∧
        notices (actions m.log) = [] ∧ writes (actions m.log) = ["-exec-run"] := by
  intro c
  let i := Instance.new c 1
  have started : Path (start c) [⟨.spawn .emulator c.emulator, .ok ()⟩] (.starting 0) :=
    .call _ (.done _)
  have launched : Path (step c (.starting 0))
      [⟨.emulatorStatus, none⟩, ⟨.spawn .debugger c.debugger, .ok ()⟩] (.running i) :=
    .call _ (.call _ (.done _))
  have typed := ((Course.start started).arrive (.input "modules")).arrive (.input "-exec-run")
  have running := (typed.move launched rfl nofun).register "modules" fun _ => .done (.ok ())
  let commands : Registry := Dict.insert .empty "modules" fun _ => .done (.ok ())
  have passedOn : ∃ log, Path (i.onInput c "modules") log () ∧ AnsweredBy commands log ∧
      notices log = [.userCommand none "modules"] ∧ writes log = [] := by
    refine ⟨_, Instance.path_onInput.2 (.inl ⟨none, "modules", by decide +kernel, rfl⟩), ?_,
      rfl, rfl⟩
    intro text known hm
    obtain ⟨⟨⟩⟩ | hm := List.mem_cons.1 hm
    · rw [← handles_iff_namesCommand]
      decide +kernel
    · simp [tellings] at hm
  have written : ∃ log, Path (i.onInput c "-exec-run") log () ∧ AnsweredBy commands log ∧
      notices log = [] ∧ writes log = ["-exec-run"] := by
    have hp : Path (sendCommand c "-exec-run") _ () := path_sendCommand.2 ⟨_, true, rfl, rfl⟩
    refine ⟨_, Instance.path_onInput.2 (.inr ⟨[], _, hp, rfl, .inl ⟨by decide +kernel, rfl⟩⟩), ?_,
      notices_of_sends fun e he => only_sendCommand c _ hp e he,
      (writes_sendCommand hp).trans (by decide +kernel)⟩
    intro text known hm
    unfold filledEntry at hm
    split at hm <;> simp [afterWrite] at hm
  obtain ⟨_, h₁, a₁, told⟩ := passedOn
  obtain ⟨m₁, l₁, rfl, first⟩ := running.take rfl rfl h₁ a₁
  obtain ⟨_, h₂, a₂, wrote⟩ := written
  obtain ⟨m₂, l₂, rfl, second⟩ := first.take rfl rfl h₂ a₂
  refine ⟨_, second, rfl, ?_, ⟨m₁, by simp, l₁, told⟩, m₂, by simp, l₂, wrote⟩
  have h := (operator_lines_routed second).1
  exact (h.trans (List.append_nil _)).symm

end KernelProbe.Session
