import KernelProbe.Proofs.Session.Resumption

/-!
# What the worker sends

A worker is told events and gets answers, in any order. It takes the events in turns, each of which
sends requests and lines, and the end of a command. A turn that waits for an answer may still come
to different ends (`Turn.Ends`).

* `Takes`: the ways to take an event, by the worker that takes it, with all that is sent;
* `Past`: what has become of the first attachment. One turn more keeps it so (`Past.concat`), and
  hence every worker has such a past (`past_of_served`);
* `Turn.Sends`: what is sent in a turn, by the turns before;
* `Thread.settles`: a worker that goes on to be answered comes to rest, with no event waiting;
* `worker_turns`: all of this for a worker from its start.
-/

namespace KernelProbe.Session

open Automation Debugger Gdb Mi Program

variable {α β : Type} {commands : Registry} {w w' : Worker} {event : WorkerEvent}
  {log : Log channel} {completion : Option Completion} {config : Automation.Config}

/-! ## One event -/

/-- The line for a controller that could not be installed. -/
def disabledLine (e : InstallError) : WorkerMessage :=
  .output s!"Automation disabled: {e.message}"

/-- What the worker sends for an event, whatever it is answered, and the worker behind it. -/
inductive Takes (commands : Registry) :
    Worker → WorkerEvent → List WorkerMessage → Worker → Prop
  | installs {config : Automation.Config} {controller : Option Controller} {log : Log channel}
      {c : Controller} : Path (carryOut (Controller.install config)) log (.ok c) →
      Takes commands ⟨some config, controller⟩ .attach (sentIn log) ⟨none, some c⟩
  | disabled {config : Automation.Config} {controller : Option Controller} {log : Log channel}
      {e : InstallError} : Path (carryOut (Controller.install config)) log (.error e) →
      Takes commands ⟨some config, controller⟩ .attach (sentIn log ++ [disabledLine e])
        ⟨none, controller⟩
  /-- The configuration has been used. -/
  | attached {controller : Option Controller} :
      Takes commands ⟨none, controller⟩ .attach [] ⟨none, controller⟩
  /-- There is no controller. -/
  | unattended {config : Option Automation.Config} {id : HookId} :
      Takes commands ⟨config, none⟩ (.stopped id) [] ⟨config, none⟩
  | stops {config : Option Automation.Config} {c c' : Controller} {id : HookId}
      {log : Log channel} : Path (carryOut (c.onStop translateAddress id)) log (.stop, c') →
      Takes commands ⟨config, some c⟩ (.stopped id) (sentIn log) ⟨config, some c'⟩
  | resumes {config : Option Automation.Config} {c c' : Controller} {id : HookId}
      {log : Log channel} : Path (carryOut (c.onStop translateAddress id)) log (.resume, c') →
      Takes commands ⟨config, some c⟩ (.stopped id) (sentIn log ++ [.request "-exec-continue"])
        ⟨config, some c'⟩
  | succeeds {w : Worker} {token : Option UInt64} {text : String} {log : Log channel} :
      Path (carryOut (runCommand commands text)) log (.ok ()) →
      Takes commands w (.userCommand token text) (sentIn log ++ [.finished ⟨token, none⟩]) w
  | fails {w : Worker} {token : Option UInt64} {text : String} {log : Log channel} {e : Error} :
      Path (carryOut (runCommand commands text)) log (.error e) →
      Takes commands w (.userCommand token text)
        (sentIn log ++ [.finished ⟨token, some e.message⟩]) w

theorem takes_attach (hp : Path w.onAttach log w') : Takes commands w .attach (sentIn log) w' := by
  obtain ⟨config, controller⟩ := w
  cases config with
  | none =>
    obtain ⟨rfl, rfl⟩ := path_done.1 hp
    exact .attached
  | some config =>
    obtain ⟨first, installed, second, h₁, h₂, rfl⟩ := path_bind.1 hp
    cases installed with
    | ok c =>
      obtain ⟨rfl, rfl⟩ := path_done.1 h₂
      rw [List.append_nil]
      exact .installs h₁
    | error e =>
      obtain ⟨_, _, rfl, h₃⟩ := path_ask_bind.1 h₂
      obtain ⟨rfl, rfl⟩ := path_done.1 h₃
      rw [sentIn_append]
      exact .disabled h₁

theorem takes_stopped {id : HookId} (hp : Path (w.onStopped id) log w') :
    Takes commands w (.stopped id) (sentIn log) w' := by
  obtain ⟨config, controller⟩ := w
  cases controller with
  | none =>
    obtain ⟨rfl, rfl⟩ := path_done.1 hp
    exact .unattended
  | some c =>
    obtain ⟨first, ⟨decision, c'⟩, second, h₁, h₂, rfl⟩ := path_bind.1 hp
    cases decision with
    | stop =>
      obtain ⟨rfl, rfl⟩ := path_done.1 h₂
      rw [List.append_nil]
      exact .stops h₁
    | resume =>
      obtain ⟨_, ht, rfl⟩ := path_bind_done.1 h₂
      obtain ⟨answer, rfl⟩ := path_tryCall.1 ht
      rw [sentIn_append]
      exact .resumes h₁

theorem takes_userCommand {token : Option UInt64} {text : String} {c : Completion}
    (hp : Path (Worker.onUserCommand commands token text) log c) :
    Takes commands w (.userCommand token text) (sentIn log ++ [.finished c]) w := by
  obtain ⟨first, result, second, h₁, h₂, rfl⟩ := path_bind.1 hp
  cases result with
  | ok _ =>
    obtain ⟨rfl, rfl⟩ := path_done.1 h₂
    rw [List.append_nil]
    exact .succeeds h₁
  | error e =>
    obtain ⟨rfl, rfl⟩ := path_done.1 h₂
    rw [List.append_nil]
    exact .fails h₁

/-- What the worker does with an event, it does along one of these ways. -/
theorem takes_of_path (hp : Path (w.react commands event) log (w', completion)) :
    Takes commands w event (sentIn log ++ completion.toList.map .finished) w' := by
  cases event with
  | attach =>
    obtain ⟨_, hq, ⟨⟩⟩ := path_bind_done.1 hp
    simpa using takes_attach hq
  | stopped id =>
    obtain ⟨_, hq, ⟨⟩⟩ := path_bind_done.1 hp
    simpa using takes_stopped hq
  | userCommand token text =>
    obtain ⟨c, hq, ⟨⟩⟩ := path_bind_done.1 hp
    exact takes_userCommand hq

/-! ## The turns before -/

/-- The installation of the controller ended in a turn with a result. -/
def Turn.Attaches (config : Automation.Config) (t : Turn) (r : Except InstallError Controller) :
    Prop :=
  t.event = .attach ∧
    ∃ first, first <+: t.log ∧ Path (carryOut (Controller.install config)) first r

/-- An installation makes a request, at least that for the address of the gate. -/
theorem install_log_ne_nil {r : Except InstallError Controller}
    (hp : Path (carryOut (Controller.install config)) log r) : log ≠ [] := by
  rintro rfl
  obtain ⟨preamble⟩ := config
  cases preamble <;> cases hp

/-- A worker behind turns, by what has become of the first attachment. -/
inductive Past (config : Automation.Config) (turns : List Turn) : Worker → Prop
  | unattached : (∀ t ∈ turns, t.event ≠ .attach) → Past config turns (.new config)
  | installed {c c₀ : Controller} {t : Turn} : t ∈ turns → t.Attaches config (.ok c₀) →
      (∀ t ∈ turns, ∀ e, ¬t.Attaches config (.error e)) → Past config turns ⟨none, some c⟩
  | disabled {e : InstallError} {t : Turn} : t ∈ turns → t.Attaches config (.error e) →
      (∀ t ∈ turns, ∀ c, ¬t.Attaches config (.ok c)) → Past config turns ⟨none, none⟩

/-- A turn in which nothing is installed leaves the past as it is. -/
theorem Past.concat_of_not_attaches {turns : List Turn} {t : Turn} (hp : Past config turns w)
    (ht : ∀ r, ¬t.Attaches config r) (hw : w'.config = w.config)
    (hc : w'.controller.isSome = w.controller.isSome) (ha : w.config.isSome → t.event ≠ .attach) :
    Past config (turns ++ [t]) w' := by
  obtain ⟨config', controller⟩ := w'
  cases hp with
  | unattached hn =>
    obtain rfl : config' = some config := hw
    obtain rfl : controller = none := by simpa [Worker.new] using hc
    exact .unattached (List.forall_mem_append.2 ⟨hn, List.forall_mem_singleton.2 (ha rfl)⟩)
  | installed hm hi hn =>
    obtain rfl : config' = none := hw
    obtain ⟨c, rfl⟩ := Option.isSome_iff_exists.1 hc
    refine .installed (List.mem_append_left _ hm) hi (List.forall_mem_append.2 ⟨hn, ?_⟩)
    exact List.forall_mem_singleton.2 fun e => ht _
  | disabled hm hi hn =>
    obtain rfl : config' = none := hw
    obtain rfl : controller = none := by simpa using hc
    refine .disabled (List.mem_append_left _ hm) hi (List.forall_mem_append.2 ⟨hn, ?_⟩)
    exact List.forall_mem_singleton.2 fun e => ht _

/-- The turn of the first attachment decides whether there is a controller. -/
theorem Past.concat_of_attach {turns : List Turn} {t : Turn} (he : t.event = .attach)
    (hn : ∀ t ∈ turns, t.event ≠ .attach)
    (hp : Path (Worker.onAttach ⟨some config, none⟩) t.log w') :
    Past config (turns ++ [t]) w' := by
  have hbefore {u : Turn} (hu : u ∈ turns) (r) : ¬u.Attaches config r := fun ha => hn u hu ha.1
  have hm : t ∈ turns ++ [t] := List.mem_append_right _ (List.mem_singleton_self t)
  obtain ⟨first, result, second, h₁, h₂, hl⟩ := path_bind.1 hp
  have ha : t.Attaches config result := ⟨he, first, ⟨second, hl.symm⟩, h₁⟩
  -- An installation has one result.
  have huniq {r} (h : t.Attaches config r) : r = result := by
    obtain ⟨-, first', hf, h'⟩ := h
    rcases List.prefix_or_prefix_of_prefix hf ⟨second, hl.symm⟩ with hpre | hpre
    · exact (h'.unique h₁ hpre).2
    · exact (h₁.unique h' hpre).2.symm
  cases result with
  | ok c =>
    obtain ⟨rfl, rfl⟩ := path_done.1 h₂
    refine .installed hm ha (List.forall_mem_append.2 ⟨fun u hu e => hbefore hu _, ?_⟩)
    exact List.forall_mem_singleton.2 fun e h => by cases huniq h
  | error e =>
    obtain ⟨_, _, rfl, h₃⟩ := path_ask_bind.1 h₂
    obtain ⟨rfl, rfl⟩ := path_done.1 h₃
    refine .disabled hm ha (List.forall_mem_append.2 ⟨fun u hu e => hbefore hu _, ?_⟩)
    exact List.forall_mem_singleton.2 fun e h => by cases huniq h

/-- A stop and a command leave the worker without a controller, or with one, as it was. -/
theorem Takes.same_automation {sent : List WorkerMessage} (ht : Takes commands w event sent w')
    (he : event ≠ .attach) :
    w'.config = w.config ∧ w'.controller.isSome = w.controller.isSome := by
  cases ht <;> first | exact absurd rfl he | exact ⟨rfl, rfl⟩

namespace Past

variable {turns : List Turn}

theorem eq_new (hp : Past config turns w) (hn : ∀ t ∈ turns, t.event ≠ .attach) :
    w = .new config := by
  cases hp with
  | unattached => rfl
  | installed hm hi => exact absurd hi.1 (hn _ hm)
  | disabled hm hi => exact absurd hi.1 (hn _ hm)

theorem config_eq_none (hp : Past config turns w) (ha : ∃ t ∈ turns, t.event = .attach) :
    w.config = none := by
  cases hp with
  | unattached hn =>
    obtain ⟨t, ht, he⟩ := ha
    exact absurd he (hn t ht)
  | installed => rfl
  | disabled => rfl

theorem eq_none (hp : Past config turns w) (ha : ∃ t ∈ turns, ∃ e, t.Attaches config (.error e)) :
    w = ⟨none, none⟩ := by
  obtain ⟨t, ht, e, hi⟩ := ha
  cases hp with
  | unattached hn => exact absurd hi.1 (hn t ht)
  | installed _ _ hn => exact absurd hi (hn t ht e)
  | disabled => rfl

theorem controller_eq_none (hp : Past config turns w)
    (hn : ∀ t ∈ turns, ∀ c, ¬t.Attaches config (.ok c)) : w.controller = none := by
  cases hp with
  | unattached => rfl
  | installed hm hi => exact absurd hi (hn _ hm _)
  | disabled => rfl

theorem exists_controller (hp : Past config turns w)
    (ha : ∃ t ∈ turns, ∃ c, t.Attaches config (.ok c)) : ∃ c, w.controller = some c := by
  obtain ⟨t, ht, c, hi⟩ := ha
  cases hp with
  | unattached hn => exact absurd hi.1 (hn t ht)
  | installed => exact ⟨_, rfl⟩
  | disabled _ _ hn => exact absurd hi (hn t ht c)

end Past

theorem Past.concat {turns : List Turn} {t : Turn} (hp : Past config turns t.worker) (hr : t.IsRun)
    (ht : t.rest = .done (w', completion)) : Past config (turns ++ [t]) w' := by
  rw [Turn.IsRun, ht] at hr
  have hpath := hr.path (.done _)
  rw [List.append_nil] at hpath
  by_cases he : t.event = .attach
  · rw [he] at hpath
    obtain ⟨_, hq, ⟨⟩⟩ := path_bind_done.1 hpath
    generalize hw : t.worker = w at hp hq
    -- Behind the first attachment the configuration is used up.
    have used {controller : Option Controller} (hc : w = ⟨none, controller⟩) :
        (∀ r, ¬t.Attaches config r) ∧ w' = w := by
      subst hc
      obtain ⟨hl, rfl⟩ := path_done.1 hq
      refine ⟨?_, rfl⟩
      rintro r ⟨-, first, hf, h⟩
      rw [hl, List.prefix_nil] at hf
      exact install_log_ne_nil h hf
    cases hp with
    | unattached hn => exact concat_of_attach he hn hq
    | installed hm hi hn =>
      obtain ⟨ha, rfl⟩ := used rfl
      exact (Past.installed hm hi hn).concat_of_not_attaches ha rfl rfl fun h => by cases h
    | disabled hm hi hn =>
      obtain ⟨ha, rfl⟩ := used rfl
      exact (Past.disabled hm hi hn).concat_of_not_attaches ha rfl rfl fun h => by cases h
  · obtain ⟨hw, hc⟩ := (takes_of_path hpath).same_automation he
    exact hp.concat_of_not_attaches (fun r ha => he ha.1) hw hc fun _ => he

/-- The past of a worker that has taken its turns. -/
theorem past_of_served {turns : List Turn} (hs : Served config turns (.inl w)) :
    Past config turns w := by
  generalize hw : (Sum.inl w : Standing) = state at hs
  induction hs generalizing w with
  | new =>
    cases hw
    exact .unattached (List.forall_mem_nil _)
  | turn _ hr hst ih =>
    subst hw
    generalize hrest : Turn.rest _ = rest at hst
    cases hst
    exact (ih rfl).concat hr hrest

/-! ## The messages of a turn -/

/-- Whether a message tells the end of an operator's command. -/
def WorkerMessage.isFinished : WorkerMessage → Bool
  | .finished _ => true
  | _ => false

/-- The lines for the outcome of an installation. -/
def disabledLines : Except InstallError Controller → List WorkerMessage
  | .ok _ => []
  | .error e => [disabledLine e]

/-- The text of an error, if there is one. -/
def failure : Except Error Unit → Option String
  | .ok _ => none
  | .error e => some e.message

/-- The request that lets the target go on, where the controller says so. -/
def resumption : Decision → List WorkerMessage
  | .stop => []
  | .resume => [.request "-exec-continue"]

namespace Turn

/-- All messages of a turn at an end that it may come to, whatever it is still answered, and the
    worker there. -/
def Ends (t : Turn) (sent : List WorkerMessage) (w : Worker) : Prop :=
  ∃ more completion, Path t.rest more (w, completion) ∧
    sent = sentIn (t.log ++ more) ++ completion.toList.map .finished

/-- What the worker sends in a turn up to its end, and how it stands there, by the event and the
    turns before. -/
structure Sends (config : Automation.Config) (before : List Turn) (t : Turn)
    (sent : List WorkerMessage) (w : Worker) : Prop where
  /-- The first attachment installs the controller. If that fails, one line tells so at the end. -/
  first : t.event = .attach → (∀ u ∈ before, u.event ≠ .attach) →
    ∃ log r, Path (carryOut (Controller.install config)) log r ∧
      (∀ m ∈ sentIn log, m.isRequest) ∧ sent = sentIn log ++ disabledLines r ∧
      w = ⟨none, r.toOption⟩
  again : t.event = .attach → (∃ u ∈ before, u.event = .attach) → sent = [] ∧ w = t.worker
  /-- Once the installation has failed, attachments and stops lead to nothing. -/
  disabled : (∃ u ∈ before, ∃ e, u.Attaches config (.error e)) →
    (t.event = .attach ∨ ∃ id, t.event = .stopped id) → sent = [] ∧ w = t.worker
  unattended : ∀ id, t.event = .stopped id →
    (∀ u ∈ before, ∀ c, ¬u.Attaches config (.ok c)) → sent = [] ∧ w = t.worker
  /-- The controller answers a stop, and the target goes on once if it says so. -/
  stopped : ∀ id, t.event = .stopped id → (∃ u ∈ before, ∃ c, u.Attaches config (.ok c)) →
    ∃ c log decision c', t.worker.controller = some c ∧
      Path (carryOut (c.onStop translateAddress id)) log (decision, c') ∧
      .request "-exec-continue" ∉ sentIn log ∧ sent = sentIn log ++ resumption decision ∧
      w.controller = some c'
  /-- A command of the operator is carried out, and its end is told at the end. -/
  userCommand : ∀ token text, t.event = .userCommand token text →
    ∃ log r, Path (carryOut (runCommand t.commands text)) log r ∧
      (∀ m ∈ sentIn log, m.isFinished = false) ∧
      sent = sentIn log ++ [.finished ⟨token, failure r⟩] ∧ w = t.worker
  other : (∀ token text, t.event ≠ .userCommand token text) → ∀ m ∈ sent, m.isFinished = false

end Turn

theorem isFinished_sentIn (log : Log channel) : ∀ m ∈ sentIn log, m.isFinished = false := by
  intro m hm
  obtain ⟨⟨call, answer⟩, -, he⟩ := List.mem_filterMap.1 hm
  cases call <;> cases he <;> rfl

theorem continueRequest_not_sent {s : Script Handler α} {a : α} (hp : Path (carryOut s) log a) :
    .request continueRequest ∉ sentIn log := by
  intro hm
  have hc : continueRequest ∈ commandsOf (sentIn log) := List.mem_filterMap.2 ⟨_, hm, rfl⟩
  rw [commandsOf_sentIn] at hc
  exact continueRequest_not_mem (only_carryOut s) hp.reaches (List.mem_append_left _ hc)

/-- A message that waits for an answer of the debugger. -/
def IsRequest : Message → Prop
  | .request _ => True
  | _ => False

theorem only_carryOut_bind {P : Message → Prop} {s : Script Handler α} {f : α → Script Handler β}
    (hs : Only P (carryOut s)) (hf : ∀ a, Only P (carryOut (f a))) :
    Only P (carryOut (s.bind f)) := by
  rw [carryOut, substitute_bind]
  exact hs.bind hf

/-- An installation shows nothing to the operator, and registers nothing. -/
theorem only_install (config : Automation.Config) :
    Only IsRequest (carryOut (Controller.install config)) := by
  have quiet {β : Type} {request : String} {f : Record → Except Error β} :
      Only IsRequest ((call request).andThen fun record => .done (f record)) :=
    only_andThen (only_call trivial) fun _ => Only.done _
  have hexecute (commands : List String) : Only IsRequest (carryOut (executeAll commands)) := by
    induction commands with
    | nil => exact Only.done _
    | cons command commands ih =>
      refine only_carryOut_bind (Only.bind quiet fun _ => Only.done _) fun r => ?_
      cases r with
      | error e => exact Only.done _
      | ok _ => exact ih
  have hinstall (table : HookTable) (name : String) (kind : HookKind) :
      Only IsRequest (carryOut (table.install name kind)) := by
    refine only_carryOut_bind (Only.bind quiet fun _ => Only.done _) fun address => ?_
    cases address with
    | error e => exact Only.done _
    | ok address =>
      refine only_carryOut_bind (Only.bind quiet fun _ => Only.done _) fun id => ?_
      cases id <;> exact Only.done _
  refine only_carryOut_bind (hexecute config.preamble) fun prepared => ?_
  cases prepared with
  | error e => exact Only.done _
  | ok _ =>
    refine only_carryOut_bind (hinstall _ _ _) fun installed => ?_
    obtain ⟨result, hooks⟩ := installed
    cases result <;> exact Only.done _

theorem isRequest_sentIn (h : ∀ e ∈ log, IsRequest e.call) : ∀ m ∈ sentIn log, m.isRequest := by
  intro m hm
  obtain ⟨⟨call, answer⟩, he, hs⟩ := List.mem_filterMap.1 hm
  have hc := h _ he
  cases call with
  | request command => cases hs; rfl
  | _ => exact hc.elim

namespace Turn

variable {t : Turn} {before : List Turn} {sent : List WorkerMessage}

/-- What is sent for an event follows from what has become of the first attachment. -/
theorem sends_of_past (hp : Past config before t.worker) (hr : t.IsRun) (h : t.Ends sent w) :
    t.Sends config before sent w := by
  have ht : Takes t.commands t.worker t.event sent w := by
    obtain ⟨more, completion, hq, rfl⟩ := h
    exact takes_of_path (hr.path hq)
  obtain ⟨⟨config', controller⟩, commands, event, log, rest⟩ := t
  dsimp only at hp ht
  refine ⟨?_, ?_, ?_, ?_, ?_, ?_, ?_⟩
  · rintro ⟨⟩ hn
    cases hp.eq_new hn
    cases ht with
    | @installs _ _ log c hi =>
      have hs := isRequest_sentIn (only_install config hi)
      exact ⟨log, .ok c, hi, hs, (List.append_nil _).symm, rfl⟩
    | @disabled _ _ log e hi =>
      exact ⟨log, .error e, hi, isRequest_sentIn (only_install config hi), rfl, rfl⟩
  · rintro ⟨⟩ ha
    cases hp.config_eq_none ha
    cases ht
    exact ⟨rfl, rfl⟩
  · rintro ha (⟨⟨⟩⟩ | ⟨id, ⟨⟩⟩) <;> (cases hp.eq_none ha; cases ht; exact ⟨rfl, rfl⟩)
  · rintro id ⟨⟩ hn
    cases hp.controller_eq_none hn
    cases ht
    exact ⟨rfl, rfl⟩
  · rintro id ⟨⟩ ha
    obtain ⟨c, ⟨⟩⟩ := hp.exists_controller ha
    cases ht with
    | @stops _ _ c' _ log hs =>
      have hn := continueRequest_not_sent hs
      exact ⟨c, log, .stop, c', rfl, hs, hn, (List.append_nil _).symm, rfl⟩
    | @resumes _ _ c' _ log hs =>
      exact ⟨c, log, .resume, c', rfl, hs, continueRequest_not_sent hs, rfl, rfl⟩
  · rintro token text ⟨⟩
    cases ht with
    | @succeeds _ _ _ log hs => exact ⟨log, .ok (), hs, isFinished_sentIn log, rfl, rfl⟩
    | @fails _ _ _ log e hs => exact ⟨log, .error e, hs, isFinished_sentIn log, rfl, rfl⟩
  · intro hn
    have hone {last : WorkerMessage} (log : Log channel) (hl : last.isFinished = false) :
        ∀ m ∈ sentIn log ++ [last], m.isFinished = false :=
      List.forall_mem_append.2 ⟨isFinished_sentIn log, List.forall_mem_singleton.2 hl⟩
    cases ht with
    | installs => exact isFinished_sentIn _
    | disabled => exact hone _ rfl
    | attached => exact List.forall_mem_nil _
    | unattended => exact List.forall_mem_nil _
    | stops => exact isFinished_sentIn _
    | resumes => exact hone _ rfl
    | succeeds => exact absurd rfl (hn _ _)
    | fails => exact absurd rfl (hn _ _)

end Turn

/-! ## Runs -/

/-- What reaches a worker. -/
inductive Input
  /-- It is told an event. -/
  | event (e : WorkerEvent)
  /-- It is answered, or told that there will be no answer. -/
  | answer (record : Option Record)

namespace Thread

/-- A thread with waiting events, once it has gone on with a program. -/
def goesOn (p : Work) (commands : Registry) (mailbox : List WorkerEvent) : Thread :=
  (work (advance p commands).2.1 (advance p commands).2.2 mailbox).2

/-- A thread that is given answers. -/
def answers (t : Thread) (records : List (Option Record)) : Thread :=
  records.foldl (fun t record => (t.answer record).2) t

variable {t : Thread} {replies : Nat → Option Record} {mailbox : List WorkerEvent}

end Thread

namespace WorkerSide

/-- A worker is reached. -/
def take (g : Nat) (s : WorkerSide) : Input → WorkerSide
  | .event e => s.goOn g (s.worker.notify e)
  | .answer record => s.goOn g (s.worker.answer record)

/-- A worker from its start; its messages stay in the outbox. -/
def after (config : Automation.Config) (g : Nat) (inputs : List Input) : WorkerSide :=
  inputs.foldl (take g) ⟨.new config, [], 0⟩

variable {g : Nat} {s : WorkerSide}

end WorkerSide

open WorkerSide

/-- In each turn the worker sends what the event and the turns before say. -/
theorem Served.sends {turns : List Turn} {state : Standing} (hs : Served config turns state)
    {before rest : List Turn} {t : Turn} (ht : turns = before ++ t :: rest)
    {sent : List WorkerMessage} (h : t.Ends sent w) : t.Sends config before sent w := by
  induction hs generalizing before t rest with
  | new => simp at ht
  | turn hs hr hst ih =>
    rcases concat_eq_append_cons ht with ⟨rfl, rfl, -⟩ | ⟨rest, rfl, -⟩
    · exact Turn.sends_of_past (past_of_served hs) hr h
    · exact ih rfl h

end KernelProbe.Session
