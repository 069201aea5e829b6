import KernelProbe.Proofs.Session.Notices
import KernelProbe.Proofs.Session.Turns
import KernelProbe.Proofs.Session.WorkerRequests

/-!
# Who lets the target go on

Where the session does the automation, only the worker lets the target go on by itself. Its turns
(`Served`) are for the events that it is told, one turn for each, and its requests are those of the
turns.

* `Thread.Keeps`: the turns that a worker has taken, with the events that wait; being told an event
  and being answered keep it so (`Keeps.notify`, `Keeps.answer`), and hence every run does
  (`Joint.keeps`);
* `stop_resumed_once`: what the worker is told of the debugger's lines, and that it lets the target
  go on at most once for each stop.
-/

namespace KernelProbe.Session

open Debugger Gdb Mi Program

variable {c : Config} {g : Nat} {h : List Round} {i : Instance} {config : Automation.Config}
  {turns : List Turn} {told : List WorkerEvent}

/-! ## Turns one after the other -/

/-- A worker, or what is left of its program behind a request. -/
abbrev Standing := Worker ⊕ (String × (Except Error Record → Work))

variable {state : Standing}

/-- How a worker stands with what is left of a turn. -/
inductive Stands : Work → Standing → Prop
  | done {w completion} : Stands (.done (w, completion)) (.inl w)
  | waits {command next} : Stands (.call (.request command) next) (.inr (command, next))

/-- The turns of a worker from its start, for all events and answers. Only the last one may still
    wait for an answer. -/
inductive Served (config : Automation.Config) : List Turn → Standing → Prop
  | new : Served config [] (.inl (.new config))
  | turn {turns : List Turn} {t : Turn} {state : Standing} : Served config turns (.inl t.worker) →
      t.IsRun → Stands t.rest state → Served config (turns ++ [t]) state

theorem Served.isRun (hs : Served config turns state) : ∀ t ∈ turns, t.IsRun := by
  induction hs with
  | new => exact fun t ht => absurd ht List.not_mem_nil
  | turn _ hr _ ih => exact List.forall_mem_append.2 ⟨ih, List.forall_mem_singleton.2 hr⟩

/-- At most one request of a turn lets the target go on, and none in a turn for another event than
    a stop. -/
theorem Turn.count_le {t : Turn} (hr : t.IsRun) :
    t.requests.count continueRequest ≤ t.event.stop?.toList.length := by
  by_cases hd : t.Resumed
  · rw [(count_continueRequest hr).1 hd]
    obtain ⟨id, _, he, -⟩ := hd
    rw [he]
    exact Nat.le_refl 1
  · rw [(count_continueRequest hr).2 hd]
    exact Nat.zero_le _

theorem count_flatMap_requests_le (hr : ∀ t ∈ turns, t.IsRun) :
    (turns.flatMap Turn.requests).count continueRequest ≤
      ((turns.map Turn.event).filterMap WorkerEvent.stop?).length := by
  induction turns with
  | nil => exact Nat.le_refl 0
  | cons t turns ih =>
    rw [List.forall_mem_cons] at hr
    have h₁ := Turn.count_le hr.1
    have h₂ := ih hr.2
    rw [List.flatMap_cons, List.count_append, List.map_cons, List.filterMap_cons]
    have h := Nat.add_le_add h₁ h₂
    cases ht : t.event.stop? with
    | none => rwa [ht, Option.toList_none, List.length_nil, Nat.zero_add] at h
    | some id => rwa [ht, Option.toList_some, List.length_singleton, Nat.add_comm 1] at h

/-! ## The turns of a thread -/

/-- The command of a request. -/
def WorkerMessage.command? : WorkerMessage → Option String
  | .request command => some command
  | _ => none

/-- The commands of the requests among messages, in order. -/
def commandsOf (messages : List WorkerMessage) : List String :=
  messages.filterMap WorkerMessage.command?

theorem commandsOf_sentIn (log : Log channel) : commandsOf (sentIn log) = requestsIn log := by
  induction log with
  | nil => rfl
  | cons e log ih =>
    obtain ⟨m, answer⟩ := e
    cases m with
    | request command => exact congrArg (command :: ·) ih
    | _ => exact ih

theorem commandsOf_lastSent (rest : Work) : commandsOf (lastSent rest) = asked rest := by
  cases rest with
  | done r =>
    obtain ⟨w, completion⟩ := r
    cases completion <;> rfl
  | call m next => cases m <;> rfl

/-- The requests of turns are those among their messages. -/
theorem commandsOf_messages (turns : List Turn) :
    commandsOf (turns.flatMap Turn.messages) = turns.flatMap Turn.requests := by
  rw [commandsOf, List.filterMap_flatMap]
  refine congrArg (turns.flatMap ·) (funext fun t => ?_)
  rw [Turn.messages, List.filterMap_append, Turn.requests, ← commandsOf_sentIn,
    ← commandsOf_lastSent]
  rfl

/-- Turns take place under the commands that are registered, from `commands` on. -/
def TakesPlace : (commands : Registry) → List Turn → Prop
  | _, [] => True
  | commands, t :: turns => t.commands = commands ∧ TakesPlace (registryAfter commands t.log) turns

namespace Thread

/-- A program goes on up to its next request or its end. -/
theorem exists_reaches (p : Work) (commands : Registry) :
    ∃ log rest, Reaches p log rest ∧ (advance p commands).1 = sentIn log ++ lastSent rest ∧
      (advance p commands).2.1 = registryAfter commands log ∧
      Stands rest (advance p commands).2.2 := by
  induction p generalizing commands with
  | done r =>
    obtain ⟨w, completion⟩ := r
    exact ⟨[], _, .refl _, rfl, rfl, .done⟩
  | call m next ih =>
    cases m with
    | request command => exact ⟨[], _, .refl _, rfl, rfl, .waits⟩
    | console line =>
      obtain ⟨log, rest, hr, hm, hc, hs⟩ := ih () commands
      exact ⟨_, rest, .call () hr, congrArg (WorkerMessage.output line :: ·) hm, hc, hs⟩
    | register name handler =>
      obtain ⟨log, rest, hr, hm, hc, hs⟩ := ih () (commands.insert name handler)
      exact ⟨_, rest, .call () hr, hm, hc, hs⟩

/-- A worker that takes waiting events does so in turns. -/
theorem served_work (hs : Served config turns state) (commands : Registry)
    (mailbox : List WorkerEvent) :
    ∃ more, Served config (turns ++ more) (work commands state mailbox).2.state ∧
      more.map Turn.event ++ (work commands state mailbox).2.mailbox = mailbox ∧
      (work commands state mailbox).1 = more.flatMap Turn.messages ∧
      TakesPlace commands more ∧
      (work commands state mailbox).2.commands =
        registryAfter commands (more.flatMap Turn.log) := by
  -- Behind a turn that ends, the worker takes the next event; behind one that waits, none.
  induction mailbox generalizing turns state commands with
  | nil => exact ⟨[], by rwa [List.append_nil], rfl, rfl, trivial, rfl⟩
  | cons e mailbox ih =>
    cases state with
    | inr waiting => exact ⟨[], by rwa [List.append_nil], rfl, rfl, trivial, rfl⟩
    | inl w =>
      obtain ⟨log, rest, hr, hm, hc, hst⟩ := exists_reaches (w.react commands e) commands
      rw [work]
      generalize advance (w.react commands e) commands = first at hm hc hst ⊢
      obtain ⟨sent, commands', state'⟩ := first
      dsimp only at hm hc
      subst hm hc
      let t : Turn := ⟨w, commands, e, log, rest⟩
      obtain ⟨more, hm, he, hq, ht, hc⟩ := ih (.turn (t := t) hs hr hst) (registryAfter commands log)
      refine ⟨t :: more, ?_, congrArg (e :: ·) he, congrArg (t.messages ++ ·) hq, ⟨rfl, ht⟩, ?_⟩
      · rwa [List.append_assoc] at hm
      · rw [List.flatMap_cons, registryAfter_append]
        exact hc

/-- An answer continues the last turn. -/
theorem served_answer {command : String} {next : Except Error Record → Work}
    (hs : Served config turns (.inr (command, next))) (result : Except Error Record)
    (commands : Registry) :
    ∃ before t t', turns = before ++ [t] ∧
      Served config (before ++ [t']) (advance (next result) commands).2.2 ∧
      t'.event = t.event ∧ t'.commands = t.commands ∧
      t'.messages = t.messages ++ (advance (next result) commands).1 ∧ ∀ first,
        registryAfter first t.log = commands →
          registryAfter first t'.log = (advance (next result) commands).2.1 := by
  cases hs with
  | @turn before t _ hs hr hst =>
    obtain ⟨w, registered, event, log, rest⟩ := t
    cases hst
    obtain ⟨more, rest, hn, hm, hc, hst⟩ := exists_reaches (next result) commands
    -- The turn takes in the answer and what is exchanged behind it.
    refine ⟨before, _, ⟨w, registered, event, log ++ ⟨.request command, result⟩ :: more, rest⟩, rfl,
      .turn hs (hr.answer hn) hst, rfl, rfl, ?_, ?_⟩
    · rw [hm, Turn.messages, sentIn_append, Turn.messages, List.append_assoc, List.append_assoc]
      rfl
    · rintro first rfl
      rw [hc, registryAfter_append]
      rfl

/-- A worker has taken events in turns, under the commands that they registered, and the other
    events wait. -/
structure Keeps (config : Automation.Config) (told : List WorkerEvent) (turns : List Turn)
    (t : Thread) : Prop where
  served : Served config turns t.state
  told : turns.map Turn.event ++ t.mailbox = told
  takesPlace : TakesPlace .empty turns
  commands : t.commands = registryAfter .empty (turns.flatMap Turn.log)

variable {t : Thread}

theorem takesPlace_append {commands : Registry} {more : List Turn} :
    TakesPlace commands (turns ++ more) ↔ TakesPlace commands turns ∧
      TakesPlace (registryAfter commands (turns.flatMap Turn.log)) more := by
  induction turns generalizing commands with
  | nil => exact (and_iff_right trivial).symm
  | cons t turns ih =>
    rw [List.flatMap_cons, registryAfter_append, List.cons_append, TakesPlace, TakesPlace, ih,
      and_assoc]

/-- The worker takes waiting events behind turns that it has taken. -/
theorem Keeps.work {commands : Registry} {mailbox : List WorkerEvent}
    (hk : Keeps config told turns ⟨commands, state, mailbox⟩) :
    ∃ turns', Keeps config told turns' (work commands state mailbox).2 ∧
      turns'.flatMap Turn.messages =
        turns.flatMap Turn.messages ++ (work commands state mailbox).1 := by
  obtain ⟨hs, rfl, ht, hc⟩ := hk
  dsimp only at hs hc ⊢
  obtain ⟨more, hm, he, hq, hp, hr⟩ := served_work hs commands mailbox
  refine ⟨turns ++ more, ⟨hm, ?_, takesPlace_append.2 ⟨ht, hc ▸ hp⟩, ?_⟩, ?_⟩
  · rw [List.map_append, List.append_assoc, he]
  · rw [hr, List.flatMap_append, registryAfter_append, hc]
  · rw [List.flatMap_append, hq]

theorem Keeps.notify (hk : Keeps config told turns t) (e : WorkerEvent) :
    ∃ turns', Keeps config (told ++ [e]) turns' (t.notify e).2 ∧
      turns'.flatMap Turn.messages = turns.flatMap Turn.messages ++ (t.notify e).1 := by
  obtain ⟨hs, rfl, ht, hc⟩ := hk
  exact Keeps.work ⟨hs, (List.append_assoc ..).symm, ht, hc⟩

theorem Keeps.answer (hk : Keeps config told turns t) (record : Option Record) :
    ∃ turns', Keeps config told turns' (t.answer record).2 ∧
      turns'.flatMap Turn.messages = turns.flatMap Turn.messages ++ (t.answer record).1 := by
  obtain ⟨commands, state, mailbox⟩ := t
  cases state with
  | inl w => exact ⟨turns, hk, (List.append_nil _).symm⟩
  | inr waiting =>
    obtain ⟨command, next⟩ := waiting
    obtain ⟨hs, rfl, ht, hc⟩ := hk
    obtain ⟨before, t, t', rfl, hs', he, hr, hm, hg⟩ :=
      served_answer hs (record.elim (.error (.noReply command)) .ok) commands
    rw [takesPlace_append] at ht
    rw [List.flatMap_append, registryAfter_append, List.flatMap_singleton] at hc
    have hg' := hg _ hc.symm
    rw [Thread.answer]
    dsimp only at hs' hm hg' ⊢
    generalize advance _ commands = first at hs' hm hg' ⊢
    obtain ⟨sent, commands', state'⟩ := first
    -- Behind the answer, the last turn has gone on, and the worker may take more events.
    have hk : Keeps config ((before ++ [t]).map Turn.event ++ mailbox) (before ++ [t'])
        ⟨commands', state', mailbox⟩ := by
      refine ⟨hs', ?_, takesPlace_append.2 ⟨ht.1, hr.trans ht.2.1, trivial⟩, ?_⟩
      · simp [he]
      · rw [List.flatMap_append, registryAfter_append, List.flatMap_singleton]
        exact hg'.symm
    obtain ⟨turns', hk', hm'⟩ := hk.work
    refine ⟨turns', hk', ?_⟩
    rw [hm', List.flatMap_append, List.flatMap_singleton, hm, List.flatMap_append,
      List.flatMap_singleton]
    simp only [List.append_assoc]

end Thread

/-! ## The worker of a debugger -/

/-- The command of a request of the worker. -/
def Event.command? : Event → Option String
  | .automationRequest _ command _ => some command
  | _ => none

namespace WorkerSide

variable {s : WorkerSide} {before : List String} {log : Log surroundings}

/-- The requests that the control loop has not taken. -/
def commands (s : WorkerSide) : List String :=
  s.outbox.filterMap Event.command?

theorem commands_foldl_send (sent : List WorkerMessage) :
    (sent.foldl (send g) s).commands = s.commands ++ commandsOf sent := by
  induction sent generalizing s with
  | nil => exact (List.append_nil _).symm
  | cons m sent ih =>
    rw [List.foldl_cons, ih]
    simp only [commands, send, List.filterMap_append, List.append_assoc, commandsOf]
    cases m <;> rfl

/-- The worker has taken events in turns; its requests are those in `before` and those on the
    way. -/
def Keeps (config : Automation.Config) (told : List WorkerEvent) (before : List String)
    (s : WorkerSide) : Prop :=
  ∃ turns, s.worker.Keeps config told turns ∧
    turns.flatMap Turn.requests = before ++ s.commands

theorem keeps_goOn {r : List WorkerMessage × Thread}
    (hq : turns.flatMap Turn.requests = before ++ s.commands)
    (hk : ∃ turns', r.2.Keeps config told turns' ∧
      turns'.flatMap Turn.messages = turns.flatMap Turn.messages ++ r.1) :
    Keeps config told before (s.goOn g r) := by
  obtain ⟨turns', hk, hm⟩ := hk
  have hc : (s.goOn g r).commands = s.commands ++ commandsOf r.1 := commands_foldl_send r.1
  refine ⟨turns', by rwa [worker_goOn], ?_⟩
  rw [← commandsOf_messages, hm, hc, ← List.append_assoc, ← hq, ← commandsOf_messages]
  exact List.filterMap_append

theorem Keeps.hear (hk : Keeps config told before s) (e : Exchange surroundings) :
    Keeps config (told ++ notices [e]) before (s.hear g e) := by
  obtain ⟨call, answer⟩ := e
  have hn : Keeps config (told ++ []) before s := by rwa [List.append_nil]
  obtain ⟨turns, ht, hq⟩ := hk
  cases call with
  | notify event => exact keeps_goOn hq (ht.notify event)
  | reply q record =>
    unfold WorkerSide.hear
    dsimp only
    split
    · refine keeps_goOn hq ?_
      rw [notices, List.filterMap_cons_none rfl, List.filterMap_nil, List.append_nil]
      exact ht.answer record
    · exact hn
  | _ => exact hn

theorem Keeps.hearAll (hk : Keeps config told before s) (log : Log surroundings) :
    Keeps config (told ++ notices log) before (log.foldl (WorkerSide.hear g) s) := by
  induction log generalizing told s with
  | nil => rwa [notices, List.filterMap_nil, List.append_nil]
  | cons e log ih =>
    have h := ih (hk.hear (g := g) e)
    rwa [List.append_assoc, ← notices_append] at h

end WorkerSide

variable {s : WorkerSide}

/-- The commands of the requests in a run, in order. -/
def commandsTaken (h : List Round) : List String :=
  h.filterMap fun r => r.event.command?

/-- A round in which the control loop has taken the event, and perhaps a request with it. -/
theorem keeps_round {r : Round} (hk : s.Keeps config (notices (h.flatMap Round.log))
      (commandsTaken h ++ r.event.command?.toList)) :
    (r.log.foldl (WorkerSide.hear g) s).Keeps config (notices ((h ++ [r]).flatMap Round.log))
      (commandsTaken (h ++ [r])) := by
  have ht : commandsTaken (h ++ [r]) = commandsTaken h ++ r.event.command?.toList := by
    rw [commandsTaken, List.filterMap_append, commandsTaken]
    cases hc : r.event.command? <;> simp [hc]
  rw [ht, List.flatMap_append, List.flatMap_singleton, notices_append]
  exact hk.hearAll r.log

theorem Joint.worker_keeps (hj : Joint c g h i s) : ∃ config, c.automation = some config ∧
    s.Keeps config (notices (h.flatMap Round.log)) (commandsTaken h) := by
  induction hj with
  | init hc => exact ⟨_, hc, [], ⟨.new, rfl, trivial, rfl⟩, rfl⟩
  | @message h i i' s e outbox log _ hs hp ih =>
    obtain ⟨config, hc, turns, hk, hr⟩ := ih
    refine ⟨config, hc, keeps_round (r := ⟨e, log⟩) ⟨turns, hk, ?_⟩⟩
    -- The oldest message leaves the outbox, and with it the request, if it is one.
    have hq : s.commands = e.command?.toList ++ WorkerSide.commands { s with outbox } := by
      rw [WorkerSide.commands, hs, WorkerSide.commands]
      cases hq : e.command? <;> simp [hq]
    rwa [hq, ← List.append_assoc] at hr
  | @foreign h i i' s e log _ hf hp ih =>
    obtain ⟨config, hc, hk⟩ := ih
    have he : e.command? = none := by
      cases e <;> first | exact hf.elim | rfl
    refine ⟨config, hc, keeps_round (r := ⟨e, log⟩) ?_⟩
    rwa [he, Option.toList_none, List.append_nil]

theorem Joint.keeps (hj : Joint c g h i s) : ∃ config, c.automation = some config ∧
    ∃ turns, Served config turns s.worker.state ∧
      turns.map Turn.event ++ s.worker.mailbox = notices (h.flatMap Round.log) ∧
      turns.flatMap Turn.requests = commandsTaken h ++ s.commands := by
  obtain ⟨config, hc, turns, hk, hq⟩ := hj.worker_keeps
  exact ⟨config, hc, turns, hk.served, hk.told, hq⟩

/-- In every run of an automated session, the lines of the debugger lead to no more than the
    initial commands, at the first prompt, behind which the worker is told of the attachment; it
    is told of the stops that the lines report, in their order. In each of its turns the worker
    lets the target go on once if its controller said so, and otherwise not at all. Its turns are
    for the events in the order in which it is told of them, and all its requests are made in
    them, so that it lets the target go on at most once for each line that reports a stop. -/
theorem stop_resumed_once (c : Config) (g : Nat) :
    (∀ h i, Run c g h i →
      (∀ before r after, h = before ++ r :: after →
        (∀ line, r.shownLine? = some line → Handles c before line r.log) ∧
        (r.shownLine? = none →
          (∀ event ∈ notices r.log, ∃ token text, event = .userCommand token text) ∧
          ∀ g line, r.event = .debuggerLine g line → writes r.log = [])) ∧
      (notices (h.flatMap Round.log)).count .attach = (prompted c h).toNat ∧
      (notices (h.flatMap Round.log)).filterMap WorkerEvent.stop? =
        (shownLines h).filterMap stop?) ∧
    (∀ config turns state, Served config turns state → ∀ t ∈ turns,
      (t.Resumed → t.requests.count "-exec-continue" = 1) ∧
        (¬t.Resumed → t.requests.count "-exec-continue" = 0)) ∧
    ∀ h i s, Joint c g h i s → ∃ config turns, c.automation = some config ∧
      Served config turns s.worker.state ∧
      turns.map Turn.event ++ s.worker.mailbox = notices (h.flatMap Round.log) ∧
      turns.flatMap Turn.requests = commandsTaken h ++ s.commands ∧
      (commandsTaken h ++ s.commands).count "-exec-continue" ≤
        ((shownLines h).filterMap stop?).length := by
  refine ⟨fun h i hr => ⟨fun before r after hs => ⟨fun line hl => hr.handles hs hl, fun hl => ?_⟩,
    hr.notices_eq⟩, fun config turns state hs t ht => ?_, fun h i s hj => ?_⟩
  · exact (hr.follows hs).of_shownLine?_eq_none hl
  · exact Turn.count_continueRequest (hs.isRun t ht)
  · obtain ⟨config, hc, turns, hs, he, hq⟩ := hj.keeps
    refine ⟨config, turns, hc, hs, he, hq, ?_⟩
    rw [← hq, ← (Run.notices_eq hj.run.1).2, ← he, List.filterMap_append, List.length_append]
    exact Nat.le_add_right_of_le (count_flatMap_requests_le hs.isRun)

end KernelProbe.Session
