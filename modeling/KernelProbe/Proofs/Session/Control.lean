import KernelProbe.Proofs.Interaction.Path
import KernelProbe.Session.Control

/-!
# Paths of the control loop

What the control loop may do at an event, for all answers of its surroundings. Only the answers
to writes and to the question for a registered command leave it a choice, so that the paths are
written out; of the commands that are sent, `Sends` says what they have in common.

* `path_onLine`, `path_onRequest` and `path_onInput` say what is done at the single events;
* `outcome_of_path`: what any event leads to with any debugger is an `Outcome`;
* `reaction_of_path`: what an event leads to with its own, automated debugger is a `Reaction`.
-/

namespace KernelProbe

/-- The token of a result record. -/
def Mi.Record.resultToken? (r : Mi.Record) : Option Nat :=
  if r.kind = .result then r.token.map UInt64.toNat else none

namespace Session

open Mi Program

variable {c : Config} {i i' : Instance} {line command : String} {log : Log surroundings}

/-! ## What a log shows -/

/-- The lines that are shown to the operator, in order. -/
def forwards (log : Log surroundings) : List String :=
  log.filterMap fun e =>
    match e.call with
    | .forward line => some line
    | _ => none

/-- The answers to requests, in order, with those whom they go to. -/
def replies (log : Log surroundings) : List (Nat × Option Record) :=
  log.filterMap fun e =>
    match e.call with
    | .reply requester record => some (requester, record)
    | _ => none

@[simp]
theorem forwards_append (log more : Log surroundings) :
    forwards (log ++ more) = forwards log ++ forwards more :=
  List.filterMap_append

@[simp]
theorem replies_append (log more : Log surroundings) :
    replies (log ++ more) = replies log ++ replies more :=
  List.filterMap_append

/-- The telling of events. -/
def tellings (events : List WorkerEvent) : Log surroundings :=
  events.map fun e => ⟨.notify e, ()⟩

@[simp]
theorem forwards_tellings (events : List WorkerEvent) : forwards (tellings events) = [] := by
  simp [forwards, tellings]

@[simp]
theorem replies_tellings (events : List WorkerEvent) : replies (tellings events) = [] := by
  simp [replies, tellings]

/-- Tells the worker events, one after the other. -/
def tellAll : List WorkerEvent → Control Unit
  | [] => .done ()
  | event :: events => .bind (act (.notify event)) fun _ => tellAll events

theorem path_tellAll {events : List WorkerEvent} :
    Path (tellAll events) log () ↔ log = tellings events := by
  induction events generalizing log with
  | nil => exact path_done.trans (and_iff_left rfl)
  | cons event events ih =>
    constructor
    · intro h
      obtain ⟨_, _, rfl, h'⟩ := path_ask_bind.1 h
      rw [ih.1 h']
      rfl
    · rintro rfl
      exact path_ask_bind.2 ⟨(), _, rfl, ih.2 rfl⟩

/-! ## Sending -/

/-- What is done to send commands: nothing is shown, answered or told. -/
def Sends : Action → Prop
  | .write _ | .log _ | .handles _ | .terminate => True
  | .forward _ | .notify _ | .reply .. => False

theorem filterMap_of_sends {α : Type} {f : Exchange surroundings → Option α}
    (hf : ∀ e, Sends e.call → f e = none) (h : ∀ e ∈ log, Sends e.call) :
    log.filterMap f = [] :=
  List.filterMap_eq_nil_iff.2 fun e he => hf e (h e he)

theorem forwards_of_sends (h : ∀ e ∈ log, Sends e.call) : forwards log = [] := by
  refine filterMap_of_sends ?_ h
  rintro ⟨_ | _, _⟩ he
  all_goals first | rfl | exact he.elim

theorem replies_of_sends (h : ∀ e ∈ log, Sends e.call) : replies log = [] := by
  refine filterMap_of_sends ?_ h
  rintro ⟨_ | _, _⟩ he
  all_goals first | rfl | exact he.elim

/-- The entry in the transcript for a placeholder that is filled in. -/
def filledEntry (command line : String) : Log surroundings :=
  if line ≠ command then [⟨.log (.filled command line), ()⟩] else []

/-- What is done when the debugger has taken a line, or has not. -/
def afterWrite (line : String) (taken : Bool) : Exchange surroundings :=
  if taken then ⟨.log (.command line), ()⟩ else ⟨.terminate, ()⟩

/-- A command is written once, with the root filled in, and the debugger is made to end if it does
    not take it. -/
theorem path_sendCommand : Path (sendCommand c command) log () ↔
    ∃ line taken, line = fillRoot command c.root ∧
      log = filledEntry command line ++ [⟨.write line, taken⟩, afterWrite line taken] := by
  have rest : ∀ {line log}, Path (Program.bind (act (.write line)) fun taken =>
      if taken then act (.log (.command line)) else act .terminate) log () ↔
      ∃ taken, log = [⟨.write line, taken⟩, afterWrite line taken] := by
    intro line log
    constructor
    · intro h
      obtain ⟨taken, more, rfl, h'⟩ := path_ask_bind.1 h
      cases taken <;> (rw [path_ask.1 h']; exact ⟨_, rfl⟩)
    · rintro ⟨taken, rfl⟩
      refine path_ask_bind.2 ⟨taken, _, rfl, ?_⟩
      cases taken <;> exact path_ask.2 rfl
  unfold sendCommand
  simp only [filledEntry, exists_and_left, exists_eq_left]
  split
  · refine path_ask_bind.trans ?_
    constructor
    · rintro ⟨_, more, rfl, h⟩
      obtain ⟨taken, rfl⟩ := rest.1 h
      exact ⟨taken, rfl⟩
    · rintro ⟨taken, rfl⟩
      exact ⟨(), _, rfl, rest.2 ⟨taken, rfl⟩⟩
  · exact rest

theorem only_sendCommand (c : Config) (command : String) : Only Sends (sendCommand c command) := by
  intro log _ hp
  obtain ⟨line, taken, -, rfl⟩ := path_sendCommand.1 hp
  have hf : ∀ e ∈ filledEntry command line, Sends e.call := by
    unfold filledEntry
    split
    · exact List.forall_mem_singleton.2 trivial
    · exact fun e he => absurd he List.not_mem_nil
  refine List.forall_mem_append.2 ⟨hf, List.forall_mem_cons.2 ⟨trivial, ?_⟩⟩
  cases taken <;> exact List.forall_mem_singleton.2 trivial

theorem only_sendAll (c : Config) (commands : List String) : Only Sends (sendAll c commands) := by
  induction commands with
  | nil => exact Only.done _
  | cons command commands ih => exact Only.bind (only_sendCommand c command) fun _ => ih

/-- A line is shown once, whatever is sent and told behind it. -/
theorem forwards_shown {commands : List String} {sent : Log surroundings}
    {events : List WorkerEvent} (hs : Path (sendAll c commands) sent ()) :
    forwards (⟨.forward line, ()⟩ :: ⟨.log (.output line), ()⟩ :: (sent ++ tellings events)) =
      [line] := by
  have h : forwards sent = [] := forwards_of_sends fun e he => only_sendAll c _ hs e he
  change line :: forwards (sent ++ tellings events) = [line]
  rw [forwards_append, h, forwards_tellings, List.append_nil]

/-- A line that is shown answers no request. -/
theorem replies_shown {commands : List String} {sent : Log surroundings}
    {events : List WorkerEvent} (hs : Path (sendAll c commands) sent ()) :
    replies (⟨.forward line, ()⟩ :: ⟨.log (.output line), ()⟩ :: (sent ++ tellings events)) =
      [] := by
  have h : replies sent = [] := replies_of_sends fun e he => only_sendAll c _ hs e he
  change replies (sent ++ tellings events) = []
  rw [replies_append, h, replies_tellings, List.append_nil]

theorem path_showLine : Path (showLine line) log () ↔
    log = [⟨.forward line, ()⟩, ⟨.log (.output line), ()⟩] := by
  constructor
  · intro h
    obtain ⟨_, _, rfl, h'⟩ := path_ask_bind.1 h
    rw [path_ask.1 h']
  · rintro rfl
    exact path_ask_bind.2 ⟨(), _, rfl, path_ask.2 rfl⟩

/-- Answers to the control loop: every write succeeds, and no command is registered. -/
def compliant : (a : Action) → a.Answer
  | .write _ => true
  | .handles _ => false
  | .forward _ | .log _ | .notify _ | .reply .. | .terminate => ()

/-- The event is for the debugger of a generation and does not end it. -/
def Concerns (g : Nat) : Event → Prop
  | .debuggerLine g' _ | .automationRequest g' _ _ | .automationOutput g' _
  | .automationDone g' _ => g' = g
  | .input _ => True
  | .debuggerClosed _ | .inputClosed => False

namespace Instance

/-! ## Lines of the debugger -/

/-- What the worker is told at a line that answers no request. -/
def told (m : Multiplexer) (line : String) : List WorkerEvent :=
  (if !m.sentInitial && (m.observe line).2.sentInitial then [.attach] else []) ++
    (((Record.read? line).bind Record.breakpointHit?).map WorkerEvent.stopped).toList

theorem answered?_eq_some {record : Option Record} {token requester : Nat} {r : Record} :
    i.answered? record = some (token, requester, r) ↔
      record = some r ∧ r.resultToken? = some token ∧ i.pending.find? token = some requester := by
  have h : ∀ s : Record, i.answered? (some s) = s.resultToken?.bind fun t =>
      (i.pending.find? t).map fun q => (t, q, s) := by
    intro s
    by_cases hk : s.kind = .result
    · cases ht : s.token with
      | none => simp [answered?, Record.resultToken?, hk, ht]
      | some t =>
        cases hq : i.pending.find? t.toNat <;>
          simp [answered?, Record.resultToken?, hk, ht, hq]
    · simp [answered?, Record.resultToken?, hk]
  cases record with
  | none => simp [answered?]
  | some s =>
    rw [h]
    constructor
    · intro hs
      obtain ⟨t, ht, hp⟩ := Option.bind_eq_some_iff.1 hs
      obtain ⟨q, hq, ⟨⟩⟩ := Option.map_eq_some_iff.1 hp
      exact ⟨rfl, ht, hq⟩
    · rintro ⟨⟨⟩, ht, hq⟩
      rw [ht, Option.bind_some, hq, Option.map_some]

/-- What the worker of a debugger is told at a line that answers no request: without automation,
    there is no worker. -/
def heard (i : Instance) (line : String) : List WorkerEvent :=
  if i.automated then told i.mux line else []

theorem record?_of_automated (ha : i.automated = true) : i.record? line = Record.read? line :=
  if_pos ha

theorem heard_of_automated (ha : i.automated = true) : i.heard line = told i.mux line :=
  if_pos ha

theorem userCommand_not_mem_heard {token : Option UInt64} {text : String} :
    .userCommand token text ∉ i.heard line := by
  unfold heard told
  split
  · rw [List.mem_append, not_or]
    constructor
    · split <;> simp
    · cases (Record.read? line).bind Record.breakpointHit? <;> simp
  · exact List.not_mem_nil

theorem onOtherLine_eq :
    i.onOtherLine c line (i.record? line) =
      .bind (showLine line) fun _ => .bind (sendAll c (i.mux.observe line).1) fun _ =>
        .bind (tellAll (i.heard line)) fun _ =>
          .done { i with mux := (i.mux.observe line).2 } := by
  unfold onOtherLine heard told record?
  obtain ⟨commands, mux⟩ := i.mux.observe line
  cases i.automated with
  | false => rfl
  | true =>
    dsimp only
    rw [if_pos rfl, if_pos rfl]
    generalize (Record.read? line).bind Record.breakpointHit? = hit
    generalize (!i.mux.sentInitial && mux.sentInitial) = first
    cases first <;> cases hit <;> rfl

theorem path_onOtherLine :
    Path (i.onOtherLine c line (i.record? line)) log i' ↔
      ∃ sent, Path (sendAll c (i.mux.observe line).1) sent () ∧
        log = ⟨.forward line, ()⟩ :: ⟨.log (.output line), ()⟩ ::
          (sent ++ tellings (i.heard line)) ∧
        i' = { i with mux := (i.mux.observe line).2 } := by
  rw [onOtherLine_eq, path_bind]
  constructor
  · rintro ⟨_, _, _, hf, hs, rfl⟩
    obtain ⟨sent, _, _, hsent, ht, rfl⟩ := path_bind.1 hs
    obtain ⟨_, ht', rfl⟩ := path_bind_done.1 ht
    rw [path_showLine.1 hf, path_tellAll.1 ht']
    exact ⟨sent, hsent, rfl, rfl⟩
  · rintro ⟨sent, hsent, rfl, rfl⟩
    exact ⟨_, (), _, path_showLine.2 rfl, path_bind.2 ⟨sent, (), _, hsent,
      path_bind_done.2 ⟨(), path_tellAll.2 rfl, rfl⟩, rfl⟩, rfl⟩

/-- A line of the debugger: the answer to a request, or a line for the operator. -/
theorem path_onLine :
    Path (i.onLine c line) log i' ↔
      (∃ r token requester, i.record? line = some r ∧ r.resultToken? = some token ∧
        i.pending.find? token = some requester ∧
        log = [⟨.log (.output line), ()⟩, ⟨.reply requester (some r), ()⟩] ∧
        i' = { i with pending := i.pending.erase token }) ∨
      ((∀ r token, i.record? line = some r → r.resultToken? = some token →
          i.pending.find? token = none) ∧
        Path (i.onOtherLine c line (i.record? line)) log i') := by
  unfold onLine
  dsimp only
  cases hw : i.answered? (i.record? line) with
  | none =>
    refine ⟨fun h => .inr ⟨fun r token hl ht => ?_, h⟩, ?_⟩
    · rw [Option.eq_none_iff_forall_ne_some]
      intro requester hq
      rw [answered?_eq_some.2 ⟨hl, ht, hq⟩] at hw
      cases hw
    · rintro (⟨r, token, requester, hl, ht, hq, -⟩ | ⟨-, h⟩)
      · rw [answered?_eq_some.2 ⟨hl, ht, hq⟩] at hw
        cases hw
      · exact h
  | some found =>
    obtain ⟨token, requester, r⟩ := found
    obtain ⟨hl, ht, hq⟩ := answered?_eq_some.1 hw
    constructor
    · intro h
      obtain ⟨_, _, rfl, h₁⟩ := path_ask_bind.1 h
      obtain ⟨_, _, rfl, h₂⟩ := path_ask_bind.1 h₁
      obtain ⟨rfl, rfl⟩ := path_done.1 h₂
      exact .inl ⟨r, token, requester, hl, ht, hq, rfl, rfl⟩
    · rintro (⟨r', token', requester', hl', ht', hq', rfl, rfl⟩ | ⟨hn, -⟩)
      · have hw' := answered?_eq_some.2 ⟨hl', ht', hq'⟩
        rw [hw] at hw'
        obtain ⟨⟩ := hw'
        exact path_ask_bind.2 ⟨(), _, rfl, path_ask_bind.2 ⟨(), _, rfl, path_done.2 ⟨rfl, rfl⟩⟩⟩
      · rw [hn r token hl ht] at hq
        cases hq

/-! ## Other events -/

/-- A request of the worker: it goes to the debugger under the next token, or is given up. -/
theorem path_onRequest {requester : Nat} :
    Path (i.onRequest command requester) log i' ↔
      ∃ line, line = Text.decimal i.nextToken ++ command ∧
        ((log = [⟨.write line, true⟩, ⟨.log (.command line), ()⟩] ∧
          i' = { i with
            nextToken := i.nextToken + 1, pending := i.pending.insert i.nextToken requester }) ∨
        (log = [⟨.write line, false⟩, ⟨.reply requester none, ()⟩] ∧
          i' = { i with nextToken := i.nextToken + 1 })) := by
  constructor
  · intro h
    obtain ⟨taken, _, rfl, h₁⟩ := path_ask_bind.1 h
    refine ⟨_, rfl, ?_⟩
    cases taken with
    | true =>
      obtain ⟨_, _, rfl, h₂⟩ := path_ask_bind.1 h₁
      obtain ⟨rfl, rfl⟩ := path_done.1 h₂
      exact .inl ⟨rfl, rfl⟩
    | false =>
      obtain ⟨_, _, rfl, h₂⟩ := path_ask_bind.1 h₁
      obtain ⟨rfl, rfl⟩ := path_done.1 h₂
      exact .inr ⟨rfl, rfl⟩
  · rintro ⟨_, rfl, ⟨rfl, rfl⟩ | ⟨rfl, rfl⟩⟩
    · exact path_ask_bind.2 ⟨true, _, rfl, path_ask_bind.2 ⟨(), _, rfl, .done _⟩⟩
    · exact path_ask_bind.2 ⟨false, _, rfl, path_ask_bind.2 ⟨(), _, rfl, .done _⟩⟩

/-- The operator's command in a line, if there is a worker that may know it. -/
def userCommand? (i : Instance) (line : String) : Option (Option UInt64 × String) :=
  if i.automated then consoleInput? (Text.trimmed line) else none

/-- A line of the operator: a registered command goes to the worker, any other line to the
    debugger, behind the question for the command if there is one. -/
theorem path_onInput : Path (i.onInput c line) log () ↔
    (∃ token text, i.userCommand? line = some (token, text) ∧
      log = [⟨.handles text, true⟩, ⟨.log (.command (Text.trimmed line)), ()⟩] ++
        tellings [.userCommand token text]) ∨
    ∃ asked sent, Path (sendCommand c (Text.trimmed line)) sent () ∧ log = asked ++ sent ∧
      ((i.userCommand? line = none ∧ asked = []) ∨
        ∃ token text, i.userCommand? line = some (token, text) ∧
          asked = [⟨.handles text, false⟩]) := by
  cases hc : i.userCommand? line with
  | none =>
    have hi : i.onInput c line = sendCommand c (Text.trimmed line) := by
      rw [userCommand?] at hc
      simp only [onInput, hc]
    rw [hi]
    constructor
    · intro h
      exact .inr ⟨[], log, h, rfl, .inl ⟨rfl, rfl⟩⟩
    · rintro (⟨_, _, ⟨⟩, -⟩ | ⟨_, _, hs, rfl, ⟨-, rfl⟩ | ⟨_, _, ⟨⟩, -⟩⟩)
      exact hs
  | some command =>
    obtain ⟨token, text⟩ := command
    rw [userCommand?] at hc
    simp only [onInput, hc]
    constructor
    · intro h
      obtain ⟨known, more, rfl, h₁⟩ := path_ask_bind.1 h
      cases known with
      | true =>
        obtain ⟨_, _, rfl, h₂⟩ := path_ask_bind.1 h₁
        rw [path_ask.1 h₂]
        exact .inl ⟨token, text, rfl, rfl⟩
      | false => exact .inr ⟨_, more, h₁, rfl, .inr ⟨token, text, rfl, rfl⟩⟩
    · rintro (⟨_, _, ⟨⟩, rfl⟩ | ⟨_, sent, hs, rfl, ⟨⟨⟩, -⟩ | ⟨_, _, ⟨⟩, rfl⟩⟩)
      · exact path_ask_bind.2 ⟨true, _, rfl, path_ask_bind.2 ⟨(), _, rfl, path_ask.2 rfl⟩⟩
      · exact path_ask_bind.2 ⟨false, sent, rfl, hs⟩

/-! ## Any debugger -/

/-- How the control loop leaves a debugger at an event, if it does. -/
def end? (i : Instance) : Event → Option InstanceEnd
  | .debuggerClosed g => if g = i.generation then some .exited else none
  | .inputClosed => some .inputClosed
  | _ => none

/-- A debugger is of one generation, with or without automation, for as long as it is there. -/
structure Continues (i i' : Instance) : Prop where
  generation : i'.generation = i.generation
  automated : i'.automated = i.automated

theorem Continues.refl (i : Instance) : Continues i i := ⟨rfl, rfl⟩

theorem continues_of_onLine (hp : Path (i.onLine c line) log i') : Continues i i' := by
  rcases path_onLine.1 hp with ⟨_, _, _, -, -, -, -, rfl⟩ | ⟨-, ho⟩
  · exact ⟨rfl, rfl⟩
  · obtain ⟨_, -, -, rfl⟩ := path_onOtherLine.1 ho
    exact ⟨rfl, rfl⟩

theorem continues_of_onRequest {requester : Nat}
    (hp : Path (i.onRequest command requester) log i') : Continues i i' := by
  obtain ⟨_, -, ⟨-, rfl⟩ | ⟨-, rfl⟩⟩ := path_onRequest.1 hp <;> exact ⟨rfl, rfl⟩

/-- What is done at an event, for all kinds of events and all generations. -/
inductive Outcome (c : Config) (i : Instance) : Event → Log surroundings → Instance → Prop
  | line {line : String} {log : Log surroundings} {i' : Instance} :
      Path (i.onLine c line) log i' → Outcome c i (.debuggerLine i.generation line) log i'
  | request {command : String} {requester : Nat} {log : Log surroundings} {i' : Instance} :
      Path (i.onRequest command requester) log i' →
      Outcome c i (.automationRequest i.generation command requester) log i'
  /-- A request for an earlier debugger gets no answer. -/
  | late {g command requester} : g ≠ i.generation →
      Outcome c i (.automationRequest g command requester) [⟨.reply requester none, ()⟩] i
  | input {line : String} {log : Log surroundings} :
      Path (i.onInput c line) log () → Outcome c i (.input line) log i
  | output {line text : String} : text = consoleRecord line →
      Outcome c i (.automationOutput i.generation line)
        [⟨.forward text, ()⟩, ⟨.log (.output text), ()⟩] i
  | finished {completion : Completion} {text : String} :
      text = resultRecord completion.token completion.error →
      Outcome c i (.automationDone i.generation completion)
        [⟨.forward text, ()⟩, ⟨.log (.output text), ()⟩] i
  /-- Nothing is done. -/
  | passedOver {e : Event} : ¬Concerns i.generation e → Outcome c i e [] i

theorem outcome_of_path {e : Event} {o : Option InstanceEnd}
    (hp : Path (i.onEvent c e) log (i', o)) : Outcome c i e log i' ∧ o = i.end? e := by
  cases e with
  | debuggerLine g line =>
    rw [onEvent] at hp
    split at hp
    · next h =>
      obtain ⟨_, hi, ⟨⟩⟩ := path_bind_done.1 hp
      exact h ▸ ⟨.line hi, rfl⟩
    · next h =>
      obtain ⟨rfl, ⟨⟩⟩ := path_done.1 hp
      exact ⟨.passedOver h, rfl⟩
  | debuggerClosed g =>
    obtain ⟨rfl, ⟨⟩⟩ := path_done.1 hp
    exact ⟨.passedOver id, rfl⟩
  | input line =>
    obtain ⟨_, hi, ⟨⟩⟩ := path_bind_done.1 hp
    exact ⟨.input hi, rfl⟩
  | inputClosed =>
    obtain ⟨rfl, ⟨⟩⟩ := path_done.1 hp
    exact ⟨.passedOver id, rfl⟩
  | automationRequest g command requester =>
    rw [onEvent] at hp
    split at hp
    · next h =>
      obtain ⟨_, hi, ⟨⟩⟩ := path_bind_done.1 hp
      exact h ▸ ⟨.request hi, rfl⟩
    · next h =>
      obtain ⟨_, hi, ⟨⟩⟩ := path_bind_done.1 hp
      rw [path_ask.1 hi]
      exact ⟨.late h, rfl⟩
  | automationOutput g line =>
    rw [onEvent] at hp
    split at hp
    · next h =>
      obtain ⟨_, hi, ⟨⟩⟩ := path_bind_done.1 hp
      rw [path_showLine.1 hi]
      exact h ▸ ⟨.output rfl, rfl⟩
    · next h =>
      obtain ⟨rfl, ⟨⟩⟩ := path_done.1 hp
      exact ⟨.passedOver h, rfl⟩
  | automationDone g completion =>
    rw [onEvent] at hp
    split at hp
    · next h =>
      obtain ⟨_, hi, ⟨⟩⟩ := path_bind_done.1 hp
      rw [path_showLine.1 hi]
      exact h ▸ ⟨.finished rfl, rfl⟩
    · next h =>
      obtain ⟨rfl, ⟨⟩⟩ := path_done.1 hp
      exact ⟨.passedOver h, rfl⟩

theorem Outcome.continues {e : Event} (h : Outcome c i e log i') : Continues i i' := by
  cases h with
  | line hp => exact continues_of_onLine hp
  | request hp => exact continues_of_onRequest hp
  | _ => exact .refl i

theorem Outcome.onInput (h : Outcome c i (.input line) log i') :
    Path (i.onInput c line) log () := by
  cases h with
  | input hp => exact hp
  | passedOver hn => exact absurd trivial hn

/-- Nothing is done at the last event of a debugger. -/
theorem Outcome.eq_nil {e : Event} (h : Outcome c i e log i') (he : (i.end? e).isSome) :
    log = [] := by
  cases h with
  | passedOver _ => rfl
  | _ => cases he

/-! ## Events for an automated debugger -/

/-- What an event may lead to: what is done, and the state behind it. -/
inductive Reaction (c : Config) (i : Instance) : Event → Log surroundings → Instance → Prop
  /-- The debugger takes a request, which is then pending. -/
  | written {g command requester line} : line = Text.decimal i.nextToken ++ command →
      Reaction c i (.automationRequest g command requester)
        [⟨.write line, true⟩, ⟨.log (.command line), ()⟩]
        { i with
          nextToken := i.nextToken + 1, pending := i.pending.insert i.nextToken requester }
  /-- The debugger does not take a request. -/
  | refused {g command requester line} : line = Text.decimal i.nextToken ++ command →
      Reaction c i (.automationRequest g command requester)
        [⟨.write line, false⟩, ⟨.reply requester none, ()⟩]
        { i with nextToken := i.nextToken + 1 }
  /-- A line answers a pending request. -/
  | answered {g line record token requester} : Record.read? line = some record →
      record.resultToken? = some token → i.pending.find? token = some requester →
      Reaction c i (.debuggerLine g line)
        [⟨.log (.output line), ()⟩, ⟨.reply requester (some record), ()⟩]
        { i with pending := i.pending.erase token }
  /-- A line answers no pending request. -/
  | shown {g line sent} :
      (∀ record token, Record.read? line = some record →
        record.resultToken? = some token → i.pending.find? token = none) →
      Path (sendAll c (i.mux.observe line).1) sent () →
      Reaction c i (.debuggerLine g line) (⟨.forward line, ()⟩ :: ⟨.log (.output line), ()⟩ ::
        (sent ++ tellings (told i.mux line))) { i with mux := (i.mux.observe line).2 }
  /-- A line of the operator goes to the debugger. -/
  | sent {line : String} {log : Log surroundings} : (∀ e ∈ log, Sends e.call) →
      Reaction c i (.input line) log i
  /-- A line of the operator goes to the worker. -/
  | passedOn {line token text} : Reaction c i (.input line)
      ([⟨.handles text, true⟩, ⟨.log (.command (Text.trimmed line)), ()⟩] ++
        tellings [.userCommand token text]) i
  /-- A line of the worker is shown. -/
  | output {g line text} : text = consoleRecord line →
      Reaction c i (.automationOutput g line) [⟨.forward text, ()⟩, ⟨.log (.output text), ()⟩] i
  /-- The end of an operator's command is shown. -/
  | finished {g completion text} : text = resultRecord completion.token completion.error →
      Reaction c i (.automationDone g completion)
        [⟨.forward text, ()⟩, ⟨.log (.output text), ()⟩] i

/-- An event for the debugger is handled, and the debugger goes on. -/
theorem reaction_of_path {e : Event} {o : Option InstanceEnd} (ha : i.automated = true)
    (he : Concerns i.generation e) (hp : Path (i.onEvent c e) log (i', o)) :
    o = none ∧ Reaction c i e log i' := by
  obtain ⟨h, rfl⟩ := outcome_of_path hp
  clear hp
  cases h with
  | line hp =>
    refine ⟨rfl, ?_⟩
    rcases path_onLine.1 hp with ⟨record, token, q, hl, hk, hf, rfl, rfl⟩ | ⟨hn, ho⟩
    · rw [record?_of_automated ha] at hl
      exact .answered hl hk hf
    · obtain ⟨sent, hs, rfl, rfl⟩ := path_onOtherLine.1 ho
      rw [record?_of_automated ha] at hn
      rw [heard_of_automated ha]
      exact .shown hn hs
  | request hp =>
    obtain ⟨line, hl, ⟨rfl, rfl⟩ | ⟨rfl, rfl⟩⟩ := path_onRequest.1 hp
    · exact ⟨rfl, .written hl⟩
    · exact ⟨rfl, .refused hl⟩
  | input hp =>
    rcases path_onInput.1 hp with ⟨token, text, -, rfl⟩ | ⟨asked, sent, hs, rfl, ha⟩
    · exact ⟨rfl, .passedOn⟩
    · refine ⟨rfl, .sent (List.forall_mem_append.2 ⟨?_, only_sendCommand c _ hs⟩)⟩
      rcases ha with ⟨-, rfl⟩ | ⟨token, text, -, rfl⟩
      · exact fun e he => absurd he List.not_mem_nil
      · exact List.forall_mem_singleton.2 trivial
  | output h => exact ⟨rfl, .output h⟩
  | finished h => exact ⟨rfl, .finished h⟩
  | late h => exact absurd he h
  | passedOver h => exact absurd he h

end Instance

end Session

end KernelProbe
