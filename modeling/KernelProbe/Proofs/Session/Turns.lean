import KernelProbe.Proofs.Gdb.Channel
import KernelProbe.Session.Worker

/-!
# The worker's turns

The worker takes one event after the other, each in a turn of its own (`Turn`), the last of which
may still wait for an answer. No call of a script lets the target go on (`only_carryOut`), so that
the worker does so in a turn exactly if its controller said that it should
(`Turn.count_continueRequest`).
-/

namespace KernelProbe.Session

open Automation Debugger Gdb Mi Program

variable {α : Type} {request command : String} {log : Log channel} {w : Worker}

/-! ## Calls that do not let the target go on -/

/-- A message that does not let the target go on. -/
def LeavesStopped (m : Message) : Prop :=
  m ≠ .request continueRequest

theorem leavesStopped_of_letter (h : letter request ≠ some 'e') :
    LeavesStopped (.request request) := by
  rintro ⟨⟩
  exact h letter_continueRequest

/-- No script lets the target go on. -/
theorem only_carryOut (s : Script Handler α) : Only LeavesStopped (carryOut s) := by
  refine (only_scripted s).mono fun m hm => ?_
  cases hm with
  | console line => exact nofun
  | register name handler => exact nofun
  | _ => exact leavesStopped_of_letter (by simp)

/-! ## Requests -/

/-- The requests in a log, in order. -/
def requestsIn (log : Log channel) : List String :=
  log.filterMap fun e =>
    match e.call with
    | .request command => some command
    | _ => none

/-- The request whose answer a program waits for. -/
def asked : Program channel α → List String
  | .call (.request command) _ => [command]
  | _ => []

theorem requestsIn_append (log more : Log channel) :
    requestsIn (log ++ more) = requestsIn log ++ requestsIn more :=
  List.filterMap_append

/-- No answer to any message. -/
def noAnswer : (m : Message) → m.Answer
  | .request request => .error (.noReply request)
  | .console _ => ()
  | .register .. => ()

/-- The requests that were made so far are of one kind, and so is the one that waits. -/
theorem forall_mem_requests {P : Message → Prop} {p q : Program channel α} (hp : Only P p)
    (h : Reaches p log q) : ∀ command ∈ requestsIn log ++ asked q, P (.request command) := by
  obtain ⟨hl, hq⟩ := hp.reaches h noAnswer
  refine List.forall_mem_append.2 ⟨fun command hm => ?_, fun command hm => ?_⟩
  · obtain ⟨⟨m, answer⟩, he, hc⟩ := List.mem_filterMap.1 hm
    cases m with
    | request command =>
      cases hc
      exact hl _ he
    | _ => cases hc
  · unfold asked at hm
    split at hm
    · rw [List.mem_singleton] at hm
      exact hm ▸ hq _ _ rfl
    · exact absurd hm List.not_mem_nil

theorem continueRequest_not_mem {p q : Program channel α} (hp : Only LeavesStopped p)
    (h : Reaches p log q) : continueRequest ∉ requestsIn log ++ asked q :=
  fun hm => forall_mem_requests hp h _ hm rfl

/-- The worker asks that the target goes on, and does not look at the answer. -/
theorem requestsIn_continue {a : α} {q : Program channel α}
    (h : Reaches (.bind (tryCall continueRequest) fun _ => .done a) log q) :
    requestsIn log ++ asked q = [continueRequest] := by
  rw [tryCall_eq] at h
  cases h with
  | refl => rfl
  | call _ h =>
    obtain ⟨rfl, rfl⟩ := reaches_done.1 h
    rfl

/-! ## Messages -/

/-- What the session sees of an exchange. -/
def sent? : Exchange channel → Option WorkerMessage
  | ⟨.request command, _⟩ => some (.request command)
  | ⟨.console line, _⟩ => some (.output line)
  | ⟨.register .., _⟩ => none

/-- The messages in a log, in order. -/
def sentIn (log : Log channel) : List WorkerMessage :=
  log.filterMap sent?

/-- The message that a program sends where it stops: the request whose answer it waits for, or the
    end of an operator's command. -/
def lastSent : Work → List WorkerMessage
  | .done (_, completion) => completion.toList.map .finished
  | .call (.request command) _ => [.request command]
  | _ => []

/-- The commands that are registered behind an exchange. -/
def registry (commands : Registry) (e : Exchange channel) : Registry :=
  match e.call with
  | .register name handler => commands.insert name handler
  | _ => commands

/-- The commands that are registered behind a log. -/
def registryAfter (commands : Registry) (log : Log channel) : Registry :=
  log.foldl registry commands

theorem sentIn_append (log more : Log channel) : sentIn (log ++ more) = sentIn log ++ sentIn more :=
  List.filterMap_append

theorem registryAfter_append (commands : Registry) (log more : Log channel) :
    registryAfter commands (log ++ more) = registryAfter (registryAfter commands log) more :=
  List.foldl_append

/-! ## Turns -/

/-- At the end of some first exchanges, the controller answered a stop. -/
def Answered (controller : Controller) (id : HookId) (log : Log channel) (decision : Decision) :
    Prop :=
  ∃ controller' first, first <+: log ∧
    Path (carryOut (controller.onStop translateAddress id)) first (decision, controller')

/-- An event that the worker takes, with what it has exchanged since, and what is left to do. -/
structure Turn where
  worker : Worker
  /-- The commands that are registered when the worker takes the event. -/
  commands : Registry
  event : WorkerEvent
  log : Log channel
  rest : Work

namespace Turn

/-- The exchanges are those of the worker, under some answers. -/
def IsRun (t : Turn) : Prop :=
  Reaches (t.worker.react t.commands t.event) t.log t.rest

/-- The requests that were made in a turn; the last one may have no answer yet. -/
def requests (t : Turn) : List String :=
  requestsIn t.log ++ asked t.rest

/-- What was sent in a turn. -/
def messages (t : Turn) : List WorkerMessage :=
  sentIn t.log ++ lastSent t.rest

/-- The controller of the worker answered the stop that the worker was told of, and it said that
    the target is to go on. -/
def Resumed (t : Turn) : Prop :=
  ∃ id controller, t.event = .stopped id ∧ t.worker.controller = some controller ∧
    Answered controller id t.log .resume

/-- What the worker does at a stop behind its controller's answer. -/
theorem react_stopped (commands : Registry) {controller : Controller} (id : HookId)
    (h : w.controller = some controller) : w.react commands (.stopped id) =
      .bind (carryOut (controller.onStop translateAddress id)) fun answer =>
        if answer.1 = .resume then .bind (tryCall continueRequest) fun _ =>
          .done ({ w with controller := some answer.2 }, none)
        else .done ({ w with controller := some answer.2 }, none) := by
  unfold Worker.react Worker.onStopped
  rw [h]
  dsimp only [bind_eq, pure_eq]
  rw [bind_assoc]
  refine congrArg (Program.bind _) (funext fun answer => ?_)
  split
  · rw [bind_assoc]
    rfl
  · rfl

/-- Without a controller there is nothing to do at a stop. -/
theorem react_stopped_of_none (commands : Registry) (id : HookId) (h : w.controller = none) :
    w.react commands (.stopped id) = .done (w, none) := by
  unfold Worker.react Worker.onStopped
  rw [h]
  rfl

/-- Other events than stops do not let the target go on. -/
theorem only_react (w : Worker) (commands : Registry) {event : WorkerEvent}
    (h : ∀ id, event ≠ .stopped id) : Only LeavesStopped (w.react commands event) := by
  cases event with
  | attach =>
    refine Only.bind ?_ fun _ => Only.done _
    unfold Worker.onAttach
    split
    · exact Only.done _
    · refine Only.bind (only_carryOut _) fun installed => ?_
      cases installed with
      | ok controller => exact Only.done _
      | error e => exact Only.bind (Only.ask nofun) fun _ => Only.done _
  | stopped id => exact absurd rfl (h id)
  | userCommand token text =>
    refine Only.bind (Only.bind (only_carryOut _) fun result => ?_) fun _ => Only.done _
    cases result <;> exact Only.done _

/-- At a stop, the worker is in the middle of its controller's answer or behind it. -/
theorem count_of_stopped {commands : Registry} {controller : Controller} {id : HookId} {rest : Work}
    (hc : w.controller = some controller) (h : Reaches (w.react commands (.stopped id)) log rest) :
    (Answered controller id log .resume ∧
        (requestsIn log ++ asked rest).count continueRequest = 1) ∨
      (¬Answered controller id log .resume ∧
        (requestsIn log ++ asked rest).count continueRequest = 0) := by
  rw [react_stopped commands id hc] at h
  rcases reaches_bind h with
    ⟨c, next, hp, rfl⟩ | ⟨first, ⟨decision, controller'⟩, second, hp, hs, rfl⟩
  · right
    constructor
    · -- An answer would leave no call to make.
      rintro ⟨controller', first, ⟨more, rfl⟩, ha⟩
      obtain ⟨-, ⟨⟩⟩ := hp.of_path ha
    · have hn := continueRequest_not_mem (only_carryOut _) hp
      cases c <;> exact List.count_eq_zero.2 hn
  have hn : continueRequest ∉ requestsIn first := fun hm =>
    continueRequest_not_mem (only_carryOut _) hp.reaches (List.mem_append_left _ hm)
  rw [requestsIn_append, List.append_assoc, List.count_append, List.count_eq_zero.2 hn]
  cases decision with
  | resume =>
    refine .inl ⟨⟨controller', first, List.prefix_append _ _, hp⟩, ?_⟩
    rw [requestsIn_continue hs, List.count_singleton_self]
  | stop =>
    obtain ⟨rfl, rfl⟩ := reaches_done.1 hs
    refine .inr ⟨?_, rfl⟩
    rintro ⟨controller'', first', ⟨more, hm⟩, ha⟩
    rw [List.append_nil] at hm
    subst hm
    obtain ⟨-, ⟨⟩⟩ := hp.reaches.of_path ha

/-- In a turn the worker lets the target go on once if its controller said so, and otherwise not
    at all. -/
theorem count_continueRequest {t : Turn} (h : t.IsRun) :
    (t.Resumed → t.requests.count continueRequest = 1) ∧
      (¬t.Resumed → t.requests.count continueRequest = 0) := by
  obtain ⟨w, commands, event, log, rest⟩ := t
  have quiet : Only LeavesStopped (w.react commands event) →
      (requestsIn log ++ asked rest).count continueRequest = 0 := fun hp =>
    List.count_eq_zero.2 (continueRequest_not_mem hp h)
  by_cases he : ∃ id, event = .stopped id
  · obtain ⟨id, rfl⟩ := he
    cases hc : w.controller with
    | none =>
      refine ⟨?_, fun _ => quiet ?_⟩
      · rintro ⟨_, controller, _, hs, -⟩
        rw [hc] at hs
        cases hs
      · rw [react_stopped_of_none commands id hc]
        exact Only.done _
    | some controller =>
      rcases count_of_stopped hc h with ⟨ha, hk⟩ | ⟨ha, hk⟩
      · exact ⟨fun _ => hk, fun hn => absurd ⟨id, controller, rfl, hc, ha⟩ hn⟩
      · refine ⟨?_, fun _ => hk⟩
        rintro ⟨_, controller', ⟨⟩, hs, ha'⟩
        rw [hc] at hs
        cases hs
        exact absurd ha' ha
  · rw [not_exists] at he
    refine ⟨?_, fun _ => quiet (only_react w commands he)⟩
    rintro ⟨id, _, hs, -⟩
    exact absurd hs (he id)

/-- A stop at the kernel's entry with the hooks already set. -/
example (config : Automation.Config) :
    asked (Worker.react .empty ⟨none, some ⟨config, .armed, 1, .empty, .new config, true⟩⟩
      (.stopped 1)) = [continueRequest] := rfl

end Turn

end KernelProbe.Session
