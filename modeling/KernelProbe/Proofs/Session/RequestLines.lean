import KernelProbe.Proofs.Mi.SingleLine
import KernelProbe.Proofs.Session.Resumption

/-!
# Requests on one line

The debugger reads its input line by line, and texts that the target controls, such as the names of
modules, go into requests. Every request that a worker makes is on one line all the same.

* `Drives`: programs put together from scripts and from letting the target go on; what the worker
  does with an event is one of them (`drives_react`);
* `Drives.only`: such a program makes requests on one line only, whatever it is answered;
* `Joint.singleLine_commandsTaken`, `Run.writes_request`: so in every run each request is on one
  line, and goes to the debugger behind its token;
* `texts_stay_in_records`: all of this, and that what goes into a record is what is read out of it.
-/

namespace KernelProbe.Session

open Automation Debugger Gdb Mi Program Text

variable {α : Type} {c : Config} {g : Nat} {h : List Round} {i : Instance} {s : WorkerSide}
  {log : Log channel}

/-! ## Single requests -/

/-- A message whose request, if it is one, is on one line. -/
def OnOneLine : Message → Prop
  | .request command => SingleLine command.toList
  | _ => True

theorem singleLine_hex (n : Nat) : SingleLine (Text.hex n).toList := by
  unfold Text.hex
  rw [String.toList_append, singleLine_append]
  refine ⟨by decide, ?_⟩
  rw [String.toList_ofList]
  exact singleLine_digits (by decide) (by decide) n

theorem singleLine_evaluateRequest (expression : String) :
    SingleLine (evaluateRequest expression).toList := by
  rw [toList_evaluateRequest, singleLine_append]
  exact ⟨by decide, singleLine_quote expression⟩

theorem singleLine_memoryRequest (address : UInt64) (size : Nat) :
    SingleLine (memoryRequest address size).toList := by
  rw [toList_memoryRequest, singleLine_append, singleLine_append, singleLine_cons]
  exact ⟨by decide, singleLine_digits (by decide) (by decide) _, by decide,
    singleLine_digits (by decide) (by decide) _⟩

theorem singleLine_breakpointRequest (address : UInt64) :
    SingleLine (breakpointRequest address).toList := by
  rw [toList_breakpointRequest, singleLine_append]
  exact ⟨by decide, singleLine_hex _⟩

theorem singleLine_frameRequest (frame : Nat) : SingleLine (frameRequest frame).toList := by
  rw [toList_frameRequest, singleLine_append]
  exact ⟨by decide, singleLine_digits (by decide) (by decide) _⟩

theorem onOneLine_of_scripted {m : Message} (hm : IsScripted m) : OnOneLine m := by
  cases hm with
  | memory address size => exact singleLine_memoryRequest address size
  | evaluate expression => exact singleLine_evaluateRequest expression
  | execute command => exact singleLine_consoleRequest command
  | breakpoint address => exact singleLine_breakpointRequest address
  | frame frame => exact singleLine_frameRequest frame
  | console line => exact trivial
  | register name handler => exact trivial

/-! ## Programs -/

/-- A program that is put together from scripts and from letting the target go on, with any texts
    in them, and that goes on as it likes with the answers. -/
inductive Drives : {α : Type} → Program channel α → Prop
  | script {α : Type} (s : Script Handler α) : Drives (carryOut s)
  | resume : Drives resume
  | bind {α β : Type} {p : Program channel α} {f : α → Program channel β} :
      Drives p → (∀ a, Drives (f a)) → Drives (p.bind f)

theorem Drives.only {p : Program channel α} (hp : Drives p) : Only OnOneLine p := by
  induction hp with
  | script s => exact (only_scripted s).mono fun _ => onOneLine_of_scripted
  | resume =>
    have hc : SingleLine continueRequest.toList := by decide
    exact only_andThen (only_call hc) fun _ => Only.done _
  | bind _ _ ih₁ ih₂ => exact Only.bind ih₁ ih₂

theorem drives_done (a : α) : Drives (.done a : Program channel α) :=
  .script (.done a)

theorem drives_console (line : String) : Drives (.ask channel (.console line)) :=
  .script (.ask (interface Handler) (.print line))

theorem drives_tryCall_continueRequest : Drives (tryCall continueRequest) := by
  have h : tryCall continueRequest = resume.bind fun _ => .done () := by
    unfold tryCall resume callOnly Attempt.andThen
    rw [bind_assoc]
    refine congrArg (Program.bind _) (funext fun reply => ?_)
    cases reply <;> rfl
  rw [h]
  exact .bind .resume fun _ => drives_done ()

/-- The worker drives the debugger by scripts, and lets the target go on. -/
theorem drives_react (w : Worker) (commands : Registry) (event : WorkerEvent) :
    Drives (w.react commands event) := by
  cases event with
  | attach =>
    refine .bind ?_ fun _ => drives_done _
    unfold Worker.onAttach
    split
    · exact drives_done _
    · refine .bind (.script _) fun installed => ?_
      cases installed with
      | ok controller => exact drives_done _
      | error e => exact .bind (drives_console _) fun _ => drives_done _
  | stopped id =>
    cases hc : w.controller with
    | none =>
      rw [Turn.react_stopped_of_none commands id hc]
      exact drives_done _
    | some controller =>
      rw [Turn.react_stopped commands id hc]
      refine .bind (.script _) fun answer => ?_
      split
      · exact .bind drives_tryCall_continueRequest fun _ => drives_done _
      · exact drives_done _
  | userCommand token text =>
    refine .bind (.bind (.script _) fun result => ?_) fun _ => drives_done _
    cases result <;> exact drives_done _

/-! ## Runs -/

/-- The text is one line for a reader, if a line feed stands behind it. -/
def IsLine (line : String) : Prop :=
  lines (line.toList ++ ['\n']) = [line.toList]

/-- A request is one line, with any token in front. -/
theorem isLine_request {command : String} (hc : SingleLine command.toList) (n : Nat) :
    IsLine (decimal n ++ command) := by
  refine lines_of_singleLine ?_
  rw [String.toList_append, singleLine_append, decimal, String.toList_ofList]
  exact ⟨singleLine_digits (by decide) (by decide) n, hc⟩

theorem Turn.singleLine_requests {t : Turn} (hr : t.IsRun) :
    ∀ command ∈ t.requests, SingleLine command.toList :=
  forall_mem_requests (drives_react t.worker t.commands t.event).only hr

/-- The requests that the control loop has taken from the worker are on one line each. -/
theorem Joint.singleLine_commandsTaken (hj : Joint c g h i s) :
    ∀ command ∈ commandsTaken h, SingleLine command.toList := by
  obtain ⟨config, -, turns, hs, -, hq⟩ := hj.keeps
  intro command hm
  have ht : command ∈ turns.flatMap Turn.requests := hq ▸ List.mem_append_left _ hm
  obtain ⟨t, ht, hm⟩ := List.mem_flatMap.1 ht
  exact Turn.singleLine_requests (hs.isRun t ht) command hm

/-- In the round of a request, what is written to the debugger is the request behind a token. -/
theorem Run.writes_request {r : Round} {command : String} (hr : Run c g h i) (hm : r ∈ h)
    (hc : r.event.command? = some command) : ∃ n, writes r.log = [decimal n ++ command] := by
  obtain ⟨before, after, hs⟩ := List.append_of_mem hm
  have hf := hr.follows hs
  obtain ⟨event, log⟩ := r
  dsimp only at hf hc
  cases hf with
  | written hl =>
    cases hc
    exact ⟨_, congrArg (fun line => [line]) hl⟩
  | refused hl =>
    cases hc
    exact ⟨_, congrArg (fun line => [line]) hl⟩
  | _ => cases hc

/-! ## Texts in records -/

/-- No text leaves the record that it stands in. Whatever scripts are carried out, with any texts in
    them and any answers, each request is on one line, and with a token in front it is the one line
    that the debugger reads; so are the requests of a worker at every event, and in every run they
    are written in this way. The command of a console request is read back as it is. A line for the
    operator's console and the answer to the operator are on one line too, and are read back as the
    line with a line feed, and as a record with the token and the error, if there is one. -/
theorem texts_stay_in_records :
    (∀ {α : Type} (p : Program channel α), Drives p → ∀ log a, Path p log a →
      ∀ command ∈ requestsIn log, SingleLine command.toList ∧
        ∀ n, IsLine (decimal n ++ command)) ∧
    (∀ w commands event, Drives (Worker.react commands w event)) ∧
    (∀ c g h i s, Joint c g h i s → ∀ r ∈ h, ∀ command, r.event.command? = some command →
      SingleLine command.toList ∧
        ∃ n, writes r.log = [decimal n ++ command] ∧ IsLine (decimal n ++ command)) ∧
    (∀ token command, consoleInput? (String.ofList (renderToken token) ++ consoleRequest command) =
      some (token, command)) ∧
    (∀ line, SingleLine (consoleRecord line).toList ∧
      ∃ literal, (consoleRecord line).toList = '~' :: literal ∧
        Rest.Gives (Literal.read? literal) (line ++ "\n") []) ∧
    ∀ token error, SingleLine (resultRecord token error).toList ∧
      ∃ r, Record.read? (resultRecord token error) = some r ∧ r.token = token ∧
        r.kind = .result ∧ r.className = (if error.isSome then "error" else "done") ∧
        r.errorMessage? = error := by
  refine ⟨fun p hp log a hpath command hm => ?_, drives_react,
    fun c g h i s hj r hr command hc => ?_, consoleInput?_consoleRequest,
    fun line => ⟨singleLine_consoleRecord line, exists_consoleRecord line⟩,
    fun token error => ⟨singleLine_resultRecord token error, answerOf token error,
      read?_resultRecord token error, ?_⟩⟩
  · have hs : SingleLine command.toList :=
      forall_mem_requests hp.only hpath.reaches command (List.mem_append_left _ hm)
    exact ⟨hs, isLine_request hs⟩
  · have hs := hj.singleLine_commandsTaken command (List.mem_filterMap.2 ⟨r, hr, hc⟩)
    obtain ⟨n, hn⟩ := hj.run.1.writes_request hr hc
    exact ⟨hs, n, hn, isLine_request hs n⟩
  · cases error <;> exact ⟨rfl, rfl, rfl, rfl⟩

/-- A module whose name tries to end the request for its symbols and to start another one. -/
theorem texts_stay_in_records_of_module :
    let name := "a.elf\"\n-exec-continue\r"
    let command := Modules.addCommand ((Modules.new {}).symbolFile name) 0x1000
    let request := consoleRequest command
    (∃ r, Path (carryOut ((Modules.new {}).load name 0x1000))
      [⟨.request request, .error (.noReply request)⟩] r) ∧
      SingleLine request.toList ∧ IsLine (decimal 900000000 ++ request) ∧
      consoleInput? (String.ofList (renderToken none) ++ request) = some (none, command) := by
  intro name command request
  have hp : Path (carryOut ((Modules.new {}).load name 0x1000))
      [⟨.request request, .error (.noReply request)⟩]
      (.error (.noReply request), Modules.new {}) :=
    .call (I := channel) (c := .request request) (.error (.noReply request)) (.done _)
  obtain ⟨hrequests, -, -, hinput, -⟩ := texts_stay_in_records
  obtain ⟨hs, hl⟩ := hrequests _ (.script _) _ _ hp request (List.mem_singleton_self _)
  exact ⟨⟨_, hp⟩, hs, hl _, hinput none command⟩

end KernelProbe.Session
