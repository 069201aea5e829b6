import KernelProbe.Proofs.Session.OperatorLines

/-!
# What the transcript holds

A session opens its transcript before all else, and then takes one step after the other, with one
debugger after the other (`Steps`). Here every write to the file succeeds (`Transcript.after`).

What the file holds is told from the events that were taken and from what became of the lines that
were written to the debugger: `linesAt` gives the lines for one event, without looking at what was
recorded.

* `recorded_sendAll`: the lines for commands that are sent, one after the other;
* `recorded_of_path`: what the control loop records at an event, and what it writes to the debugger;
* `transcript_lines`: the whole transcript of a session.
-/

namespace KernelProbe.Session

open Mi Program

variable {c : Config} {i i' : Instance} {e : Event} {log : Log surroundings}
  {phase phase' : Phase}

/-! ## Courses of steps -/

/-- A step of a session: the phase that it was taken in, and what was done. -/
structure Advance where
  phase : Phase
  log : Log system

/-- A session goes from one phase to another by steps, for all answers of its surroundings. -/
inductive Steps (c : Config) : Phase → List Advance → Phase → Prop
  | refl (p : Phase) : Steps c p [] p
  | step {p p' q : Phase} {log : Log system} {advances : List Advance} :
      Path (step c p) log p' → Steps c p' advances q → Steps c p (⟨p, log⟩ :: advances) q

/-- Every step of a course is one of the session. -/
theorem Steps.path {advances : List Advance} (hs : Steps c phase advances phase') :
    ∀ a ∈ advances, ∃ next, Path (Session.step c a.phase) a.log next := by
  induction hs with
  | refl _ => exact fun a ha => absurd ha List.not_mem_nil
  | step hp _ ih => exact List.forall_mem_cons.2 ⟨⟨_, hp⟩, ih⟩

/-! ## The file -/

/-- The transcript once a call got its answer; the file takes every line. -/
def Transcript.after (t : Transcript) : Exchange system → Transcript
  | ⟨.createTranscript _, .ok ()⟩ => .on []
  | ⟨.act (.log entry), _⟩ => t.record true entry
  | _ => t

/-- The transcript behind what a session has done from its start. -/
def transcript (log : Log system) : Transcript :=
  log.foldl Transcript.after .off

/-- The entries that are recorded, in order. -/
def entries (log : Log surroundings) : List Entry :=
  log.filterMap fun e =>
    match e.call with
    | .log entry => some entry
    | _ => none

/-- The lines that are recorded, in order. -/
def recorded (log : Log surroundings) : List String :=
  (entries log).flatMap Entry.lines

/-- A transcript is created. -/
def IsCreation : SystemCall → Prop
  | .createTranscript _ => True
  | _ => False

@[simp]
theorem entries_append (log more : Log surroundings) :
    entries (log ++ more) = entries log ++ entries more :=
  List.filterMap_append

@[simp]
theorem recorded_append (log more : Log surroundings) :
    recorded (log ++ more) = recorded log ++ recorded more := by
  rw [recorded, entries_append, List.flatMap_append]
  rfl

@[simp]
theorem recorded_tellings (events : List WorkerEvent) : recorded (tellings events) = [] := by
  simp [recorded, entries, tellings]

theorem record_on (written : List String) (entry : Entry) :
    (Transcript.on written).record true entry = .on (written ++ entry.lines) := by
  unfold Transcript.record
  induction entry.lines generalizing written with
  | nil => rw [List.foldl_nil, List.append_nil]
  | cons line lines ih =>
    rw [List.foldl_cons, Transcript.write, if_pos rfl, ih, ← List.append_cons]

/-- A transcript that is on grows by the lines that are recorded. -/
theorem foldl_after {log : Log system} (hn : ∀ e ∈ log, ¬IsCreation e.call)
    (written : List String) :
    log.foldl Transcript.after (.on written) = .on (written ++ recorded (actions log)) := by
  induction log generalizing written with
  | nil => rw [List.foldl_nil]; exact congrArg _ (List.append_nil _).symm
  | cons e log ih =>
    obtain ⟨he, hn⟩ := List.forall_mem_cons.1 hn
    have grows : ∃ lines, Transcript.after (.on written) e = .on (written ++ lines) ∧
        recorded (actions (e :: log)) = lines ++ recorded (actions log) := by
      obtain ⟨call, answer⟩ := e
      cases call with
      | createTranscript _ => exact absurd trivial he
      | act a =>
        cases a with
        | log entry => exact ⟨entry.lines, record_on written entry, rfl⟩
        | _ => exact ⟨[], congrArg _ (List.append_nil _).symm, rfl⟩
      | _ => exact ⟨[], congrArg _ (List.append_nil _).symm, rfl⟩
    obtain ⟨lines, hl, hr⟩ := grows
    rw [List.foldl_cons, hl, ih hn, hr, List.append_assoc]

/-! ## The lines for an event -/

/-- Whether the debugger took the lines that were written to it, in order. -/
def takings (log : Log surroundings) : List Bool :=
  log.filterMap fun
    | ⟨.write _, taken⟩ => some taken
    | _ => none

/-- The line for what comes from the debugger or the worker. -/
def outputLine (line : String) : String :=
  "< " ++ String.ofList (Text.trimEnd line.toList)

/-- The lines for a command that is sent: what it was and what it became, if the placeholder was in
    it, and the line that the debugger took, if it did. -/
def commandLines (c : Config) (command : String) (taken : Bool) : List String :=
  let line := fillRoot command c.root
  (if line ≠ command then ["# Before:" ++ command, "# After:" ++ line] else []) ++
    if taken then ["> " ++ line] else []

/-- The commands that are sent to the debugger at an event: a line of the operator that does not go
    to the worker, and what the multiplexer answers to a line that answers no request. -/
def commandsAt (i : Instance) (log : Log surroundings) : Event → List String
  | .debuggerLine g line =>
    if g = i.generation ∧ replies log = [] then (i.mux.observe line).1 else []
  | .input line => if notices log = [] then [Text.trimmed line] else []
  | _ => []

/-- The request of the worker that is written to the debugger at an event. -/
def requestAt (i : Instance) : Event → List String
  | .automationRequest g command _ =>
    if g = i.generation then [Text.decimal i.nextToken ++ command] else []
  | _ => []

/-- The lines for the commands that are sent, one behind the other, given what the debugger took. -/
def sentLines (c : Config) (commands : List String) (log : Log surroundings) : List String :=
  (commands.zipWith (commandLines c) (takings log)).flatten

/-- The lines for an event, given what became of what was written. Only events of the operator and
    of the debugger of the moment have any. -/
def linesAt (c : Config) (i : Instance) (log : Log surroundings) (e : Event) : List String :=
  let sent := sentLines c (commandsAt i log e) log
  match e with
  | .debuggerLine g line => if g = i.generation then outputLine line :: sent else []
  | .input line => if notices log = [] then sent else ["> " ++ Text.trimmed line]
  | .automationRequest .. => if takings log = [true] then (requestAt i e).map ("> " ++ ·) else []
  | .automationOutput g line => if g = i.generation then [outputLine (consoleRecord line)] else []
  | .automationDone g completion =>
    if g = i.generation then [outputLine (resultRecord completion.token completion.error)] else []
  | .debuggerClosed _ | .inputClosed => []

@[simp]
theorem takings_append (log more : Log surroundings) :
    takings (log ++ more) = takings log ++ takings more :=
  List.filterMap_append

@[simp]
theorem takings_tellings (events : List WorkerEvent) : takings (tellings events) = [] := by
  simp [takings, tellings]

@[simp]
theorem writes_tellings (events : List WorkerEvent) : writes (tellings events) = [] := by
  simp [writes, tellings]

theorem recorded_sendCommand {command : String} (hp : Path (sendCommand c command) log ()) :
    ∃ taken, takings log = [taken] ∧ recorded log = commandLines c command taken := by
  obtain ⟨line, taken, rfl, rfl⟩ := path_sendCommand.1 hp
  refine ⟨taken, ?_⟩
  unfold filledEntry commandLines
  dsimp only
  split <;> cases taken <;> exact ⟨rfl, rfl⟩

/-- The lines for commands that are sent stand one behind the other. -/
theorem recorded_sendAll {commands : List String} (hp : Path (sendAll c commands) log ()) :
    recorded log = sentLines c commands log := by
  induction commands generalizing log with
  | nil =>
    obtain ⟨rfl, -⟩ := path_done.1 hp
    rfl
  | cons command commands ih =>
    obtain ⟨first, _, second, h₁, h₂, rfl⟩ := path_bind.1 hp
    obtain ⟨taken, ht, hr⟩ := recorded_sendCommand h₁
    rw [recorded_append, hr, ih h₂, sentLines, sentLines, takings_append, ht]
    rfl

theorem recorded_of_sendCommand {command : String} (hp : Path (sendCommand c command) log ()) :
    recorded log = sentLines c [command] log := by
  obtain ⟨taken, ht, hr⟩ := recorded_sendCommand hp
  rw [hr, sentLines, ht]
  exact (List.append_nil _).symm

/-! ## One event -/

theorem recorded_onLine {line : String} (hp : Path (i.onLine c line) log i') :
    recorded log = linesAt c i log (.debuggerLine i.generation line) ∧
      writes log = (commandsAt i log (.debuggerLine i.generation line)).map (fillRoot · c.root) := by
  have hl : linesAt c i log (.debuggerLine i.generation line) =
      outputLine line :: sentLines c (commandsAt i log (.debuggerLine i.generation line)) log :=
    if_pos rfl
  rw [hl]
  rcases Instance.path_onLine.1 hp with ⟨r, token, q, -, -, -, rfl, -⟩ | ⟨-, ho⟩
  · have hc : commandsAt i [⟨.log (.output line), ()⟩, ⟨.reply q (some r), ()⟩]
        (.debuggerLine i.generation line) = [] := if_neg fun h => List.cons_ne_nil _ _ h.2
    rw [hc]
    exact ⟨rfl, rfl⟩
  · obtain ⟨sent, hs, rfl, -⟩ := Instance.path_onOtherLine.1 ho
    have hc : commandsAt i (⟨.forward line, ()⟩ :: ⟨.log (.output line), ()⟩ ::
        (sent ++ tellings (i.heard line))) (.debuggerLine i.generation line) =
          (i.mux.observe line).1 := if_pos ⟨rfl, replies_shown hs⟩
    have ht : takings (sent ++ tellings (i.heard line)) = takings sent := by simp
    rw [hc]
    constructor
    · change outputLine line :: recorded (sent ++ tellings _) = _
      rw [recorded_append, recorded_tellings, List.append_nil, recorded_sendAll hs]
      exact congrArg (fun t => outputLine line :: (List.zipWith _ _ t).flatten) ht.symm
    · change writes (sent ++ tellings _) = _
      rw [writes_append, writes_tellings, List.append_nil, writes_sendAll hs]

theorem recorded_onInput {line : String} (hp : Path (i.onInput c line) log ()) :
    recorded log = linesAt c i log (.input line) ∧
      writes log = (commandsAt i log (.input line)).map (fillRoot · c.root) := by
  rcases Instance.path_onInput.1 hp with ⟨token, text, -, rfl⟩ | ⟨asked, sent, hs, rfl, ha⟩
  · exact ⟨rfl, rfl⟩
  · -- The question for a registered command leaves no trace.
    obtain ⟨hn, hr, ht, hw⟩ : notices asked = [] ∧ recorded asked = [] ∧ takings asked = [] ∧
        writes asked = [] := by
      rcases ha with ⟨-, rfl⟩ | ⟨_, _, -, rfl⟩ <;> exact ⟨rfl, rfl, rfl, rfl⟩
    have hn : notices (asked ++ sent) = [] := by
      rw [notices_append, hn, notices_of_sends fun e he => only_sendCommand c _ hs e he]
      rfl
    have hc : commandsAt i (asked ++ sent) (.input line) = [Text.trimmed line] := if_pos hn
    have hl : linesAt c i (asked ++ sent) (.input line) =
        sentLines c (commandsAt i (asked ++ sent) (.input line)) (asked ++ sent) := if_pos hn
    rw [hl, hc]
    constructor
    · rw [recorded_append, hr, sentLines, takings_append, ht, List.nil_append, List.nil_append,
        recorded_of_sendCommand hs, sentLines]
    · rw [writes_append, hw, writes_sendCommand hs]
      rfl

/-- Without an event of the operator or of the debugger there is nothing to record or to write. -/
theorem linesAt_of_not_concerns (hn : ¬Concerns i.generation e) :
    linesAt c i [] e = [] ∧ commandsAt i [] e = [] ∧ requestAt i e = [] := by
  cases e with
  | debuggerLine g line => exact ⟨if_neg hn, if_neg fun h => hn h.1, rfl⟩
  | input line => exact absurd trivial hn
  | automationRequest g command requester => exact ⟨rfl, rfl, if_neg hn⟩
  | automationOutput g line => exact ⟨if_neg hn, rfl, rfl⟩
  | automationDone g completion => exact ⟨if_neg hn, rfl, rfl⟩
  | debuggerClosed _ | inputClosed => exact ⟨rfl, rfl, rfl⟩

/-- What the control loop records at an event are the lines for it, and what it writes to the
    debugger are the commands and the request of the event, with the root filled in. -/
theorem recorded_of_path {o : Option InstanceEnd} (hp : Path (i.onEvent c e) log (i', o)) :
    recorded log = linesAt c i log e ∧
      writes log = (commandsAt i log e).map (fillRoot · c.root) ++ requestAt i e := by
  cases (Instance.outcome_of_path hp).1 with
  | line hl =>
    obtain ⟨hr, hw⟩ := recorded_onLine hl
    exact ⟨hr, hw.trans (List.append_nil _).symm⟩
  | input hi =>
    obtain ⟨hr, hw⟩ := recorded_onInput hi
    exact ⟨hr, hw.trans (List.append_nil _).symm⟩
  | @request command requester _ _ hr =>
    have hq : requestAt i (.automationRequest i.generation command requester) =
        [Text.decimal i.nextToken ++ command] := if_pos rfl
    obtain ⟨_, rfl, ⟨rfl, -⟩ | ⟨rfl, -⟩⟩ := Instance.path_onRequest.1 hr
    · exact ⟨(congrArg (List.map ("> " ++ ·)) hq).symm, hq.symm⟩
    · exact ⟨rfl, hq.symm⟩
  | late hg => exact ⟨rfl, (if_neg hg).symm⟩
  | output h => exact ⟨by rw [h]; exact (if_pos rfl).symm, rfl⟩
  | finished h => exact ⟨by rw [h]; exact (if_pos rfl).symm, rfl⟩
  | passedOver hn =>
    obtain ⟨hl, hc, hq⟩ := linesAt_of_not_concerns (c := c) hn
    rw [hl, hc, hq]
    exact ⟨rfl, rfl⟩

/-! ## Steps of a session -/

/-- The lines for a step: those for the event that the debugger of the moment takes. -/
def Advance.lines (c : Config) (a : Advance) : List String :=
  match a.phase with
  | .running i => (awaited a.log).flatMap (linesAt c i (actions a.log))
  | _ => []

/-- What a step has to write to the debugger. -/
def Advance.sends (c : Config) (a : Advance) : List String :=
  match a.phase with
  | .running i => (awaited a.log).flatMap fun e =>
    (commandsAt i (actions a.log) e).map (fillRoot · c.root) ++ requestAt i e
  | _ => []

/-- Leaving a debugger records and writes nothing. -/
theorem recorded_of_terminate (h : ∀ a ∈ log, a.call = .terminate) :
    recorded log = [] ∧ writes log = [] := by
  have none {α : Type} {f : Exchange surroundings → Option α} (hf : ∀ u, f ⟨.terminate, u⟩ = none) :
      log.filterMap f = [] := by
    refine List.filterMap_eq_nil_iff.2 fun a ha => ?_
    obtain ⟨call, answer⟩ := a
    obtain rfl : call = .terminate := h _ ha
    exact hf answer
  constructor
  · rw [recorded, entries, none fun _ => rfl]
    rfl
  · exact none fun _ => rfl

theorem recorded_of_step {log : Log system} (hp : Path (step c phase) log phase') :
    recorded (actions log) = Advance.lines c ⟨phase, log⟩ ∧
      writes (actions log) = Advance.sends c ⟨phase, log⟩ := by
  unfold Advance.lines Advance.sends
  by_cases hr : ∃ i, phase = .running i
  · obtain ⟨i, rfl⟩ := hr
    dsimp only
    cases path_step_running hp with
    | goesOn hw hd =>
      obtain ⟨hr, hs⟩ := recorded_of_path hd
      rw [hw, List.flatMap_singleton, List.flatMap_singleton]
      exact ⟨hr, hs⟩
    | @leaves e _ hw he hn _ _ =>
      obtain ⟨hr, hs⟩ := recorded_of_terminate hn
      rw [hr, hs, hw, List.flatMap_singleton, List.flatMap_singleton]
      cases e with
      | debuggerClosed _ | inputClosed => exact ⟨rfl, rfl⟩
      | _ => cases he
    | interrupted hw hn =>
      obtain ⟨hr, hs⟩ := recorded_of_terminate hn
      rw [hr, hs, hw]
      exact ⟨rfl, rfl⟩
  · rw [not_exists] at hr
    obtain ⟨-, ha, -⟩ := path_step_of_not_running hr hp
    rw [ha]
    cases phase with
    | running i => exact absurd rfl (hr i)
    | _ => exact ⟨rfl, rfl⟩

/-- A debugger goes on behind an event that is not its last one. -/
theorem path_step_of_path (hp : Path (i.onEvent c e) log (i', none)) :
    Path (step c (.running i)) (⟨.awaitEvent, .event e⟩ :: log.map ofControl) (.running i') :=
  path_ask_bind.2 ⟨.event e, _, rfl, path_bind.2 ⟨log.map ofControl, (i', none), [],
    path_control.2 ⟨log, hp, rfl⟩, .done _, (List.append_nil _).symm⟩⟩

/-! ## Sessions -/

theorem only_control {α : Type} {P : SystemCall → Prop} (h : ∀ a, P (.act a)) (p : Control α) :
    Only P (control p) := by
  intro log a hp e he
  obtain ⟨done, -, rfl⟩ := path_control.1 hp
  obtain ⟨d, -, rfl⟩ := List.mem_map.1 he
  exact h d.call

theorem only_launch (role : Role) (commandLine : List String) :
    Only (¬IsCreation ·) (launch role commandLine) := by
  unfold launch
  split
  · exact .done _
  · refine .bind (.ask not_false) fun started => ?_
    cases started <;> exact .done _

/-- No step creates a transcript. -/
theorem only_step (c : Config) (phase : Phase) : Only (¬IsCreation ·) (step c phase) := by
  have acts : ∀ a, ¬IsCreation (.act a) := fun _ => not_false
  have ends : Only (¬IsCreation ·) endDebugger :=
    .bind (only_control acts _) fun _ => .ask not_false
  cases phase with
  | starting g =>
    refine .bind (.ask not_false) fun status => ?_
    cases status with
    | some _ => exact .done _
    | none =>
      refine .bind (only_launch _ _) fun started => ?_
      cases started <;> exact .done _
  | running i =>
    refine .bind (.ask not_false) fun stimulus => ?_
    cases stimulus with
    | interrupt => exact .bind ends fun _ => .done _
    | event e =>
      refine .bind (only_control acts _) fun r => ?_
      obtain ⟨i', _ | _ | _⟩ := r
      · exact .done _
      · refine .bind (.ask not_false) fun _ => .bind (.ask not_false) fun interrupted => ?_
        cases interrupted <;> exact .done _
      · exact .bind ends fun _ => .done _
  | leaving => exact .bind (.ask not_false) fun _ => .done _
  | ended _ => exact .done _

/-- Opening the transcript records the root, if it succeeds. -/
theorem path_openTranscript {log : Log system} {r : Except StartError Unit} {path : String}
    (hp : Path (openTranscript c) log r) (hc : ⟨.createTranscript path, .ok ()⟩ ∈ log) :
    ∃ path', log = [⟨.createTranscript path', .ok ()⟩, ⟨.act (.log (.root c.root)), ()⟩] := by
  unfold openTranscript at hp
  split at hp
  · obtain ⟨rfl, -⟩ := path_done.1 hp
    cases hc
  · next path' _ =>
    obtain ⟨created, rest, rfl, h⟩ := path_ask_bind.1 hp
    cases created with
    | error _ =>
      obtain ⟨rfl, -⟩ := path_done.1 h
      cases hc with
      | tail _ hm => cases hm
    | ok _ =>
      obtain ⟨_, hd, -⟩ := path_bind_done.1 h
      obtain ⟨done, hd, rfl⟩ := path_control.1 hd
      rw [path_ask.1 hd]
      exact ⟨path', rfl⟩

/-- A session that has created its transcript has recorded the root in it and nothing else. -/
theorem transcript_of_start {opening : Log system} {path : String}
    (hp : Path (start c) opening phase) (hc : ⟨.createTranscript path, .ok ()⟩ ∈ opening) :
    transcript opening = .on ["# ROOT:" ++ c.root] := by
  obtain ⟨first, opened, second, h₁, h₂, rfl⟩ := path_bind.1 hp
  have rest : actions second = [] ∧ ∀ e ∈ second, ¬IsCreation e.call := by
    cases opened with
    | error _ =>
      obtain ⟨rfl, -⟩ := path_done.1 h₂
      exact ⟨rfl, fun e he => absurd he List.not_mem_nil⟩
    | ok _ =>
      obtain ⟨launched, started, last, h₃, h₄, rfl⟩ := path_bind.1 h₂
      obtain rfl : last = [] := by cases started <;> exact (path_done.1 h₄).1
      rw [List.append_nil]
      exact ⟨(path_launch h₃).2, only_launch _ _ h₃⟩
  obtain ⟨hn, hr⟩ := rest
  rcases List.mem_append.1 hc with hc | hc
  · obtain ⟨path', rfl⟩ := path_openTranscript h₁ hc
    rw [transcript, List.foldl_append]
    exact (foldl_after hr _).trans (by rw [hn]; rfl)
  · exact absurd trivial (hr _ hc)

/-- Every step adds its lines. -/
theorem Steps.foldl_after {advances : List Advance} (hs : Steps c phase advances phase')
    (written : List String) :
    (advances.flatMap Advance.log).foldl Transcript.after (.on written) =
      .on (written ++ advances.flatMap (Advance.lines c)) := by
  induction hs generalizing written with
  | refl _ => exact congrArg Transcript.on (List.append_nil _).symm
  | step hp _ ih =>
    rw [List.flatMap_cons, List.foldl_append, Session.foldl_after (only_step c _ hp),
      (recorded_of_step hp).1, ih, List.flatMap_cons, List.append_assoc]

/-- The transcript of a session, whichever debuggers it runs and whatever fails but the file: the
    root, and behind it, step for step, the lines for the events that it takes. And each step
    writes to the debugger the commands and the request that these lines are about, and nothing
    else. -/
theorem transcript_lines {opening : Log system} {advances : List Advance} {path : String}
    (ho : Path (start c) opening phase) (hc : ⟨.createTranscript path, .ok ()⟩ ∈ opening)
    (hs : Steps c phase advances phase') :
    transcript (opening ++ advances.flatMap Advance.log) =
      .on (("# ROOT:" ++ c.root) :: advances.flatMap (Advance.lines c)) ∧
    ∀ a ∈ advances, writes (actions a.log) = a.sends c := by
  constructor
  · have opened := transcript_of_start ho hc
    rw [transcript] at opened ⊢
    rw [List.foldl_append, opened, hs.foldl_after]
    rfl
  · intro a ha
    obtain ⟨next, hp⟩ := hs.path a ha
    exact (recorded_of_step hp).2

/-- A debugger that takes the first command at its prompt and then no line any more: the command
    that it took is in the transcript, and the operator's line is not. -/
theorem transcript_lines_refused :
    let c : Config :=
      { root := "/k/", debugger := ["gdb"], transcript := some "log.txt",
        initialCommands := ["cd /mnt//INVALID_CWD"] }
    ∃ opening phase advances phase', Path (start c) opening phase ∧
      ⟨.createTranscript "log.txt", .ok ()⟩ ∈ opening ∧ Steps c phase advances phase' ∧
      transcript (opening ++ advances.flatMap Advance.log) =
        .on ["# ROOT:/k/", "< (gdb)", "# Before:cd /mnt//INVALID_CWD", "# After:cd /k",
          "> cd /k"] := by
  intro c
  let i := Instance.new c 1
  let i' := { i with mux := (i.mux.observe "(gdb) ").2 }
  let opening : Log system := [⟨.createTranscript "log.txt", .ok ()⟩,
    ⟨.act (.log (.root c.root)), ()⟩, ⟨.spawn .emulator c.emulator, .ok ()⟩]
  let launch : Log system := [⟨.emulatorStatus, none⟩, ⟨.spawn .debugger c.debugger, .ok ()⟩]
  let sent : Log surroundings := [⟨.log (.filled "cd /mnt//INVALID_CWD" "cd /k"), ()⟩,
    ⟨.write "cd /k", true⟩, ⟨.log (.command "cd /k"), ()⟩]
  let prompt : Log surroundings :=
    ⟨.forward "(gdb) ", ()⟩ :: ⟨.log (.output "(gdb) "), ()⟩ :: (sent ++ tellings [])
  let refused : Log surroundings := [⟨.write "-exec-run", false⟩, ⟨.terminate, ()⟩]
  have opened : Path (start c) opening (.starting 0) := .call _ (.call _ (.call _ (.done _)))
  have launched : Path (step c (.starting 0)) launch (.running i) := .call _ (.call _ (.done _))
  have prompted : Path (i.onLine c "(gdb) ") prompt i' := by
    have answer : (i.mux.observe "(gdb) ").1 = ["cd /mnt//INVALID_CWD"] := by decide +kernel
    refine Instance.path_onLine.2 (.inr ⟨nofun, Instance.path_onOtherLine.2 ⟨sent, ?_, rfl, rfl⟩⟩)
    rw [answer]
    exact path_bind.2 ⟨sent, (), [],
      path_sendCommand.2 ⟨"cd /k", true, by decide +kernel, rfl⟩, .done _, rfl⟩
  have typed : Path (i'.onInput c "-exec-run") refused () :=
    Instance.path_onInput.2 (.inr ⟨[], refused,
      path_sendCommand.2 ⟨"-exec-run", false, by decide +kernel, rfl⟩, rfl, .inl ⟨rfl, rfl⟩⟩)
  have steps := Steps.step launched (.step
    (path_step_of_path (e := .debuggerLine 1 "(gdb) ") (path_bind_done.2 ⟨_, prompted, rfl⟩))
    (.step (path_step_of_path (e := .input "-exec-run") (path_bind_done.2 ⟨_, typed, rfl⟩))
      (.refl _)))
  refine ⟨opening, _, _, _, opened, List.mem_cons_self, steps, ?_⟩
  rw [(transcript_lines opened List.mem_cons_self steps).1]
  decide +kernel

end KernelProbe.Session
