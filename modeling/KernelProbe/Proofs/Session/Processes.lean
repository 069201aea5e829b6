import KernelProbe.Proofs.Session.Transcript

/-!
# The processes of a session

While a session goes on, debuggers end, the emulator ends, the operator interrupts the session and
his input ends, each at any time. A *history* has the calls of the session with all this among them.
It is lawful (`World.Lawful`) if each happening fits what was before: only a process that runs ends,
a process that was waited for has ended, and what is said of the operator is so.

The calls of a session come in an order that is told by *stages* (`Moves`): at each stage few calls
are possible, and it is known which debugger may run and what the last calls were.

* `exists_stage`: the calls of a session lead from stage to stage, and to the one of its phase;
* `Leads.holds` and `Leads.lastCalls`: how it stands at a stage in every lawful history, and what
  the calls before it were;
* `Leads.not_isSpawn`: a session that has begun to end starts no process;
* `processes_supervised`: at most one debugger at any time, when the next one is started, and how
  it stands at each end of a session.
-/

namespace KernelProbe.Session

open Debugger Program

variable {c : Config} {i : Instance} {phase phase' : Phase} {log more : Log system}
  {e : Exchange system} {n : Nat} {advances : List Advance}

/-! ## Histories -/

/-- The emulator of a session. -/
inductive EmulatorState
  | absent
  | running
  | exited (code : Nat)
  deriving DecidableEq

/-- How it stands with the processes and the operator. -/
structure World where
  /-- How many debuggers were started. -/
  started : Nat := 0
  /-- The debuggers that run, each told by how many were started with it. -/
  debuggers : List Nat := []
  emulator : EmulatorState := .absent
  /-- Whether the operator has interrupted the session. -/
  interrupted : Bool := false
  /-- Whether the operator's input has ended. -/
  inputEnded : Bool := false

/-- What happens in and around a session. -/
inductive Happening
  /-- A call of the session is answered. -/
  | call (e : Exchange system)
  | debuggerExits (number : Nat)
  | emulatorExits (code : Nat)
  | interrupt
  | inputEnds

/-- The calls of a session in a history. -/
def calls (history : List Happening) : Log system :=
  history.filterMap fun
    | .call e => some e
    | _ => none

namespace World

variable {w w' : World} {h : Happening} {s : Stimulus}

/-- What a happening changes. -/
def after (w : World) : Happening → World
  | .call ⟨.spawn .debugger _, .ok ()⟩ =>
    { w with started := w.started + 1, debuggers := (w.started + 1) :: w.debuggers }
  | .call ⟨.spawn .emulator _, .ok ()⟩ => { w with emulator := .running }
  | .call _ => w
  | .debuggerExits number => { w with debuggers := w.debuggers.erase number }
  | .emulatorExits code => { w with emulator := .exited code }
  | .interrupt => { w with interrupted := true }
  | .inputEnds => { w with inputEnded := true }

/-- The operator has done what a session hears of him. -/
def Heard (w : World) : Stimulus → Prop
  | .interrupt => w.interrupted = true
  | .event .inputClosed => w.inputEnded = true
  | .event _ => True

/-- A happening fits how it stands. A call that waits for a process is answered only when that
    process does not run; the debugger that is waited for is the one that was started last. -/
def Allows (w : World) : Happening → Prop
  | .call ⟨.emulatorStatus, none⟩ => w.emulator = .running
  | .call ⟨.emulatorStatus, some code⟩ => w.emulator = .exited code
  | .call ⟨.awaitEvent, stimulus⟩ => w.Heard stimulus
  | .call ⟨.awaitDebugger, _⟩ => w.started ∉ w.debuggers
  | .call ⟨.awaitEmulator, _⟩ => ∃ code, w.emulator = .exited code
  | .call ⟨.pause _, interrupted⟩ => interrupted = true → w.interrupted = true
  | .call _ => True
  | .debuggerExits number => number ∈ w.debuggers
  | .emulatorExits _ => w.emulator = .running
  | .interrupt | .inputEnds => True

/-- Each happening of a history fits how it stands by then. -/
def Lawful (w : World) : List Happening → Prop
  | [] => True
  | h :: history => w.Allows h ∧ (w.after h).Lawful history

/-- How it stands behind a history. -/
def behind (w : World) (history : List Happening) : World :=
  history.foldl after w

/-- What can become of a world without the session: debuggers are not started, and what the
    operator has done and the end of the emulator stay. -/
structure Later (w w' : World) : Prop where
  started : w'.started = w.started
  debuggers : w'.debuggers.Sublist w.debuggers
  heard : ∀ s, w.Heard s → w'.Heard s
  exited : ∀ code, w.emulator = .exited code → w'.emulator = .exited code

theorem later_after (ha : w.Allows h) (hc : ∀ e, h ≠ .call e) : Later w (w.after h) := by
  cases h with
  | call e => exact absurd rfl (hc e)
  | debuggerExits number =>
    exact ⟨rfl, List.erase_sublist, fun s hs => by cases s <;> exact hs, fun _ => id⟩
  | emulatorExits code =>
    have ha : w.emulator = .running := ha
    refine ⟨rfl, .refl _, fun s hs => ?_, fun code' he => ?_⟩
    · cases s with
      | interrupt => exact hs
      | event e => cases e <;> exact hs
    · rw [ha] at he
      cases he
  | interrupt =>
    refine ⟨rfl, .refl _, fun s hs => ?_, fun _ => id⟩
    cases s with
    | interrupt => rfl
    | event e => cases e <;> exact hs
  | inputEnds =>
    refine ⟨rfl, .refl _, fun s hs => ?_, fun _ => id⟩
    cases s with
    | interrupt => exact hs
    | event e => cases e <;> first | rfl | trivial

theorem lawful_append {before rest : List Happening} :
    w.Lawful (before ++ rest) ↔ w.Lawful before ∧ (w.behind before).Lawful rest := by
  induction before generalizing w with
  | nil => exact (iff_of_eq (true_and _)).symm
  | cons h before ih => exact (and_congr_right fun _ => ih).trans and_assoc.symm

end World

/-! ## Stages -/

/-- What a session does next with its processes. -/
inductive Stage
  /-- It starts the emulator. -/
  | opening
  /-- It looks at the emulator; this many debuggers were started, and none runs. -/
  | idle (n : Nat)
  /-- It starts the next debugger. -/
  | checked (n : Nat)
  /-- It goes on with the debugger. -/
  | debugging (n : Nat)
  /-- It pauses, behind a debugger that ended by itself. -/
  | reaped (n : Nat)
  /-- It makes the debugger end, to end in this way. -/
  | closing (n : Nat) (e : SessionEnd)
  /-- It waits for the debugger that was made to end. -/
  | ending (n : Nat) (e : SessionEnd)
  /-- It waits for the emulator. -/
  | leaving
  | finished (e : SessionEnd)
  | failed

/-- A call with its answer leads from one stage to the next. -/
inductive Moves (c : Config) : Stage → Exchange system → Stage → Prop
  | transcript {path : String} : Moves c .opening ⟨.createTranscript path, .ok ()⟩ .opening
  | noTranscript {path cause : String} :
      Moves c .opening ⟨.createTranscript path, .error cause⟩ .failed
  | recorded {entry : Entry} : Moves c .opening ⟨.act (.log entry), ()⟩ .opening
  | emulator {commandLine : List String} :
      Moves c .opening ⟨.spawn .emulator commandLine, .ok ()⟩ (.idle 0)
  | noEmulator {commandLine : List String} {cause : String} :
      Moves c .opening ⟨.spawn .emulator commandLine, .error cause⟩ .failed
  | found {n : Nat} : Moves c (.idle n) ⟨.emulatorStatus, none⟩ (.checked n)
  | gone {n code : Nat} :
      Moves c (.idle n) ⟨.emulatorStatus, some code⟩ (.finished (.emulatorExited code))
  | debugger {n : Nat} {commandLine : List String} :
      Moves c (.checked n) ⟨.spawn .debugger commandLine, .ok ()⟩ (.debugging (n + 1))
  | noDebugger {n : Nat} {commandLine : List String} {cause : String} :
      Moves c (.checked n) ⟨.spawn .debugger commandLine, .error cause⟩ .failed
  | act {n : Nat} {a : Action} {answer : a.Answer} :
      Moves c (.debugging n) ⟨.act a, answer⟩ (.debugging n)
  | event {n : Nat} {e : Event} : e ≠ .inputClosed →
      Moves c (.debugging n) ⟨.awaitEvent, .event e⟩ (.debugging n)
  | exited {n : Nat} : Moves c (.debugging n) ⟨.awaitDebugger, ()⟩ (.reaped n)
  | paused {n : Nat} : Moves c (.reaped n) ⟨.pause c.restartDelay, false⟩ (.idle n)
  | broken {n : Nat} : Moves c (.reaped n) ⟨.pause c.restartDelay, true⟩ .leaving
  | interrupt {n : Nat} : Moves c (.debugging n) ⟨.awaitEvent, .interrupt⟩ (.closing n .interrupted)
  | inputClosed {n : Nat} :
      Moves c (.debugging n) ⟨.awaitEvent, .event .inputClosed⟩ (.closing n .inputClosed)
  | terminate {n : Nat} {e : SessionEnd} :
      Moves c (.closing n e) ⟨.act .terminate, ()⟩ (.ending n e)
  | left {n : Nat} : Moves c (.ending n .interrupted) ⟨.awaitDebugger, ()⟩ .leaving
  | ended {n : Nat} : Moves c (.ending n .inputClosed) ⟨.awaitDebugger, ()⟩ (.finished .inputClosed)
  | waited : Moves c .leaving ⟨.awaitEmulator, ()⟩ (.finished .interrupted)

/-- Calls with their answers lead from one stage to another. -/
inductive Leads (c : Config) : Stage → Log system → Stage → Prop
  | refl (s : Stage) : Leads c s [] s
  | step {s s' s'' : Stage} {e : Exchange system} {log : Log system} :
      Moves c s e s' → Leads c s' log s'' → Leads c s (e :: log) s''

/-- The stage of a session between two steps. -/
inductive Phase.Stands : Phase → Stage → Prop
  | starting (g : Nat) : Stands (.starting g) (.idle g)
  | running (i : Instance) : Stands (.running i) (.debugging i.generation)
  | leaving : Stands .leaving .leaving
  | finished (e : SessionEnd) : Stands (.ended (.ok e)) (.finished e)
  | failed (error : StartError) (s : Stage) : Stands (.ended (.error error)) s

variable {s s' s'' : Stage}

namespace Leads

theorem append (h : Leads c s log s') (h' : Leads c s' more s'') :
    Leads c s (log ++ more) s'' := by
  induction h with
  | refl _ => exact h'
  | step hm _ ih => exact .step hm (ih h')

theorem of_append (h : Leads c s (log ++ more) s'') :
    ∃ s', Leads c s log s' ∧ Leads c s' more s'' := by
  induction log generalizing s with
  | nil => exact ⟨s, .refl s, h⟩
  | cons e log ih =>
    cases h with
    | step hm h =>
      obtain ⟨s', h₁, h₂⟩ := ih h
      exact ⟨s', .step hm h₁, h₂⟩

/-- What the control loop does stays with the debugger. -/
theorem actions (done : Log surroundings) :
    Leads c (.debugging n) (done.map ofControl) (.debugging n) := by
  induction done with
  | nil => exact .refl _
  | cons a done ih => exact .step .act ih

theorem endDebugger (e : SessionEnd) (hm : Moves c (.ending n e) ⟨.awaitDebugger, ()⟩ s) :
    Leads c (.closing n e) [⟨.act .terminate, ()⟩, ⟨.awaitDebugger, ()⟩] s :=
  .step .terminate (.step hm (.refl _))

end Leads

/-! ## The stages of a session -/

theorem leads_openTranscript {r : Except StartError Unit} (hp : Path (openTranscript c) log r) :
    ∃ s, Leads c .opening log s ∧ (r = .ok () → s = .opening) := by
  unfold openTranscript at hp
  split at hp
  · obtain ⟨rfl, -⟩ := path_done.1 hp
    exact ⟨_, .refl _, fun _ => rfl⟩
  · obtain ⟨created, rest, rfl, h⟩ := path_ask_bind.1 hp
    cases created with
    | error cause =>
      obtain ⟨rfl, rfl⟩ := path_done.1 h
      exact ⟨_, .step .noTranscript (.refl _), nofun⟩
    | ok _ =>
      obtain ⟨_, hd, -⟩ := path_bind_done.1 h
      obtain ⟨done, hd, rfl⟩ := path_control.1 hd
      rw [path_ask.1 hd]
      exact ⟨_, .step .transcript (.step .recorded (.refl _)), fun _ => rfl⟩

/-- A process is started by one call, if at all, and nothing is called behind it. -/
theorem leads_launch {role : Role} {commandLine : List String} {next : Phase}
    {f : Except StartError Unit → Program system Phase}
    (hp : Path (launch role commandLine >>= f) log phase)
    (he : ∀ error, f (.error error) = .done (.ended (.error error)))
    (ho : f (.ok ()) = .done next) (hn : next.Stands s')
    (hs : Moves c s ⟨.spawn role commandLine, .ok ()⟩ s')
    (hf : ∀ cause, Moves c s ⟨.spawn role commandLine, .error cause⟩ .failed) :
    ∃ s', Leads c s log s' ∧ phase.Stands s' := by
  obtain ⟨first, r, rest, h₁, h₂, rfl⟩ := path_bind.1 hp
  unfold launch at h₁
  split at h₁
  · obtain ⟨rfl, rfl⟩ := path_done.1 h₁
    rw [he] at h₂
    obtain ⟨rfl, rfl⟩ := path_done.1 h₂
    exact ⟨s, .refl _, .failed _ s⟩
  · obtain ⟨answer, _, rfl, h⟩ := path_ask_bind.1 h₁
    cases answer with
    | error cause =>
      obtain ⟨rfl, rfl⟩ := path_done.1 h
      rw [he] at h₂
      obtain ⟨rfl, rfl⟩ := path_done.1 h₂
      exact ⟨_, .step (hf cause) (.refl _), .failed _ _⟩
    | ok _ =>
      obtain ⟨rfl, rfl⟩ := path_done.1 h
      rw [ho] at h₂
      obtain ⟨rfl, rfl⟩ := path_done.1 h₂
      exact ⟨_, .step hs (.refl _), hn⟩

theorem leads_start (hp : Path (start c) log phase) :
    ∃ s, Leads c .opening log s ∧ phase.Stands s := by
  obtain ⟨first, opened, rest, h₁, h₂, rfl⟩ := path_bind.1 hp
  obtain ⟨s, ho, hs⟩ := leads_openTranscript h₁
  cases opened with
  | error error =>
    obtain ⟨rfl, rfl⟩ := path_done.1 h₂
    rw [List.append_nil]
    exact ⟨s, ho, .failed error s⟩
  | ok _ =>
    obtain rfl := hs rfl
    obtain ⟨s', hl, h⟩ :=
      leads_launch h₂ (fun _ => rfl) rfl (.starting 0) .emulator fun _ => .noEmulator
    exact ⟨s', ho.append hl, h⟩

theorem leads_step_starting {g : Nat} (hp : Path (step c (.starting g)) log phase') :
    ∃ s, Leads c (.idle g) log s ∧ phase'.Stands s := by
  obtain ⟨status, rest, rfl, h⟩ := path_ask_bind.1 hp
  cases status with
  | some code =>
    obtain ⟨rfl, rfl⟩ := path_done.1 h
    exact ⟨_, .step .gone (.refl _), .finished _⟩
  | none =>
    obtain ⟨s, hl, hs⟩ :=
      leads_launch h (fun _ => rfl) rfl (.running _) .debugger fun _ => .noDebugger
    exact ⟨s, .step .found hl, hs⟩

/-- Only the end of the operator's input is taken as such. -/
theorem Instance.end?_eq_inputClosed_iff {e : Event} :
    i.end? e = some .inputClosed ↔ e = .inputClosed := by
  constructor
  · intro he
    cases e with
    | inputClosed => rfl
    | debuggerClosed g =>
      rw [Instance.end?] at he
      split at he <;> cases he
    | _ => cases he
  · rintro rfl
    rfl

theorem leads_step_running (hp : Path (step c (.running i)) log phase') :
    ∃ s, Leads c (.debugging i.generation) log s ∧ phase'.Stands s := by
  obtain ⟨stimulus, rest, rfl, h⟩ := path_ask_bind.1 hp
  cases stimulus with
  | interrupt =>
    obtain ⟨_, hd, rfl⟩ := path_bind_done.1 h
    rw [path_endDebugger hd]
    exact ⟨_, .step .interrupt (.endDebugger _ .left), .leaving⟩
  | event e =>
    obtain ⟨first, ⟨i', o⟩, second, h₁, h₂, rfl⟩ := path_bind.1 h
    obtain ⟨done, hd, rfl⟩ := path_control.1 h₁
    obtain ⟨ho, rfl⟩ := Instance.outcome_of_path hd
    have hg := ho.continues.generation
    -- Behind any event but the end of the input, the debugger is still to be waited for.
    have taken (hn : i.end? e ≠ some .inputClosed) : Moves c (.debugging i.generation)
        ⟨.awaitEvent, .event e⟩ (.debugging i.generation) :=
      .event fun h => hn (Instance.end?_eq_inputClosed_iff.2 h)
    cases he : i.end? e with
    | none =>
      rw [he] at h₂
      obtain ⟨rfl, rfl⟩ := path_done.1 h₂
      rw [List.append_nil, ← hg]
      exact ⟨_, .step (hg ▸ taken fun h => by cases he.symm.trans h) (.actions done), .running i'⟩
    | some o =>
      obtain rfl := ho.eq_nil (by rw [he]; rfl)
      rw [he] at h₂
      cases o with
      | exited =>
        obtain ⟨_, _, rfl, h₃⟩ := path_ask_bind.1 h₂
        obtain ⟨interrupted, _, rfl, h₄⟩ := path_ask_bind.1 h₃
        have hf : Leads c (.debugging i.generation)
            [⟨.awaitEvent, .event e⟩, ⟨.awaitDebugger, ()⟩] (.reaped i.generation) :=
          .step (taken fun h => by cases he.symm.trans h) (.step .exited (.refl _))
        cases interrupted with
        | false =>
          obtain ⟨rfl, rfl⟩ := path_done.1 h₄
          rw [hg]
          exact ⟨_, hf.append (.step .paused (.refl _)), .starting _⟩
        | true =>
          obtain ⟨rfl, rfl⟩ := path_done.1 h₄
          exact ⟨_, hf.append (.step .broken (.refl _)), .leaving⟩
      | inputClosed =>
        obtain ⟨_, h₃, rfl⟩ := path_bind_done.1 h₂
        obtain rfl := Instance.end?_eq_inputClosed_iff.1 he
        rw [path_endDebugger h₃]
        exact ⟨_, .step .inputClosed (.endDebugger _ .ended), .finished _⟩

theorem leads_step (hp : Path (step c phase) log phase') (hs : phase.Stands s) :
    ∃ s', Leads c s log s' ∧ phase'.Stands s' := by
  cases hs with
  | starting g => exact leads_step_starting hp
  | running i => exact leads_step_running hp
  | leaving =>
    obtain ⟨_, rest, rfl, h⟩ := path_ask_bind.1 hp
    obtain ⟨rfl, rfl⟩ := path_done.1 h
    exact ⟨_, .step .waited (.refl _), .finished _⟩
  | finished e =>
    obtain ⟨rfl, rfl⟩ := path_done.1 hp
    exact ⟨_, .refl _, .finished e⟩
  | failed error s =>
    obtain ⟨rfl, rfl⟩ := path_done.1 hp
    exact ⟨_, .refl _, .failed error s⟩

theorem Steps.leads (hs : Steps c phase advances phase') (h : phase.Stands s) :
    ∃ s', Leads c s (advances.flatMap Advance.log) s' ∧ phase'.Stands s' := by
  induction hs generalizing s with
  | refl _ => exact ⟨s, .refl s, h⟩
  | step hp _ ih =>
    obtain ⟨s', hf, hs'⟩ := leads_step hp h
    obtain ⟨s'', hf', hs''⟩ := ih hs'
    exact ⟨s'', hf.append hf', hs''⟩

/-- The calls of a session lead to the stage of its phase. -/
theorem exists_stage (hp : Path (start c) log phase) (hs : Steps c phase advances phase') :
    ∃ s, Leads c .opening (log ++ advances.flatMap Advance.log) s ∧ phase'.Stands s := by
  obtain ⟨s, hf, h⟩ := leads_start hp
  obtain ⟨s', hf', h'⟩ := hs.leads h
  exact ⟨s', hf.append hf', h'⟩

/-- A session that has ended makes no call. -/
theorem Steps.eq_nil_of_ended {result : Except StartError SessionEnd}
    (hs : Steps c (.ended result) advances phase') : advances.flatMap Advance.log = [] := by
  generalize hp : Phase.ended result = phase at hs
  induction hs with
  | refl _ => rfl
  | step hstep _ ih =>
    subst hp
    obtain ⟨rfl, rfl⟩ := path_done.1 hstep
    exact ih rfl

/-! ## What is known at a stage -/

/-- How it stands when a session ends. -/
def SessionEnd.Holds (w : World) : SessionEnd → Prop
  | .emulatorExited code => w.emulator = .exited code
  | .interrupted => w.interrupted = true ∧ ∃ code, w.emulator = .exited code
  | .inputClosed => w.inputEnded = true

/-- What a session hears before it makes its debugger end. -/
def SessionEnd.stimulus : SessionEnd → Stimulus
  | .interrupted => .interrupt
  | _ => .event .inputClosed

/-- The last calls of a session that has ended, one of these rows. -/
def SessionEnd.lastCalls (c : Config) : SessionEnd → List (Log system)
  | .emulatorExited code => [[⟨.emulatorStatus, some code⟩]]
  | .interrupted =>
    [[⟨.awaitEvent, .interrupt⟩, ⟨.act .terminate, ()⟩, ⟨.awaitDebugger, ()⟩,
        ⟨.awaitEmulator, ()⟩],
      [⟨.awaitDebugger, ()⟩, ⟨.pause c.restartDelay, true⟩, ⟨.awaitEmulator, ()⟩]]
  | .inputClosed =>
    [[⟨.awaitEvent, .event .inputClosed⟩, ⟨.act .terminate, ()⟩, ⟨.awaitDebugger, ()⟩]]

namespace Stage

variable {w w' : World}

/-- How it stands at a stage. A debugger may run only from its start until it was waited for. -/
def Holds (w : World) : Stage → Prop
  | .opening => w.started = 0 ∧ w.debuggers = []
  | .idle n | .checked n | .reaped n => w.started = n ∧ w.debuggers = []
  | .debugging n => w.started = n ∧ w.debuggers.Sublist [n]
  | .closing n e | .ending n e =>
    w.started = n ∧ w.debuggers.Sublist [n] ∧ w.Heard e.stimulus
  | .leaving => w.debuggers = [] ∧ w.interrupted = true
  | .finished e => w.debuggers = [] ∧ e.Holds w
  | .failed => w.debuggers = []

/-- The calls before a stage end with one of these rows. -/
def lastCalls (c : Config) : Stage → List (Log system)
  | .idle (_ + 1) => [[⟨.awaitDebugger, ()⟩, ⟨.pause c.restartDelay, false⟩]]
  | .checked 0 => [[⟨.emulatorStatus, none⟩]]
  | .checked (_ + 1) =>
    [[⟨.awaitDebugger, ()⟩, ⟨.pause c.restartDelay, false⟩, ⟨.emulatorStatus, none⟩]]
  | .reaped _ => [[⟨.awaitDebugger, ()⟩]]
  | .closing _ e => [[⟨.awaitEvent, e.stimulus⟩]]
  | .ending _ e => [[⟨.awaitEvent, e.stimulus⟩, ⟨.act .terminate, ()⟩]]
  | .leaving =>
    [[⟨.awaitEvent, .interrupt⟩, ⟨.act .terminate, ()⟩, ⟨.awaitDebugger, ()⟩],
      [⟨.awaitDebugger, ()⟩, ⟨.pause c.restartDelay, true⟩]]
  | .finished e => e.lastCalls c
  | .opening | .idle 0 | .debugging _ | .failed => [[]]

/-- The session has begun to end. -/
def Closed : Stage → Prop
  | .closing .. | .ending .. | .leaving | .finished _ => True
  | _ => False

/-- At most one debugger runs. -/
theorem Holds.length_le (h : s.Holds w) : w.debuggers.length ≤ 1 := by
  have none (hw : w.debuggers = []) : w.debuggers.length ≤ 1 := by
    rw [hw]
    exact Nat.zero_le 1
  cases s with
  | debugging n => exact h.2.length_le
  | closing n e | ending n e => exact h.2.1.length_le
  | opening | idle n | checked n | reaped n => exact none h.2
  | leaving | finished e => exact none h.1
  | failed => exact none h

/-- What is known at a stage stays so while the session makes no call. -/
theorem Holds.later (h : s.Holds w) (hl : World.Later w w') : s.Holds w' := by
  have started {n : Nat} (hn : w.started = n) : w'.started = n := hl.started.trans hn
  have none (hw : w.debuggers = []) : w'.debuggers = [] :=
    List.sublist_nil.1 (hw ▸ hl.debuggers)
  cases s with
  | opening | idle n | checked n | reaped n => exact ⟨started h.1, none h.2⟩
  | debugging n => exact ⟨started h.1, hl.debuggers.trans h.2⟩
  | closing n e | ending n e =>
    exact ⟨started h.1, hl.debuggers.trans h.2.1, hl.heard _ h.2.2⟩
  | leaving => exact ⟨none h.1, hl.heard .interrupt h.2⟩
  | finished e =>
    refine ⟨none h.1, ?_⟩
    cases e with
    | emulatorExited code => exact hl.exited code h.2
    | interrupted =>
      obtain ⟨-, hi, code, he⟩ := h
      exact ⟨hl.heard .interrupt hi, code, hl.exited code he⟩
    | inputClosed => exact hl.heard (.event .inputClosed) h.2
  | failed => exact none h

end Stage

/-- Once the debugger of the moment was waited for, none runs. -/
theorem World.debuggers_eq_nil {w : World} (hn : w.started = n) (hd : w.debuggers.Sublist [n])
    (ha : w.started ∉ w.debuggers) : w.debuggers = [] := by
  rcases List.sublist_singleton.1 hd with h | h
  · exact h
  · rw [h, hn] at ha
    exact absurd List.mem_cons_self ha

/-- A call keeps what is known. -/
theorem Moves.holds {w : World} (hm : Moves c s e s') (hs : s.Holds w)
    (ha : w.Allows (.call e)) : s'.Holds (w.after (.call e)) := by
  cases hm with
  | transcript | recorded | emulator | found | act | event | paused | terminate => exact hs
  | noTranscript | noEmulator | noDebugger => exact hs.2
  | gone => exact ⟨hs.2, ha⟩
  | debugger =>
    obtain ⟨rfl, hd⟩ := hs
    refine ⟨rfl, ?_⟩
    change ((w.started + 1) :: w.debuggers).Sublist _
    rw [hd]
  | exited => exact ⟨hs.1, World.debuggers_eq_nil hs.1 hs.2 ha⟩
  | broken => exact ⟨hs.2, ha rfl⟩
  | interrupt | inputClosed => exact ⟨hs.1, hs.2, ha⟩
  | left | ended => exact ⟨World.debuggers_eq_nil hs.1 hs.2.1 ha, hs.2.2⟩
  | waited => exact ⟨hs.1, hs.2, ha⟩

/-- The calls end with one of these rows. -/
def EndsWith (rows : List (Log system)) (log : Log system) : Prop :=
  ∃ row ∈ rows, row <:+ log

theorem EndsWith.snoc {rows : List (Log system)} (h : EndsWith rows log) (e : Exchange system) :
    EndsWith (rows.map (· ++ [e])) (log ++ [e]) := by
  obtain ⟨row, hr, before, rfl⟩ := h
  exact ⟨row ++ [e], List.mem_map_of_mem hr, before, (List.append_assoc ..).symm⟩

theorem EndsWith.mono {rows rows' : List (Log system)} (h : EndsWith rows log)
    (hs : rows ⊆ rows') : EndsWith rows' log := by
  obtain ⟨row, hr, hl⟩ := h
  exact ⟨row, hs hr, hl⟩

/-- A call is the last one behind those that were the last. -/
theorem Moves.lastCalls (hm : Moves c s e s') (h : EndsWith (s.lastCalls c) log) :
    EndsWith (s'.lastCalls c) (log ++ [e]) := by
  -- A stage asks for any calls, for this one alone, or for this one behind the row before.
  have any : EndsWith [[]] (log ++ [e]) := ⟨[], List.mem_cons_self, List.nil_suffix⟩
  have alone : EndsWith [[e]] (log ++ [e]) := ⟨[e], List.mem_cons_self, log, rfl⟩
  cases hm with
  | @found n => cases n with
    | zero => exact alone
    | succ n => exact h.snoc _
  | @paused n => cases n with
    | zero => exact any
    | succ n => exact h.snoc _
  | gone | exited | interrupt | inputClosed => exact alone
  | terminate | ended | waited => exact h.snoc _
  -- Two ways lead here, and the row is one of two.
  | left | broken => exact (h.snoc _).mono (by simp [Stage.lastCalls, SessionEnd.stimulus])
  | _ => exact any

/-- The session begins to end with this call. -/
def Closes : Exchange system → Prop
  | ⟨.emulatorStatus, some _⟩ | ⟨.awaitEvent, .interrupt⟩ | ⟨.awaitEvent, .event .inputClosed⟩
  | ⟨.pause _, true⟩ => True
  | _ => False

/-- A process is to be started. -/
def IsSpawn : SystemCall → Prop
  | .spawn .. => True
  | _ => False

theorem Moves.closed_of_closes (hm : Moves c s e s') (he : Closes e) : s'.Closed := by
  cases hm with
  | @event n e hn => cases e <;> first | exact absurd rfl hn | exact he.elim
  | gone | interrupt | inputClosed | broken => trivial
  | _ => exact he.elim

theorem Moves.closed_of_closed (hm : Moves c s e s') (hs : s.Closed) :
    s'.Closed ∧ ¬IsSpawn e.call := by
  cases hm with
  | terminate | left | ended | waited => exact ⟨trivial, id⟩
  | _ => exact hs.elim

namespace Leads

/-- A session that has begun to end starts no process. -/
theorem not_isSpawn (h : Leads c s log s') (hs : s.Closed) : ∀ e ∈ log, ¬IsSpawn e.call := by
  induction h with
  | refl _ => exact fun e he => absurd he List.not_mem_nil
  | step hm _ ih =>
    obtain ⟨hc, he⟩ := hm.closed_of_closed hs
    exact List.forall_mem_cons.2 ⟨he, ih hc⟩

theorem lastCalls (h : Leads c s more s') (hs : EndsWith (s.lastCalls c) log) :
    EndsWith (s'.lastCalls c) (log ++ more) := by
  induction h generalizing log with
  | refl _ => rwa [List.append_nil]
  | @step _ _ _ e more hm _ ih =>
    rw [List.append_cons]
    exact ih (hm.lastCalls hs)

/-- What is known at the stages of a session is so in every lawful history. -/
theorem holds {history : List Happening} {w : World} (h : Leads c s (calls history) s')
    (hl : w.Lawful history) (hs : s.Holds w) : s'.Holds (w.behind history) := by
  induction history generalizing w s with
  | nil =>
    cases h
    exact hs
  | cons first history ih =>
    obtain ⟨ha, hl⟩ := hl
    -- The stage changes at the calls, and between them the world goes on by itself.
    cases first with
    | call e =>
      cases h with
      | step hm h => exact ih h hl (hm.holds hs ha)
    | _ => exact ih h hl (hs.later (World.later_after ha fun _ h => by cases h))

end Leads

/-! ## Sessions with their processes -/

theorem calls_append (before after : List Happening) :
    calls (before ++ after) = calls before ++ calls after :=
  List.filterMap_append

theorem endsWith_opening (c : Config) : EndsWith (Stage.opening.lastCalls c) [] :=
  ⟨[], List.mem_cons_self, List.nil_suffix⟩

/-- Every call of a session is made at a stage, and what is known there is so by then. -/
theorem exists_moves {before after : List Happening}
    (h : Leads c .opening (calls (before ++ .call e :: after)) s'')
    (hl : World.Lawful {} (before ++ .call e :: after)) :
    ∃ s s', EndsWith (s.lastCalls c) (calls before) ∧ s.Holds (World.behind {} before) ∧
      Moves c s e s' ∧ Leads c s' (calls after) s'' := by
  rw [calls_append] at h
  obtain ⟨s, hb, h⟩ := h.of_append
  cases h with
  | step hm h =>
    have hl := (World.lawful_append.1 hl).1
    exact ⟨s, _, hb.lastCalls (endsWith_opening c), hb.holds hl ⟨rfl, rfl⟩, hm, h⟩

/-- A debugger is started when none runs and the emulator was just found running; if it is not the
    first one, the last one was waited for, and then the pause passed without an interrupt. -/
structure DebuggerStart (c : Config) (before : List Happening) : Prop where
  alone : (World.behind {} before).debuggers = []
  found : [⟨.emulatorStatus, none⟩] <:+ calls before
  waited : (World.behind {} before).started = 0 ∨
    [⟨.awaitDebugger, ()⟩, ⟨.pause c.restartDelay, false⟩, ⟨.emulatorStatus, none⟩] <:+
      calls before

/-- A session ends when no debugger runs, and its last calls led to this end. -/
structure SessionEnd.Reached (c : Config) (e : SessionEnd) (history : List Happening) : Prop where
  alone : (World.behind {} history).debuggers = []
  holds : e.Holds (World.behind {} history)
  calls : EndsWith (e.lastCalls c) (calls history)

theorem debuggerStart_of_moves {before : List Happening} {commandLine : List String}
    (hm : Moves c s ⟨.spawn .debugger commandLine, .ok ()⟩ s')
    (hc : EndsWith (s.lastCalls c) (calls before)) (hs : s.Holds (World.behind {} before)) :
    DebuggerStart c before := by
  cases hm with
  | @debugger n =>
    obtain ⟨hn, hd⟩ := hs
    obtain ⟨row, hr, hc⟩ := hc
    cases n with
    | zero =>
      obtain rfl := List.mem_singleton.1 hr
      exact ⟨hd, hc, .inl hn⟩
    | succ n =>
      obtain rfl := List.mem_singleton.1 hr
      exact ⟨hd, .trans ⟨[_, _], rfl⟩ hc, .inr hc⟩

/-- In every lawful history of a session, whenever the debuggers and the emulator end and the
    operator interrupts or ends his input, at most one debugger runs. A debugger is started only
    when the one before was waited for, the pause passed without an interrupt, and the emulator was
    found running; the debuggers are of the generations 1, 2, 3 and so on. A session ends with the
    code of the emulator, with the end of the input or with an interrupt only when that happened, no
    debugger runs, and behind an interrupt the emulator has ended, the debugger of the moment being
    made to end and waited for first. Once a session begins to end it starts no process. -/
theorem processes_supervised {history : List Happening} (hp : Path (start c) log phase)
    (hs : Steps c phase advances phase')
    (hc : calls history <+: log ++ advances.flatMap Advance.log) (hl : World.Lawful {} history) :
    (World.behind {} history).debuggers.length ≤ 1 ∧
      (∀ before commandLine after,
        history = before ++ .call ⟨.spawn .debugger commandLine, .ok ()⟩ :: after →
        DebuggerStart c before) ∧
      (∀ before e after, history = before ++ .call e :: after → Closes e →
        ∀ e' ∈ calls after, ¬IsSpawn e'.call) ∧
      (calls history = log ++ advances.flatMap Advance.log →
        (∀ i, phase' = .running i → (World.behind {} history).started = i.generation ∧
          (World.behind {} history).debuggers.Sublist [i.generation]) ∧
        ∀ e, phase' = .ended (.ok e) → e.Reached c history ∧
          ∀ more next, Steps c phase' more next → more.flatMap Advance.log = []) := by
  obtain ⟨last, hall, hlast⟩ := exists_stage hp hs
  have first : Stage.opening.Holds {} := ⟨rfl, rfl⟩
  obtain ⟨rest, hr⟩ := hc
  rw [← hr] at hall
  obtain ⟨s, hf, hrest⟩ := hall.of_append
  refine ⟨(hf.holds hl first).length_le, ?_, ?_, fun hcalls => ?_⟩
  · rintro before commandLine after rfl
    obtain ⟨_, _, hc, hs, hm, -⟩ := exists_moves hf hl
    exact debuggerStart_of_moves hm hc hs
  · rintro before e after rfl he
    obtain ⟨_, _, -, -, hm, ha⟩ := exists_moves hf hl
    exact ha.not_isSpawn (hm.closed_of_closes he)
  · -- The history has all calls, so that its stage is the one of the phase.
    obtain rfl : rest = [] := List.append_cancel_left (hr.trans (hcalls.symm.trans
      (List.append_nil _).symm))
    cases hrest
    have hh := hf.holds hl first
    constructor
    · rintro i rfl
      cases hlast
      exact hh
    · rintro e rfl
      cases hlast
      obtain ⟨hd, he⟩ := hh
      exact ⟨⟨hd, he, hf.lastCalls (endsWith_opening c)⟩, fun more next h => h.eq_nil_of_ended⟩

/-- The first debugger ends by itself, and the second one is made to end at an interrupt. -/
theorem processes_supervised_restart :
    let c : Config := { root := "/", debugger := ["gdb"], transcript := none }
    let found : Happening := .call ⟨.emulatorStatus, none⟩
    let debugger : Happening := .call ⟨.spawn .debugger c.debugger, .ok ()⟩
    let reaped : Happening := .call ⟨.awaitDebugger, ()⟩
    let before : List Happening := [.call ⟨.spawn .emulator c.emulator, .ok ()⟩, found, debugger,
      .debuggerExits 1, .call ⟨.awaitEvent, .event (.debuggerClosed 1)⟩, reaped,
      .call ⟨.pause c.restartDelay, false⟩, found]
    let after : List Happening := [.interrupt, .call ⟨.awaitEvent, .interrupt⟩,
      .call ⟨.act .terminate, ()⟩, .debuggerExits 2, reaped, .emulatorExits 0,
      .call ⟨.awaitEmulator, ()⟩]
    let history := before ++ debugger :: after
    ∃ log advances, Path (start c) log (.starting 0) ∧
      Steps c (.starting 0) advances (.ended (.ok .interrupted)) ∧
      calls history = log ++ advances.flatMap Advance.log ∧ World.Lawful {} history ∧
      DebuggerStart c before ∧ (World.behind {} before).started = 1 ∧
      SessionEnd.interrupted.Reached c history := by
  intro c found debugger reaped before after history
  let launch : Log system := [⟨.emulatorStatus, none⟩, ⟨.spawn .debugger c.debugger, .ok ()⟩]
  let ended : Log system := [⟨.awaitEvent, .event (.debuggerClosed 1)⟩, ⟨.awaitDebugger, ()⟩,
    ⟨.pause c.restartDelay, false⟩]
  let interrupted : Log system := [⟨.awaitEvent, .interrupt⟩, ⟨.act .terminate, ()⟩,
    ⟨.awaitDebugger, ()⟩]
  have hp : Path (start c) [⟨.spawn .emulator c.emulator, .ok ()⟩] (.starting 0) :=
    .call _ (.done _)
  have launched (g : Nat) : Path (step c (.starting g)) launch (.running (.new c (g + 1))) :=
    .call _ (.call _ (.done _))
  have exited : Path (step c (.running (.new c 1))) ended (.starting 1) :=
    .call _ (.call _ (.call _ (.done _)))
  have left : Path (step c (.running (.new c 2))) interrupted .leaving :=
    .call _ (.call _ (.call _ (.done _)))
  have waited : Path (step c .leaving) [⟨.awaitEmulator, ()⟩] (.ended (.ok .interrupted)) :=
    .call _ (.done _)
  have hs := Steps.step (launched 0) (.step exited (.step (launched 1) (.step left
    (.step waited (.refl _)))))
  have hl : World.Lawful {} history := by simp [World.Lawful, World.Allows, World.after,
    World.Heard, history, before, after, found, debugger, reaped]
  obtain ⟨-, starts, -, ends⟩ := processes_supervised hp hs (List.prefix_refl (calls history)) hl
  exact ⟨_, _, hp, hs, rfl, hl, starts before _ after rfl, rfl, ((ends rfl).2 _ rfl).1⟩

end KernelProbe.Session
