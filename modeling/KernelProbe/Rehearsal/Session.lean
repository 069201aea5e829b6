import KernelProbe.Rehearsal.Stage

/-!
# Steps of a rehearsed session

What the operator does in a rehearsal comes in steps. Each step may type something, end the
emulator or interrupt the session, and then read what is shown up to a given line. Behind the
last step the operator's input ends, unless the operator only waits for the end of the session.
-/

namespace KernelProbe.Rehearsal

open Session

/-- A step of the operator. -/
structure OperatorStep where
  /-- What the operator types. -/
  typed : List UInt8
  /-- The code with which the emulator ends. -/
  emulatorExit : Option Int
  interrupts : Bool
  /-- The line up to which the operator reads. -/
  readsUntil : Option String

/-- The record of a rehearsed session. -/
structure Performance where
  /-- The lines that were read in each step. -/
  steps : List (List String)
  /-- The lines behind them. -/
  rest : List String
  /-- How the session ended. -/
  result : Except StartError SessionEnd
  /-- The lines of the transcript. -/
  transcript : List String

/-- The number of steps after which a rehearsal is given up. -/
def patience : Nat := 200000

/-- What is read behind the last line. -/
def outputClosed : String := "<output closed>"

/-- The lines up to a given one, and those behind it. -/
def readThrough (line : String) : List String → List String × List String
  | [] => ([outputClosed], [])
  | l :: r =>
    if l = line then ([l], r)
    else
      let (read, rest) := readThrough line r
      (l :: read, rest)

/-- What is left of the code of a process once it has ended: its lowest eight bits. -/
def exitStatus (code : Int) : Nat :=
  (code % UInt8.size).toNat

/-- A session and its surroundings, and how many of the lines that are shown are read. -/
structure Scene where
  phase : Phase
  stage : Stage
  read : Nat

namespace Scene

/-- Lets the session go on. -/
def settle (c : Session.Config) (s : Scene) : Scene :=
  let (phase, stage) := s.stage.settle c patience s.phase
  { s with phase, stage }

/-- The lines that are not yet read. -/
def unread (s : Scene) : List String :=
  s.stage.shown.drop s.read

/-- Carries out a step; gives the lines that are read in it. -/
def play (c : Session.Config) (s : Scene) (step : OperatorStep) : List String × Scene :=
  let stage := s.stage.type step.typed
  let stage := { stage with
    emulatorCode := stage.emulatorCode <|> step.emulatorExit.map exitStatus
    interrupted := stage.interrupted || step.interrupts }
  let s := { s with stage }.settle c
  match step.readsUntil with
  | none => ([], s)
  | some line =>
    let (lines, rest) := readThrough line s.unread
    (lines, { s with read := s.stage.shown.length - rest.length })

/-- Carries out steps, one after the other. -/
def playAll (c : Session.Config) (s : Scene) :
    List OperatorStep → List (List String) × Scene
  | [] => ([], s)
  | step :: r =>
    let (lines, s) := s.play c step
    let (more, s) := s.playAll c r
    (lines :: more, s)

/-- Ends the operator's part: an emulator that still runs is ended too. -/
def finish (c : Session.Config) (closesInput : Bool) (s : Scene) : Scene :=
  let s := if closesInput then { s with stage := s.stage.closeInput }.settle c else s
  match s.phase with
  | .ended _ => s
  | _ =>
    let code := s.stage.emulatorCode.getD 0
    { s with stage := { s.stage with emulatorCode := some code } }.settle c

end Scene

/-- Rehearses a session. -/
def perform (c : Session.Config) (stage : Stage) (steps : List OperatorStep)
    (closesInput : Bool) : Performance :=
  let (phase, stage) := stage.run (Session.start c)
  let (lines, s) := (Scene.settle c ⟨phase, stage, 0⟩).playAll c steps
  let s := s.finish c closesInput
  { steps := lines
    rest := s.unread
    transcript := s.stage.transcript.written.flatMap linesOf
    result := match s.phase with
      | .ended result => result
      | _ => .ok .interrupted }

end KernelProbe.Rehearsal
