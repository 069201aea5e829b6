import KernelProbe.Debugger.Script
import KernelProbe.Target.Expression

/-!
# The simulated target

A debugger that lives in memory. It holds sparse memory, symbols, variables, registers, the
values of stack frames and breakpoints, and it keeps a history of what was executed, printed
and read. A command that starts with a refused text fails and leaves no trace.
-/

namespace KernelProbe.Target

open Debugger

/-- A read that was asked for, whether it succeeded or not. -/
structure Read where
  space : AddressSpace
  address : UInt64
  size : Nat
  deriving DecidableEq, Repr

/-- A target in memory. -/
structure Simulated where
  memory : Memory
  names : Names
  /-- The values of each frame, innermost first. -/
  frames : List (Dict String UInt64)
  /-- Breakpoints with their addresses, oldest first. -/
  breakpoints : Dict HookId UInt64
  /-- The number of the next breakpoint. -/
  nextHook : HookId
  commands : Registry
  /-- The starts of the commands that fail. -/
  refused : List String
  /-- The commands that were executed, oldest first. -/
  executed : List String
  /-- The lines that were printed, oldest first. -/
  printed : List String
  /-- The reads that were asked for, oldest first. -/
  reads : List Read

namespace Simulated

/-- A target without memory, names or breakpoints. -/
def new : Simulated where
  memory := .empty
  names := ⟨.empty, .empty, .empty⟩
  frames := []
  breakpoints := .empty
  nextHook := 1
  commands := .empty
  refused := []
  executed := []
  printed := []
  reads := []

/-- The target with a symbol defined. -/
def defineSymbol (t : Simulated) (name : String) (address : UInt64) : Simulated :=
  { t with names.symbols := t.names.symbols.insert name address }

/-- The target with a register set. -/
def setRegister (t : Simulated) (name : String) (value : UInt64) : Simulated :=
  { t with names.registers := t.names.registers.insert name value }

/-- The frames with a value set in one of them, which is made if it is not there. -/
def setInFrame (name : String) (value : UInt64) :
    (frame : Nat) → List (Dict String UInt64) → List (Dict String UInt64)
  | 0, [] => [Dict.empty.insert name value]
  | 0, f :: r => f.insert name value :: r
  | frame + 1, [] => .empty :: setInFrame name value frame []
  | frame + 1, f :: r => f :: setInFrame name value frame r

/-- The target with a value set in a frame. -/
def setFrameValue (t : Simulated) (frame : Nat) (name : String) (value : UInt64) : Simulated :=
  { t with frames := setInFrame name value frame t.frames }

/-- The target that also refuses the commands that start with `start`. -/
def refuse (t : Simulated) (start : String) : Simulated :=
  { t with refused := t.refused ++ [start] }

/-- The target with an empty history. -/
def clearHistory (t : Simulated) : Simulated :=
  { t with executed := [], printed := [], reads := [] }

/-- The value of a variable. -/
def variableValue? (t : Simulated) (name : String) : Option UInt64 :=
  t.names.assigned.find? name

/-- The breakpoint at an address. -/
def hookAt? (t : Simulated) (address : UInt64) : Option HookId :=
  (t.breakpoints.entries.find? (·.2 = address)).map (·.1)

/-- The addresses with a breakpoint, in the order in which they got it. -/
def breakpointAddresses (t : Simulated) : List UInt64 :=
  t.breakpoints.values

/-- Sets a breakpoint; an address that has one keeps it. -/
def setBreakpoint (t : Simulated) (address : UInt64) : HookId × Simulated :=
  match t.hookAt? address with
  | some id => (id, t)
  | none =>
    (t.nextHook, { t with
      breakpoints := t.breakpoints.insert t.nextHook address
      nextHook := t.nextHook + 1 })

/-- Whether the target refuses a command. -/
def refuses (t : Simulated) (command : String) : Bool :=
  t.refused.any fun start => (Text.afterStart? start.toList command.toList).isSome

/-- Answers a request. -/
def answer : (r : Request Handler) → Simulated → r.Answer × Simulated
  | .read space address size, t =>
    let found : Except Error (List UInt8) :=
      match t.memory.read space address.toNat size with
      | some bytes => .ok bytes
      | none => .error (.unreadableMemory space address)
    (found, { t with reads := t.reads ++ [⟨space, address, size⟩] })
  | .evaluate expression, t =>
    let (value, names) := t.names.evaluate expression
    (value, { t with names })
  | .execute command, t =>
    if t.refuses command then (.error (.commandFailed command), t)
    else (.ok (), { t with executed := t.executed ++ [command] })
  | .setBreakpoint address, t =>
    let (id, t') := t.setBreakpoint address
    (.ok id, t')
  | .register name handler, t =>
    (.ok (), { t with commands := t.commands.insert name handler })
  | .frameValue frame name, t =>
    match (t.frames[frame]?).bind (·.find? name) with
    | some value => (.ok value, t)
    | none => (.error (.unknownFrameValue frame name), t)
  | .print line, t => ((), { t with printed := t.printed ++ [line] })

/-- Carries out a script. -/
def run {α : Type} (t : Simulated) (s : Script Handler α) : α × Simulated :=
  Program.run answer s t

/-- Carries out a command line of the operator. -/
def runCommand (t : Simulated) (line : String) : Except Error Unit × Simulated :=
  t.run (Debugger.runCommand t.commands line)

end Simulated

end KernelProbe.Target
