import KernelProbe.Debugger.Error
import KernelProbe.Interaction.Program
import KernelProbe.Text.Blank

/-!
# Scripts

A script is a program that drives a debugger: it reads memory, evaluates expressions, executes
commands, sets breakpoints, registers commands of its own, reads the values of a stack frame
and prints. Every call but printing may fail, and the script sees the cause.

A registered command is a script that registers nothing; its parameter is the text behind the
command's name.
-/

namespace KernelProbe.Debugger

/-- The number of a breakpoint, given by the debugger. -/
abbrev HookId := UInt32

/-- Whether a target stays stopped at a breakpoint. -/
inductive Decision
  | stop
  | resume
  deriving DecidableEq, Repr

/-- What a script may ask of a debugger; `H` is what it registers as commands. -/
inductive Request (H : Type) where
  /-- Read bytes of memory. -/
  | read (space : AddressSpace) (address : UInt64) (size : Nat)
  /-- Find the value of an expression. -/
  | evaluate (expression : String)
  /-- Carry out a command of the debugger. -/
  | execute (command : String)
  /-- Set a breakpoint. -/
  | setBreakpoint (address : UInt64)
  /-- Make a command known to the operator. -/
  | register (name : String) (handler : H)
  /-- Read an argument or variable of a stack frame, 0 being the innermost. -/
  | frameValue (frame : Nat) (name : String)
  /-- Show a line to the operator. -/
  | print (line : String)

/-- The answer to a request. -/
abbrev Request.Answer {H : Type} : Request H → Type
  | .read .. => Except Error (List UInt8)
  | .evaluate _ => Except Error UInt64
  | .execute _ => Except Error Unit
  | .setBreakpoint _ => Except Error HookId
  | .register .. => Except Error Unit
  | .frameValue .. => Except Error UInt64
  | .print _ => Unit

/-- The interface of a debugger. -/
abbrev interface (H : Type) : Interface := ⟨Request H, Request.Answer⟩

/-- A program that drives a debugger. -/
abbrev Script (H α : Type) := Program (interface H) α

/-- A registered command: the script for each argument text. That a command registers further ones
    is left out, because none does. -/
abbrev Handler := String → Script Empty (Except Error Unit)

/-- The registered commands. -/
abbrev Registry := Dict String Handler

section

variable {H : Type}

/-- Reads bytes of memory. -/
def read (space : AddressSpace) (address : UInt64) (size : Nat) :
    Script H (Except Error (List UInt8)) :=
  .ask (interface H) (.read space address size)

/-- Finds the value of an expression. -/
def evaluate (expression : String) : Script H (Except Error UInt64) :=
  .ask (interface H) (.evaluate expression)

/-- Carries out a command of the debugger. -/
def execute (command : String) : Script H (Except Error Unit) :=
  .ask (interface H) (.execute command)

/-- Sets a breakpoint. -/
def setBreakpoint (address : UInt64) : Script H (Except Error HookId) :=
  .ask (interface H) (.setBreakpoint address)

/-- Makes a command known to the operator. -/
def register (name : String) (handler : H) : Script H (Except Error Unit) :=
  .ask (interface H) (.register name handler)

/-- Reads an argument or variable of a stack frame. -/
def frameValue (frame : Nat) (name : String) : Script H (Except Error UInt64) :=
  .ask (interface H) (.frameValue frame name)

/-- Shows a line to the operator. -/
def print (line : String) : Script H Unit :=
  .ask (interface H) (.print line)

/-- Reads a number of `bits` bits, lowest byte first; any other count of bytes is an error. -/
def readNumber (bits : Nat) (space : AddressSpace) (address : UInt64) :
    Script H (Except Error Nat) := do
  match ← read space address (bits / 8) with
  | .error e => pure (.error e)
  | .ok bytes =>
    if bytes.length = bits / 8 then pure (.ok (LittleEndian.value bytes))
    else pure (.error (.wrongLength bits bytes.length))

/-- Reads a number of 64 bits. -/
def readWord64 (space : AddressSpace) (address : UInt64) : Script H (Except Error UInt64) := do
  return (← readNumber 64 space address).map Nat.toUInt64

/-- Reads a number of 16 bits. -/
def readWord16 (space : AddressSpace) (address : UInt64) : Script H (Except Error UInt16) := do
  return (← readNumber 16 space address).map Nat.toUInt16

end

/-- A request of a command as a request of any script. -/
def Request.widen {H : Type} : (r : Request Empty) → Script H r.Answer
  | .read space address size => Debugger.read space address size
  | .evaluate expression => Debugger.evaluate expression
  | .execute command => Debugger.execute command
  | .setBreakpoint address => Debugger.setBreakpoint address
  | .frameValue frame name => Debugger.frameValue frame name
  | .print line => Debugger.print line

/-- The script of a command as any script. -/
def widen {H α : Type} (s : Script Empty α) : Script H α :=
  s.substitute Request.widen

/-- A command line split into the command's name and its argument text. -/
def splitCommand (line : String) : String × String :=
  let (name, arguments) := Text.splitAtBlank (Text.trim line.toList)
  (String.ofList name, String.ofList (Text.trim arguments))

/-- Carries out a registered command, given as the operator types it. -/
def runCommand {H : Type} (commands : Registry) (line : String) :
    Script H (Except Error Unit) :=
  let (name, arguments) := splitCommand line
  match commands.find? name with
  | none => pure (.error (.undefinedCommand name))
  | some handler => widen (handler arguments)

end KernelProbe.Debugger
