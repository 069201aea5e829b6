import KernelProbe.Debugger.Script
import KernelProbe.Gdb.Value
import KernelProbe.Mi.Record

/-!
# Scripts over a connection to the debugger

A connection carries requests, each answered by a record or not at all, lines for the
operator's console, and the commands that become known to the operator. `perform` says which
requests carry out each call of a script. Physical memory is read in a mode of the emulator that
is switched on for the read and off behind it, and a frame is selected for the read of its value
and the innermost one behind it, whatever the read gives.
-/

namespace KernelProbe.Gdb

open Debugger Mi

/-- What goes over a connection. -/
inductive Message where
  /-- Send a request and wait for the answer. -/
  | request (command : String)
  /-- Show a line on the operator's console. -/
  | console (line : String)
  /-- Make a command known to the operator. -/
  | register (name : String) (handler : Handler)

/-- The answer to a message. -/
abbrev Message.Answer : Message → Type
  | .request _ => Except Error Record
  | .console _ => Unit
  | .register .. => Unit

/-- The interface of a connection. -/
abbrev channel : Interface := ⟨Message, Message.Answer⟩

/-- A program over a connection that may fail. -/
abbrev Attempt (α : Type) := Program channel (Except Error α)

/-- Goes on with the value of an attempt that succeeded. -/
def Attempt.andThen {α β : Type} (p : Attempt α) (f : α → Attempt β) : Attempt β :=
  Program.bind p fun
    | .error e => .done (.error e)
    | .ok a => f a

/-- Carries out another program behind an attempt, whatever the attempt gave. -/
def Attempt.thenAlways {α : Type} (p : Attempt α) (q : Program channel Unit) : Attempt α :=
  Program.bind p fun result => Program.bind q fun _ => .done result

/-- The console command that makes the emulator read physical memory. -/
def physicalModeOn : String := "maintenance packet Qqemu.PhyMemMode:1"

/-- The console command that makes the emulator read virtual memory again. -/
def physicalModeOff : String := "maintenance packet Qqemu.PhyMemMode:0"

/-- The request that lets the target go on. -/
def continueRequest : String := "-exec-continue"

/-- The request for the value of an expression in the selected frame. -/
def evaluateRequest (expression : String) : String :=
  "-data-evaluate-expression " ++ Literal.quote expression

/-- The request for bytes of memory. -/
def memoryRequest (address : UInt64) (size : Nat) : String :=
  s!"-data-read-memory-bytes {Text.hex address.toNat} {Text.decimal size}"

/-- The request for a breakpoint. -/
def breakpointRequest (address : UInt64) : String :=
  s!"-break-insert *{Text.hex address.toNat}"

/-- The request that selects a frame. -/
def frameRequest (frame : Nat) : String :=
  s!"-stack-select-frame {Text.decimal frame}"

/-- Sends a request; an answer that reports an error fails. -/
def call (request : String) : Attempt Record :=
  Program.bind (.ask channel (.request request)) fun
    | .error e => .done (.error e)
    | .ok record =>
      match record.errorMessage? with
      | some message => .done (.error (.rejected request message))
      | none => .done (.ok record)

/-- Sends a request whose failure does not matter. -/
def tryCall (request : String) : Program channel Unit :=
  Program.bind (call request) fun _ => .done ()

/-- A field of the answer to a request, or the error that it is missing. -/
def require {α : Type} (request field : String) (found : Option α) : Except Error α :=
  match found with
  | some a => .ok a
  | none => .error (.malformedReply request field)

/-- The value of an expression in the selected frame. -/
def evaluateSelected (expression : String) : Attempt UInt64 :=
  let request := evaluateRequest expression
  (call request).andThen fun record => .done do
    let display ← require request "value" ((record.get? "value").bind Value.text?)
    match readValue? display with
    | some v => .ok v
    | none => .error (.notANumber expression display)

/-- The bytes that pairs of hexadecimal digits stand for. -/
def decodeBytes? : List Char → Option (List UInt8)
  | [] => some []
  | [_] => none
  | a :: b :: r =>
    match Text.readNumber 16 256 [a, b] with
    | .ok n => (decodeBytes? r).map (n.toUInt8 :: ·)
    | .error _ => none

/-- The bytes of a block of memory. -/
def blockBytes? (block : Value) : Option (List UInt8) := do
  decodeBytes? (← (← block.field? "contents").text?).toList

/-- Reads bytes in the mode of the moment; fewer or more than asked for means that some cannot
    be read. As for a memory, there is room for the bytes of any size. -/
def readBytes (space : AddressSpace) (address : UInt64) (size : Nat) : Attempt (List UInt8) :=
  let request := memoryRequest address size
  (call request).andThen fun record => .done do
    let blocks ← require request "memory" ((record.get? "memory").bind Value.items?)
    let bytes ← require request "contents" (blocks.mapM blockBytes?)
    if bytes.flatten.length = size then .ok bytes.flatten
    else .error (.unreadableMemory space address)

/-- Reads bytes of memory. -/
def readMemory (space : AddressSpace) (address : UInt64) (size : Nat) :
    Attempt (List UInt8) :=
  match space with
  | .virtual => readBytes .virtual address size
  | .physical =>
    (call (consoleRequest physicalModeOn)).andThen fun _ =>
      (readBytes .physical address size).thenAlways (tryCall (consoleRequest physicalModeOff))

/-- Sets a breakpoint; its number is the debugger's. -/
def setBreakpoint (address : UInt64) : Attempt HookId :=
  let request := breakpointRequest address
  (call request).andThen fun record => .done do
    let number := do
      let text ← (← (← record.get? "bkpt").field? "number").text?
      (Text.readWord32 10 text.toList).toOption
    require request "bkpt.number" number

/-- Reads a value of a frame. -/
def readFrameValue (frame : Nat) (name : String) : Attempt UInt64 :=
  (call (frameRequest frame)).andThen fun _ =>
    if frame = 0 then evaluateSelected name
    else (evaluateSelected name).thenAlways (tryCall (frameRequest 0))

/-- Sends a request of which only success matters. -/
def callOnly (request : String) : Attempt Unit :=
  (call request).andThen fun _ => .done (.ok ())

/-- Carries out a call of a script. -/
def perform : (r : Request Handler) → Program channel r.Answer
  | .read space address size => readMemory space address size
  | .evaluate expression => evaluateSelected expression
  | .execute command => callOnly (consoleRequest command)
  | .setBreakpoint address => setBreakpoint address
  | .register name handler => .call (.register name handler) fun _ => .done (.ok ())
  | .frameValue frame name => readFrameValue frame name
  | .print line => .ask channel (.console line)

/-- Carries out a script. -/
def carryOut {α : Type} (s : Script Handler α) : Program channel α :=
  s.substitute perform

/-- Lets the target go on. -/
def resume : Attempt Unit :=
  callOnly continueRequest

end KernelProbe.Gdb
