import KernelProbe.Memory.Pages
import KernelProbe.Text.Digits

/-!
# What goes wrong with a debugger

The causes for which a call to a debugger is not carried out, and their wording.
-/

namespace KernelProbe

/-- The processes that a session starts. -/
inductive Role
  | emulator
  | debugger
  deriving DecidableEq, Repr

/-- The name of a process in messages. -/
def Role.name : Role → String
  | .emulator => "emulator"
  | .debugger => "debugger"

namespace Debugger

/-- Why a call was not carried out. -/
inductive Error
  /-- The expression names a symbol that nobody defines. -/
  | unknownSymbol (name : String)
  /-- Some byte of the range cannot be read. -/
  | unreadableMemory (space : AddressSpace) (address : UInt64)
  /-- The frame has no such argument or variable. -/
  | unknownFrameValue (frame : Nat) (name : String)
  /-- The text is no expression, or names a register that nobody defines. -/
  | invalidExpression (text : String)
  /-- No handler is registered under the name. -/
  | undefinedCommand (name : String)
  /-- The command was refused. -/
  | commandFailed (command : String)
  /-- The debugger answered a request with an error. -/
  | rejected (request message : String)
  /-- The debugger ended before it answered. -/
  | noReply (request : String)
  /-- The answer lacks a field. -/
  | malformedReply (request field : String)
  /-- The value of the expression is not displayed as a number. -/
  | notANumber (expression display : String)
  /-- A read of a number gave another count of bytes than the number has. -/
  | wrongLength (bits got : Nat)
  /-- A text goes on past the last address. -/
  | pastLastAddress
  /-- The connection to the debugger failed for a reason of its own. -/
  | connection (reason : String)
  deriving DecidableEq, Repr

open Text in
/-- The wording of an error. -/
def Error.message : Error → String
  | .unknownSymbol name => s!"No symbol \"{name}\" in current context"
  | .unreadableMemory space address =>
    s!"Cannot access {space.name} memory at address {hex address.toNat}"
  | .unknownFrameValue frame name => s!"No value \"{name}\" in frame #{decimal frame}"
  | .invalidExpression text => s!"Cannot evaluate expression \"{text}\""
  | .undefinedCommand name => s!"Undefined command: \"{name}\""
  | .commandFailed command => s!"Command \"{command}\" failed"
  | .rejected request message => "gdb rejected `" ++ request ++ "`: " ++ message
  | .noReply request => "gdb exited before answering `" ++ request ++ "`"
  | .malformedReply request field =>
    "unexpected reply to `" ++ request ++ "`: missing " ++ field
  | .notANumber expression display =>
    "Value of `" ++ expression ++ "` is not a number: " ++ display
  | .wrongLength bits got =>
    s!"Failed to convert {decimal got} bytes to u{decimal bits} array "
      ++ s!"(expected {decimal (bits / 8)} bytes)"
  | .pastLastAddress => "string runs past the end of the address space"
  | .connection reason => reason

end Debugger

end KernelProbe
