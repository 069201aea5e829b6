import KernelProbe.Debugger.Script
import KernelProbe.Text.Utf16

/-!
# Names of modules in memory

The kernel passes the path of a module as UTF-16 with a zero unit at its end. It is read unit by
unit, at most 1024 of them, and nothing behind the zero is looked at.
-/

namespace KernelProbe.Automation

open Debugger

/-- Why a module's name could not be read. -/
inductive NameError
  /-- No zero unit comes within the limit. -/
  | unterminated (address : UInt64) (limit : Nat)
  /-- A surrogate is not paired. -/
  | invalid (address : UInt64)
  /-- The unit at this address could not be read. -/
  | unreadable (address : UInt64) (cause : Error)
  deriving DecidableEq, Repr

/-- The wording of a name error. -/
def NameError.message : NameError → String
  | .unterminated address limit =>
    s!"module name at {Text.hex address.toNat} is not terminated within "
      ++ s!"{Text.decimal limit} code units"
  | .invalid address => s!"module name at {Text.hex address.toNat} is not valid UTF-16"
  | .unreadable address cause =>
    s!"failed to read module name at {Text.hex address.toNat}: {cause.message}"

/-- The error that led to a name error. -/
def NameError.cause? : NameError → Option Error
  | .unreadable _ cause => some cause
  | _ => none

/-- The greatest number of units that a name may have, the zero unit included. -/
def maxNameUnits : Nat := 1024

/-- Reads at most `remaining` more units of the text at `address`, of which `units` are read. -/
def readUnits {H : Type} (address : UInt64) :
    (remaining : Nat) → (units : List UInt16) → Script H (Except NameError String)
  | 0, _ => pure (.error (.unterminated address maxNameUnits))
  | remaining + 1, units => do
    let place := address.toNat + 2 * units.length
    if UInt64.size ≤ place then pure (.error (.unreadable address .pastLastAddress))
    else
      match ← readWord16 .virtual place.toUInt64 with
      | .error cause => pure (.error (.unreadable place.toUInt64 cause))
      | .ok u =>
        if u = 0 then
          match Text.Utf16.decode? units with
          | some text => pure (.ok (String.ofList text))
          | none => pure (.error (.invalid address))
        else readUnits address remaining (units ++ [u])

/-- Reads the text at an address. -/
def readUtf16 {H : Type} (address : UInt64) : Script H (Except NameError String) :=
  readUnits address maxNameUnits []

end KernelProbe.Automation
