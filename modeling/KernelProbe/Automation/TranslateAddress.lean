import KernelProbe.Paging.Walk

/-!
# The command that translates addresses

`translate_address <address>` walks the page tables of the moment for an address and shows the
entries and the outcome. An argument that is no address gets the usage line and is no error.
-/

namespace KernelProbe.Automation

open Debugger Text

/-- Why a text is no address. -/
inductive AddressError
  /-- The digits behind `0x` are no number. -/
  | hexadecimal (text : String) (cause : NumberError)
  /-- The text is no decimal number. -/
  | decimal (text : String) (cause : NumberError)
  deriving DecidableEq, Repr

/-- The wording of an address error. -/
def AddressError.message : AddressError → String
  | .hexadecimal text cause =>
    "Invalid hexadecimal address '" ++ text ++ "': " ++ cause.message
  | .decimal text cause => "Invalid address '" ++ text ++ "': " ++ cause.message

/-- Reads an address: in hexadecimal digits behind `0x` or `0X`, else in decimal digits. -/
def readAddress (text : String) : Except AddressError UInt64 :=
  let s := trim text.toList
  let number (base : Nat) (ds : List Char) (refuse : String → NumberError → AddressError) :=
    match readWord64 base ds with
    | .ok v => .ok v
    | .error e => .error (refuse (String.ofList s) e)
  match s with
  | '0' :: 'x' :: ds => number 16 ds .hexadecimal
  | '0' :: 'X' :: ds => number 16 ds .hexadecimal
  | _ => number 10 s .decimal

/-- The name under which the command is registered. -/
def translateAddressName : String := "translate_address"

/-- What the command prints for an argument that is no address. -/
def usage : String := "Usage: translate_address <address>"

/-- Prints lines, one after the other. -/
def printAll {H : Type} : List String → Script H Unit
  | [] => pure ()
  | line :: r => do
    print line
    printAll r

/-- The command `translate_address`. -/
def translateAddress (argument : String) : Script Empty (Except Error Unit) := do
  match readAddress argument with
  | .error _ =>
    print usage
    pure (.ok ())
  | .ok va =>
    match ← evaluate "$cr3" with
    | .error e => pure (.error e)
    | .ok cr3 =>
      printAll (← Paging.walk cr3 va).render
      pure (.ok ())

end KernelProbe.Automation
