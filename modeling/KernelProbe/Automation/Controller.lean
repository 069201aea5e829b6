import KernelProbe.Automation.Modules
import KernelProbe.Automation.TranslateAddress

/-!
# The controller

The controller decides what happens at each stop of the target. It starts unarmed, with a hook
at the kernel's entry alone. The first stop there tells the kernel that a debugger is attached,
sets the other hooks, registers the commands and leaves the controller armed; later stops there
do nothing. A stop at a breakpoint that is not its own is left to the operator.
-/

namespace KernelProbe.Automation

open Debugger

/-- How far the controller has come. -/
inductive ControllerState
  /-- Only the entry hook is set. -/
  | unarmed
  /-- The other hooks are being set. -/
  | installing
  /-- All hooks are set. -/
  | armed
  deriving DecidableEq, Repr

/-- The controller of one debugger. -/
structure Controller where
  config : Config
  state : ControllerState
  /-- The breakpoint at the kernel's entry. -/
  entryGate : HookId
  hooks : HookTable
  modules : Modules
  /-- Whether the kernel was told that a debugger is attached. -/
  attached : Bool

/-- Why a controller could not be installed. -/
inductive InstallError
  /-- A command of the preamble failed. -/
  | preamble (cause : Error)
  /-- The entry hook could not be set. -/
  | entryHook (name : String) (cause : Error)
  deriving DecidableEq, Repr

/-- The wording of an install error. -/
def InstallError.message : InstallError → String
  | .preamble cause => cause.message
  | .entryHook name cause => s!"Hook symbol could not be resolved: {name}: {cause.message}"

/-- Executes commands up to the first one that fails. -/
def executeAll {H : Type} : List String → Script H (Except Error Unit)
  | [] => pure (.ok ())
  | command :: r => do
    match ← execute command with
    | .error e => pure (.error e)
    | .ok () => executeAll r

namespace Controller

/-- Executes the preamble and sets the entry hook. -/
def install {H : Type} (config : Config) : Script H (Except InstallError Controller) := do
  match ← executeAll config.preamble with
  | .error e => pure (.error (.preamble e))
  | .ok () =>
    match ← HookTable.empty.install config.entryHook .genericStop with
    | (.error e, _) => pure (.error (.entryHook config.entryHook e))
    | (.ok entryGate, hooks) =>
      pure (.ok {
        config, entryGate, hooks
        state := .unarmed
        modules := .new config
        attached := false })

/-- Sets hooks, passing over those that cannot be set. -/
def installHooks {H : Type} : List HookSpec → HookTable → Script H HookTable
  | [], t => pure t
  | spec :: r, t => do
    let (_, t) ← t.install spec.name spec.kind
    installHooks r t

/-- A stop at the kernel's entry; `command` is what is registered for translating addresses. -/
def onEntry {H : Type} (command : H) (c : Controller) : Script H (Decision × Controller) := do
  if c.state = .unarmed then
    print "Debugger attached"
    let attached := (← evaluate (c.config.attachedFlag ++ " = true")).toBool
    let hooks ← installHooks c.config.hooks c.hooks
    let _ ← register translateAddressName command
    pure (.resume, { c with
      state := .armed
      attached := c.attached || attached
      hooks })
  else pure (.resume, c)

/-- A stop at a fault handler. -/
def onFault {H : Type} (c : Controller) (h : Hook) (verbose : Bool) : Script H Decision := do
  print s!"Top of stack for {h.name}:"
  if verbose then
    let _ ← execute c.config.hookStateCommand
  let _ ← execute c.config.stackDumpCommand
  pure .stop

/-- A stop at a breakpoint; the decision says whether the target stays stopped. -/
def onStop {H : Type} (command : H) (c : Controller) (id : HookId) :
    Script H (Decision × Controller) := do
  if id = c.entryGate then c.onEntry command
  else
    match c.hooks.get? id with
    | none => pure (.stop, c)
    | some h =>
      match h.kind with
      | .faultVerbose => return (← c.onFault h true, c)
      | .faultSilent => return (← c.onFault h false, c)
      | .genericStop =>
        print s!"{h.name} hit"
        pure (.stop, c)
      | .moduleLoad =>
        let (decision, modules) ← c.modules.onLoad
        pure (decision, { c with modules })
      | .moduleUnload =>
        let (decision, modules) ← c.modules.onUnload
        pure (decision, { c with modules })

end Controller

end KernelProbe.Automation
